/-! Reading a list from left to right by a rule that recognises items at its front. The rule says how
many elements an item takes; where it recognises nothing, one element is passed over. -/

namespace MarkMachine.Scan

variable {α β : Type}

/-- The items still to be found when `skip` elements of the last item are yet to be passed. -/
def itemsAfter (read : List α → Option (β × Nat)) : Nat → List α → List β
  | _, [] => []
  | skip + 1, _ :: rest => itemsAfter read skip rest
  | 0, x :: rest =>
      match read (x :: rest) with
      | some (item, width) => item :: itemsAfter read (width - 1) rest
      | none => itemsAfter read 0 rest

/-- The items of a list, found greedily from the left. -/
def items (read : List α → Option (β × Nat)) (list : List α) : List β :=
  itemsAfter read 0 list

/-- Passing over the rest of an item is dropping it. -/
theorem itemsAfter_eq_items_drop (read : List α → Option (β × Nat)) (skip : Nat) (list : List α) :
    itemsAfter read skip list = items read (list.drop skip) := by
  induction list generalizing skip with
  | nil => simp [itemsAfter, items]
  | cons x rest ih =>
      cases skip with
      | zero => rfl
      | succ skip => simpa [itemsAfter] using ih skip

/-- An item of positive width is found at the front and the search goes on behind it. -/
theorem items_of_read_eq_some {read : List α → Option (β × Nat)} {list : List α} {item : β}
    {width : Nat} (hread : read list = some (item, width)) (hlist : list ≠ []) (hwidth : 0 < width) :
    items read list = item :: items read (list.drop width) := by
  cases list with
  | nil => exact absurd rfl hlist
  | cons x rest =>
      obtain ⟨width, rfl⟩ : ∃ w, width = w + 1 := ⟨width - 1, by omega⟩
      rw [List.drop_succ_cons, ← itemsAfter_eq_items_drop]
      simp [items, itemsAfter, hread]

/-- Where nothing is recognised the search goes on one element later. -/
theorem items_of_read_eq_none {read : List α → Option (β × Nat)} {x : α} {rest : List α}
    (hread : read (x :: rest) = none) : items read (x :: rest) = items read rest := by
  simp [items, itemsAfter, hread]

end MarkMachine.Scan
