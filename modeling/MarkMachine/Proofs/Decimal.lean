import Mathlib.Tactic.SplitIfs
import MarkMachine.Text.Decimal

/-! Numbers in decimal. Digits are read one by one, and reading stops at the first that leads out of 64 bits.
Since further digits only lead further out, a text is read as a number just if it spells one that 64 bits hold,
with any number of zeros in front. What is written for a number spells that number. -/

namespace MarkMachine.Decimal

def Digits (text : List Char) : Prop :=
  text ≠ [] ∧ ∀ c ∈ text, c.isDigit = true

/-- What digits are worth, without any bound. -/
def worth (digits : List Char) : Nat :=
  Nat.ofDigitChars 10 digits 0

/-- The texts that spell a number: digits behind an optional sign of either kind. -/
inductive Spells : List Char → Int → Prop
  | plain {digits : List Char} (hdigits : Digits digits) : Spells digits (worth digits)
  | plus {digits : List Char} (hdigits : Digits digits) : Spells ('+' :: digits) (worth digits)
  | minus {digits : List Char} (hdigits : Digits digits) : Spells ('-' :: digits) (-worth digits)

theorem Spells.ne_nil {text : List Char} {value : Int} (h : Spells text value) : text ≠ [] := by
  cases h with
  | plain hdigits => exact hdigits.1
  | plus _ => exact List.cons_ne_nil _ _
  | minus _ => exact List.cons_ne_nil _ _

theorem Spells.isDigit_or_sign {text : List Char} {value : Int} (h : Spells text value) {c : Char}
    (hc : c ∈ text) : c.isDigit = true ∨ c = '+' ∨ c = '-' := by
  cases h with
  | plain hdigits => exact .inl (hdigits.2 c hc)
  | plus hdigits =>
      rcases List.mem_cons.mp hc with rfl | hc
      · exact .inr (.inl rfl)
      · exact .inl (hdigits.2 c hc)
  | minus hdigits =>
      rcases List.mem_cons.mp hc with rfl | hc
      · exact .inr (.inr rfl)
      · exact .inl (hdigits.2 c hc)

/-! ### Reading -/

def signed (negative : Bool) (magnitude : Nat) : Int :=
  if negative then -magnitude else magnitude

theorem signed_next (negative : Bool) (magnitude d : Nat) :
    (if negative then signed negative magnitude * 10 - d else signed negative magnitude * 10 + d) =
      signed negative (10 * magnitude + d) := by
  cases negative <;> simp [signed] <;> omega

/-- The numbers that 64 bits hold. -/
def Fits (value : Int) : Prop :=
  Int64.minValue.toInt ≤ value ∧ value ≤ Int64.maxValue.toInt

theorem fits_toInt (n : Int64) : Fits n.toInt :=
  ⟨n.minValue_le_toInt, n.toInt_le⟩

theorem toInt_ofInt_of_fits {value : Int} (h : Fits value) : (Int64.ofInt value).toInt = value := by
  have hmin := Int64.toInt_minValue
  have hmax := Int64.toInt_maxValue
  obtain ⟨hlow, hhigh⟩ := h
  exact Int64.toInt_ofInt_of_le (by omega) (by omega)

/-- With a smaller magnitude a number is no further out. -/
theorem signed_fits_of_le {negative : Bool} {small large : Nat} (hle : small ≤ large)
    (h : Fits (signed negative large)) : Fits (signed negative small) := by
  have hmin := Int64.toInt_minValue
  have hmax := Int64.toInt_maxValue
  cases negative <;> simp only [Fits, signed, Bool.false_eq_true, if_false, if_true] at h ⊢ <;> omega

theorem digit?_eq (c : Char) : digit? c = if c.isDigit then some (c.toNat - '0'.toNat) else none := by
  simp only [digit?, Char.isDigit, Char.le_def, Bool.and_eq_true, decide_eq_true_eq, ge_iff_le]

theorem le_ofDigitChars (text : List Char) (magnitude : Nat) :
    magnitude ≤ Nat.ofDigitChars 10 text magnitude := by
  induction text generalizing magnitude with
  | nil => exact Nat.le_refl magnitude
  | cons c text ih =>
      rw [Nat.ofDigitChars_cons]
      calc magnitude ≤ 10 * magnitude + (c.toNat - '0'.toNat) := by omega
        _ ≤ _ := ih _

/-- The check at each digit comes to the same as one check at the end. -/
theorem readDigits_eq_ok_iff {negative : Bool} {magnitude : Nat} {text : List Char} {n : Int64}
    (hfits : Fits (signed negative magnitude)) :
    readDigits negative (signed negative magnitude) text = .ok n ↔
      (∀ c ∈ text, c.isDigit = true) ∧ n.toInt = signed negative (Nat.ofDigitChars 10 text magnitude) := by
  induction text generalizing magnitude with
  | nil =>
      rw [readDigits, Except.ok.injEq, ← Int64.toInt_inj, toInt_ofInt_of_fits hfits, Nat.ofDigitChars_nil]
      exact ⟨fun hn => ⟨List.forall_mem_nil _, hn.symm⟩, fun hn => hn.2.symm⟩
  | cons c rest ih =>
      rw [readDigits, digit?_eq, List.forall_mem_cons]
      by_cases hc : c.isDigit = true
      · rw [if_pos hc]
        dsimp only
        rw [signed_next, Nat.ofDigitChars_cons]
        generalize 10 * magnitude + (c.toNat - '0'.toNat) = next
        by_cases hnext : Fits (signed negative next)
        · rw [if_neg (Int.not_lt.mpr hnext.1), if_neg (Int.not_lt.mpr hnext.2), and_iff_right hc]
          exact ih hnext
        · constructor
          · intro hread
            split_ifs at hread with hsmall hlarge
            exact absurd ⟨Int.not_lt.mp hsmall, Int.not_lt.mp hlarge⟩ hnext
          · rintro ⟨_, hn⟩
            have hlast := fits_toInt n
            rw [hn] at hlast
            exact absurd (signed_fits_of_le (le_ofDigitChars rest next) hlast) hnext
      · rw [if_neg hc]
        simp [hc]

theorem read_cons (c : Char) (rest : List Char) :
    read (c :: rest) =
      if c = '+' ∨ c = '-' then
        if rest = [] then .error .invalidDigit else readDigits (c = '-') 0 rest
      else readDigits false 0 (c :: rest) := by
  unfold read
  split <;> simp_all

theorem readDigits_zero_eq_ok_iff {negative : Bool} {text : List Char} {n : Int64} :
    readDigits negative 0 text = .ok n ↔
      (∀ c ∈ text, c.isDigit = true) ∧ n.toInt = signed negative (worth text) := by
  have hzero : signed negative 0 = 0 := by cases negative <;> rfl
  have hfits : Fits (signed negative 0) := by
    rw [hzero]
    exact fits_toInt 0
  rw [← hzero, readDigits_eq_ok_iff hfits, worth]

theorem spells_of_read {text : List Char} {n : Int64} (h : read text = .ok n) : Spells text n.toInt := by
  cases text with
  | nil => cases h
  | cons c rest =>
      rw [read_cons] at h
      split_ifs at h with hsign hrest
      · obtain ⟨hdigits, hn⟩ := readDigits_zero_eq_ok_iff.mp h
        rcases hsign with rfl | rfl
        · rw [hn]
          exact .plus ⟨hrest, hdigits⟩
        · rw [hn]
          exact .minus ⟨hrest, hdigits⟩
      · obtain ⟨hdigits, hn⟩ := readDigits_zero_eq_ok_iff.mp h
        rw [hn]
        exact .plain ⟨List.cons_ne_nil c rest, hdigits⟩

theorem read_of_spells {text : List Char} {value : Int} (h : Spells text value) {n : Int64}
    (hn : n.toInt = value) : read text = .ok n := by
  cases h with
  | plain hdigits =>
      cases text with
      | nil => exact absurd rfl hdigits.1
      | cons c rest =>
          have hc : ¬(c = '+' ∨ c = '-') := by
            have hdigit := hdigits.2 c List.mem_cons_self
            rintro (rfl | rfl) <;> cases hdigit
          rw [read_cons, if_neg hc]
          exact readDigits_zero_eq_ok_iff.mpr ⟨hdigits.2, hn⟩
  | plus hdigits =>
      rw [read_cons, if_pos (.inl rfl), if_neg hdigits.1]
      exact readDigits_zero_eq_ok_iff.mpr ⟨hdigits.2, hn⟩
  | minus hdigits =>
      rw [read_cons, if_pos (.inr rfl), if_neg hdigits.1]
      exact readDigits_zero_eq_ok_iff.mpr ⟨hdigits.2, hn⟩

/-- A text is read as the number that it spells, and read as a number only if it spells one. -/
theorem read_eq_ok_iff {text : List Char} {n : Int64} : read text = .ok n ↔ Spells text n.toInt :=
  ⟨spells_of_read, fun h => read_of_spells h rfl⟩

/-! ### Writing -/

theorem digits_digits (n : Nat) : Digits (digits n) :=
  ⟨Nat.toDigits_ne_nil, fun _ hc => Nat.isDigit_of_mem_toDigits (by decide) (by decide) hc⟩

theorem worth_digits (n : Nat) : worth (digits n) = n :=
  Nat.ofDigitChars_ten_toDigits

theorem spells_chars (n : Int) : Spells (chars n) n := by
  have hdigits := digits_digits n.natAbs
  have hworth := worth_digits n.natAbs
  rw [chars]
  by_cases hnegative : n < 0
  · have hn : -(worth (digits n.natAbs) : Int) = n := by omega
    have hspells := Spells.minus hdigits
    rw [if_pos hnegative]
    rwa [hn] at hspells
  · have hn : (worth (digits n.natAbs) : Int) = n := by omega
    have hspells := Spells.plain hdigits
    rw [if_neg hnegative]
    rwa [hn] at hspells

end MarkMachine.Decimal
