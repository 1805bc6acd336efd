import MarkMachine.Proofs.Characters
import MarkMachine.Proofs.Decimal
import MarkMachine.Proofs.Failure

/-! Numbers of the input. A reading of a number passes over blanks and takes the word behind them, up to the
next blank, which stays. The word decides: it is a number just if it spells one that 64 bits hold. Since it is
looked at only when all of it has been taken, what is left does not depend on what it is. What has been put out
as a number is such a word, so numbers that have been put out with blanks between them are read back one after
the other. -/

namespace MarkMachine

namespace Feed

/-! ### Words -/

theorem readWhile_append {p : UInt8 → Bool} {front back : List UInt8}
    (hfront : ∀ byte ∈ front, p byte = true) (hback : ∀ byte ∈ back.head?, p byte = false) :
    readWhile p ⟨front ++ back, none⟩ = .ok front ⟨back, none⟩ := by
  change takeWhile p (front ++ back) none = .ok front ⟨back, none⟩
  induction front with
  | nil =>
      cases back with
      | nil => rfl
      | cons byte back =>
          have hbyte : ¬p byte = true := by
            rw [hback byte rfl]
            exact Bool.false_ne_true
          exact if_neg hbyte
  | cons byte front ih =>
      rw [List.forall_mem_cons] at hfront
      rw [List.cons_append]
      refine (if_pos hfront.1).trans ?_
      rw [Option.map_none, ih hfront.2]

/-- Bytes parted into the blanks at their front, the word behind these and the rest, where both the blanks and
the word go on as long as can be. -/
structure Parted (bytes blanks word rest : List UInt8) : Prop where
  bytes_eq : bytes = blanks ++ (word ++ rest)
  blank : ∀ byte ∈ blanks, isBlank byte = true
  not_blank : ∀ byte ∈ word, isBlank byte = false
  blanks_end : ∀ byte ∈ (word ++ rest).head?, isBlank byte = false
  word_ends : ∀ byte ∈ rest.head?, isBlank byte = true

/-- The bytes at the front that satisfy a test, as far as they go, and the others. -/
theorem exists_eq_append (p : UInt8 → Bool) (bytes : List UInt8) :
    ∃ front back, bytes = front ++ back ∧ (∀ byte ∈ front, p byte = true) ∧
      ∀ byte ∈ back.head?, p byte = false := by
  refine ⟨bytes.takeWhile p, bytes.dropWhile p, List.takeWhile_append_dropWhile.symm, ?_, ?_⟩
  · intro byte hbyte
    exact List.mem_takeWhile_imp hbyte
  · intro byte hbyte
    have hhead := List.head?_dropWhile_not p bytes
    rw [Option.mem_def.mp hbyte] at hhead
    exact hhead

theorem exists_parted (bytes : List UInt8) : ∃ blanks word rest, Parted bytes blanks word rest := by
  obtain ⟨blanks, later, rfl, hblanks, hlater⟩ := exists_eq_append isBlank bytes
  obtain ⟨word, rest, rfl, hword, hrest⟩ := exists_eq_append (fun byte => !isBlank byte) later
  refine ⟨blanks, word, rest, rfl, hblanks, ?_, hlater, ?_⟩
  · intro byte hbyte
    simpa using hword byte hbyte
  · intro byte hbyte
    simpa using hrest byte hbyte

namespace Parted

variable {bytes blanks word rest : List UInt8}

theorem readWhile_isBlank (h : Parted bytes blanks word rest) :
    readWhile isBlank ⟨bytes, none⟩ = .ok blanks ⟨word ++ rest, none⟩ := by
  rw [h.bytes_eq]
  exact readWhile_append h.blank h.blanks_end

theorem readWhile_word (h : Parted bytes blanks word rest) :
    readWhile (fun byte => !isBlank byte) ⟨word ++ rest, none⟩ = .ok word ⟨rest, none⟩ := by
  apply readWhile_append
  · intro byte hbyte
    rw [h.not_blank byte hbyte, Bool.not_false]
  · intro byte hbyte
    rw [h.word_ends byte hbyte, Bool.not_true]

theorem unique {blanks' word' rest' : List UInt8} (h : Parted bytes blanks word rest)
    (h' : Parted bytes blanks' word' rest') : blanks = blanks' ∧ word = word' ∧ rest = rest' := by
  have hblanks := h.readWhile_isBlank.symm.trans h'.readWhile_isBlank
  simp only [EStateM.Result.ok.injEq, Feed.mk.injEq, and_true] at hblanks
  have hword := h.readWhile_word
  rw [hblanks.2, h'.readWhile_word] at hword
  simp only [EStateM.Result.ok.injEq, Feed.mk.injEq, and_true] at hword
  exact ⟨hblanks.1, hword.1.symm, hword.2.symm⟩

/-- The word alone decides what comes of a reading of a number, and what is left is the rest. -/
theorem readNumber_cases (h : Parted bytes blanks word rest) :
    (word = [] ∧ readNumber ⟨bytes, none⟩ = .error .endOfInput ⟨rest, none⟩) ∨
    (word ≠ [] ∧ ∃ n, Decimal.read (Utf8.decode word) = .ok n ∧ readNumber ⟨bytes, none⟩ = .ok n ⟨rest, none⟩) ∨
    (word ≠ [] ∧ ∃ reason, Decimal.read (Utf8.decode word) = .error reason ∧
      readNumber ⟨bytes, none⟩ = .error (.notANumber (Utf8.decode word) reason) ⟨rest, none⟩) := by
  have hnumber : readNumber ⟨bytes, none⟩ = _ :=
    (bind_of_ok h.readWhile_isBlank _).trans (bind_of_ok h.readWhile_word _)
  rw [hnumber]
  cases word with
  | nil => exact .inl ⟨rfl, rfl⟩
  | cons byte word =>
      right
      cases Decimal.read (Utf8.decode (byte :: word)) with
      | ok n => exact .inl ⟨List.cons_ne_nil byte word, n, rfl, rfl⟩
      | error reason => exact .inr ⟨List.cons_ne_nil byte word, reason, rfl, rfl⟩

end Parted

/-! ### Words that are numbers -/

/-- Bytes that spell a number: those of an optional sign and of one or more digits. -/
def Spelled (word : List UInt8) (value : Int) : Prop :=
  ∃ text, word = Utf8.encode text ∧ Decimal.Spells text value

theorem replacement_notMem_of_spells {text : List Char} {value : Int} (h : Decimal.Spells text value) :
    Utf8.replacement ∉ text := by
  intro hmem
  rcases h.isDigit_or_sign hmem with hc | hc | hc <;> exact absurd hc (by decide)

/-- Whatever the bytes of a word are, the text read off them is a number just if they spell it. -/
theorem read_decode_eq_ok_iff {word : List UInt8} {n : Int64} :
    Decimal.read (Utf8.decode word) = .ok n ↔ Spelled word n.toInt := by
  constructor
  · intro hread
    have hspells := Decimal.read_eq_ok_iff.mp hread
    exact ⟨_, (Utf8.decode_eq_iff (replacement_notMem_of_spells hspells)).mp rfl, hspells⟩
  · rintro ⟨text, hword, hspells⟩
    rw [(Utf8.decode_eq_iff (replacement_notMem_of_spells hspells)).mpr hword]
    exact Decimal.read_eq_ok_iff.mpr hspells

theorem Spelled.ne_nil {word : List UInt8} {value : Int} (h : Spelled word value) : word ≠ [] := by
  obtain ⟨text, rfl, hspells⟩ := h
  obtain ⟨c, later, rfl⟩ := List.exists_cons_of_ne_nil hspells.ne_nil
  obtain ⟨lead, tail, hencode, _⟩ := Utf8.exists_encoding c
  rw [Utf8.encode_cons, hencode, List.cons_append]
  exact List.cons_ne_nil _ _

theorem isBlank_of_mem_utf8EncodeChar {c : Char} (hc : c.isDigit = true ∨ c = '+' ∨ c = '-') {byte : UInt8}
    (h : byte ∈ String.utf8EncodeChar c) : isBlank byte = false := by
  have hdigits : ∀ code, code < 58 → 48 ≤ code → isBlank (UInt8.ofNat code) = false := by decide
  rcases hc with hc | rfl | rfl
  · have hbounds : 48 ≤ c.val.toNat ∧ c.val.toNat ≤ 57 := by
      simpa [Char.isDigit, UInt32.le_iff_toNat_le] using hc
    rw [String.utf8EncodeChar, if_pos (by omega), List.mem_singleton] at h
    rw [h]
    exact hdigits _ (by omega) hbounds.1
  · rw [List.mem_singleton.mp h]
    decide
  · rw [List.mem_singleton.mp h]
    decide

theorem Spelled.not_blank {word : List UInt8} {value : Int} (h : Spelled word value) :
    ∀ byte ∈ word, isBlank byte = false := by
  obtain ⟨text, rfl, hspells⟩ := h
  intro byte hbyte
  obtain ⟨c, hc, hbyte⟩ := List.mem_flatMap.mp hbyte
  exact isBlank_of_mem_utf8EncodeChar (hspells.isDigit_or_sign hc) hbyte

/-- A word that spells a number goes on to the next blank. -/
theorem Spelled.parted {blanks word rest : List UInt8} {value : Int} (h : Spelled word value)
    (hblanks : ∀ byte ∈ blanks, isBlank byte = true) (hrest : ∀ byte ∈ rest.head?, isBlank byte = true) :
    Parted (blanks ++ (word ++ rest)) blanks word rest where
  bytes_eq := rfl
  blank := hblanks
  not_blank := h.not_blank
  blanks_end := by
    intro byte hbyte
    rw [List.head?_append_of_ne_nil _ h.ne_nil] at hbyte
    exact h.not_blank byte (List.mem_of_mem_head? hbyte)
  word_ends := hrest

/-- The text of a word is no number just if the word spells none that 64 bits hold. -/
theorem read_decode_error_iff {word : List UInt8} :
    (∃ reason, Decimal.read (Utf8.decode word) = .error reason) ↔
      ∀ value, Spelled word value → value < -2 ^ 63 ∨ 2 ^ 63 ≤ value := by
  constructor
  · rintro ⟨reason, hread⟩ value hspelled
    by_contra hinside
    have htoInt : (Int64.ofInt value).toInt = value := Int64.toInt_ofInt_of_le (by omega) (by omega)
    rw [← htoInt, ← read_decode_eq_ok_iff, hread] at hspelled
    cases hspelled
  · intro hout
    cases hread : Decimal.read (Utf8.decode word) with
    | error reason => exact ⟨reason, rfl⟩
    | ok n =>
        have hlow := n.le_toInt
        have hhigh := n.toInt_lt
        have hvalue := hout n.toInt (read_decode_eq_ok_iff.mp hread)
        omega

namespace Parted

variable {bytes blanks word rest : List UInt8}

theorem left_readNumber (h : Parted bytes blanks word rest) :
    left (readNumber ⟨bytes, none⟩) = ⟨rest, none⟩ := by
  rcases h.readNumber_cases with ⟨_, hnumber⟩ | ⟨_, n, _, hnumber⟩ | ⟨_, reason, _, hnumber⟩
  all_goals
    rw [hnumber]
    rfl

theorem readNumber_endOfInput_iff (h : Parted bytes blanks word rest) :
    readNumber ⟨bytes, none⟩ = .error .endOfInput ⟨rest, none⟩ ↔ word = [] := by
  rcases h.readNumber_cases with ⟨hword, hnumber⟩ | ⟨hword, n, _, hnumber⟩ | ⟨hword, reason, _, hnumber⟩
  all_goals simp [hnumber, hword]

theorem readNumber_eq_ok_iff (h : Parted bytes blanks word rest) {n : Int64} :
    readNumber ⟨bytes, none⟩ = .ok n ⟨rest, none⟩ ↔ Spelled word n.toInt := by
  rcases h.readNumber_cases with ⟨hword, hnumber⟩ | ⟨_, m, hread, hnumber⟩ | ⟨_, reason, hread, hnumber⟩
  · rw [hnumber]
    refine ⟨nofun, fun hspelled => ?_⟩
    exact absurd hword hspelled.ne_nil
  · rw [hnumber, ← read_decode_eq_ok_iff, hread]
    simp
  · rw [hnumber, ← read_decode_eq_ok_iff, hread]
    simp

theorem readNumber_notANumber_iff (h : Parted bytes blanks word rest) :
    (∃ reason, readNumber ⟨bytes, none⟩ = .error (.notANumber (Utf8.decode word) reason) ⟨rest, none⟩) ↔
      word ≠ [] ∧ ∃ reason, Decimal.read (Utf8.decode word) = .error reason := by
  rcases h.readNumber_cases with ⟨hword, hnumber⟩ | ⟨hword, n, hread, hnumber⟩ | ⟨hword, reason, hread, hnumber⟩
  · simp [hnumber, hword]
  · simp [hnumber, hread]
  · simp [hnumber, hread, hword]

end Parted

/-- **Reading numbers is exact.** Input is parted in one way into blanks, a word and the rest, and the rest is what a
reading of a number leaves, whatever comes of it. It finds the end of the input just if there is no word, returns a
number just if the word spells that number, with any count of digits, and finds no number just if the word spells
none or one that 64 bits do not hold. -/
theorem readNumber_exact (bytes : List UInt8) :
    (∃! parts : List UInt8 × List UInt8 × List UInt8, Parted bytes parts.1 parts.2.1 parts.2.2) ∧
    ∀ blanks word rest, Parted bytes blanks word rest →
      left (readNumber ⟨bytes, none⟩) = ⟨rest, none⟩ ∧
      (readNumber ⟨bytes, none⟩ = .error .endOfInput ⟨rest, none⟩ ↔ word = []) ∧
      (∀ n : Int64, readNumber ⟨bytes, none⟩ = .ok n ⟨rest, none⟩ ↔ Spelled word n.toInt) ∧
      ((∃ reason, readNumber ⟨bytes, none⟩ = .error (.notANumber (Utf8.decode word) reason) ⟨rest, none⟩) ↔
        word ≠ [] ∧ ∀ value, Spelled word value → value < -2 ^ 63 ∨ 2 ^ 63 ≤ value) := by
  refine ⟨?_, ?_⟩
  · obtain ⟨blanks, word, rest, hparted⟩ := exists_parted bytes
    refine ⟨(blanks, word, rest), hparted, ?_⟩
    rintro ⟨blanks', word', rest'⟩ hparted'
    obtain ⟨rfl, rfl, rfl⟩ := hparted.unique hparted'
    rfl
  · intro blanks word rest hparted
    refine ⟨hparted.left_readNumber, hparted.readNumber_endOfInput_iff, fun n => hparted.readNumber_eq_ok_iff, ?_⟩
    rw [hparted.readNumber_notANumber_iff, read_decode_error_iff]

/-- The least number with a zero in front of its digits, and a number one too large. -/
theorem readNumber_exact_limits :
    let least := ['0', '9', '2', '2', '3', '3', '7', '2', '0', '3', '6', '8', '5', '4', '7', '7', '5', '8', '0', '8']
    let large := ['9', '2', '2', '3', '3', '7', '2', '0', '3', '6', '8', '5', '4', '7', '7', '5', '8', '0', '8']
    readNumber ⟨[0x20, 0x0C] ++ (Utf8.encode ('-' :: least) ++ [0x0A, 0x37]), none⟩ =
      .ok Int64.minValue ⟨[0x0A, 0x37], none⟩ ∧
    ∃ reason, readNumber ⟨[] ++ (Utf8.encode large ++ []), none⟩ = .error (.notANumber large reason) ⟨[], none⟩ := by
  intro least large
  constructor
  · have hdigits : Decimal.Digits least := ⟨List.cons_ne_nil _ _, List.all_eq_true.mp rfl⟩
    have hworth : Int64.minValue.toInt = -(Decimal.worth least : Int) := by decide
    have hspelled : Spelled (Utf8.encode ('-' :: least)) Int64.minValue.toInt := by
      rw [hworth]
      exact ⟨_, rfl, .minus hdigits⟩
    have hblanks : ∀ byte ∈ [0x20, 0x0C], isBlank byte = true := List.all_eq_true.mp rfl
    have hrest : ∀ byte ∈ [(0x0A : UInt8), 0x37].head?, isBlank byte = true := by
      rintro _ ⟨⟩
      rfl
    obtain ⟨_, hread⟩ := readNumber_exact ([0x20, 0x0C] ++ (Utf8.encode ('-' :: least) ++ [0x0A, 0x37]))
    exact ((hread _ _ _ (hspelled.parted hblanks hrest)).2.2.1 Int64.minValue).mpr hspelled
  · have hdigits : Decimal.Digits large := ⟨List.cons_ne_nil _ _, List.all_eq_true.mp rfl⟩
    have hspelled : Spelled (Utf8.encode large) (Decimal.worth large) := ⟨_, rfl, .plain hdigits⟩
    have hdecode : Utf8.decode (Utf8.encode large) = large := by decide
    have hout : ∀ value, Spelled (Utf8.encode large) value → value < -2 ^ 63 ∨ 2 ^ 63 ≤ value := by
      rintro value ⟨text, htext, hspells⟩
      have hnotMem := replacement_notMem_of_spells hspells
      obtain rfl : large = text := hdecode.symm.trans ((Utf8.decode_eq_iff hnotMem).mpr htext)
      simp only [large] at hspells
      cases hspells with
      | plain _ => exact .inr (by decide)
    obtain ⟨_, hread⟩ := readNumber_exact ([] ++ (Utf8.encode large ++ []))
    have hparted : Parted ([] ++ (Utf8.encode large ++ [])) [] (Utf8.encode large) [] :=
      hspelled.parted (List.forall_mem_nil _) nofun
    obtain ⟨reason, hreason⟩ := (hread _ _ _ hparted).2.2.2.mpr ⟨hspelled.ne_nil, hout⟩
    rw [hdecode] at hreason
    exact ⟨reason, hreason⟩

/-! ### Numbers that have been put out -/

theorem readNumber_of_blank {blanks : List UInt8} (h : ∀ byte ∈ blanks, isBlank byte = true) :
    readNumber ⟨blanks, none⟩ = .error .endOfInput ⟨[], none⟩ := by
  have hparted : Parted blanks blanks [] [] :=
    ⟨(List.append_nil blanks).symm, h, List.forall_mem_nil _, nofun, nofun⟩
  exact hparted.readNumber_endOfInput_iff.mpr rfl

def printed (n : Int64) : List UInt8 :=
  Utf8.encode (Decimal.chars n.toInt)

theorem spelled_printed (n : Int64) : Spelled (printed n) n.toInt :=
  ⟨_, rfl, Decimal.spells_chars n.toInt⟩

/-- Numbers that have been put out, with some bytes in front of each and some behind them all. -/
def joined (pieces : List (List UInt8 × Int64)) (tail : List UInt8) : List UInt8 :=
  (pieces.flatMap fun piece => piece.1 ++ printed piece.2) ++ tail

/-- The bytes in front of the numbers are blanks, which are missing at most in front of the first, and the
bytes behind them all begin with a blank if there are any. -/
structure Spaced (pieces : List (List UInt8 × Int64)) (tail : List UInt8) : Prop where
  blank : ∀ piece ∈ pieces, ∀ byte ∈ piece.1, isBlank byte = true
  apart : ∀ piece ∈ pieces.tail, piece.1 ≠ []
  ends : ∀ byte ∈ tail.head?, isBlank byte = true

theorem joined_cons (piece : List UInt8 × Int64) (later : List (List UInt8 × Int64)) (tail : List UInt8) :
    joined (piece :: later) tail = piece.1 ++ (printed piece.2 ++ joined later tail) := by
  rw [joined, joined, List.flatMap_cons, List.append_assoc, List.append_assoc]

namespace Spaced

variable {pieces later : List (List UInt8 × Int64)} {piece : List UInt8 × Int64} {tail : List UInt8}

theorem drop (h : Spaced pieces tail) (index : Nat) : Spaced (pieces.drop index) tail where
  blank := fun piece hpiece => h.blank piece (List.mem_of_mem_drop hpiece)
  apart := by
    intro piece hpiece
    rw [List.tail_drop, ← List.drop_tail] at hpiece
    exact h.apart piece (List.mem_of_mem_drop hpiece)
  ends := h.ends

/-- What stands behind a number begins with a blank, if there is anything. -/
theorem head?_joined (h : Spaced (piece :: later) tail) :
    ∀ byte ∈ (joined later tail).head?, isBlank byte = true := by
  cases later with
  | nil => exact h.ends
  | cons next later =>
      have hgap : next.1 ≠ [] := h.apart next List.mem_cons_self
      intro byte hbyte
      rw [joined_cons, List.head?_append_of_ne_nil _ hgap] at hbyte
      exact h.blank next (List.mem_cons_of_mem _ List.mem_cons_self) byte (List.mem_of_mem_head? hbyte)

theorem readNumber_joined (h : Spaced (piece :: later) tail) :
    readNumber ⟨joined (piece :: later) tail, none⟩ = .ok piece.2 ⟨joined later tail, none⟩ := by
  have hprinted := spelled_printed piece.2
  rw [joined_cons]
  exact (hprinted.parted (h.blank piece List.mem_cons_self) h.head?_joined).readNumber_eq_ok_iff.mpr hprinted

theorem readNumber_drop (h : Spaced pieces tail) {index : Nat} (hindex : index < pieces.length) :
    readNumber ⟨joined (pieces.drop index) tail, none⟩ =
      .ok pieces[index].2 ⟨joined (pieces.drop (index + 1)) tail, none⟩ := by
  have hspaced := h.drop index
  rw [List.drop_eq_getElem_cons hindex] at hspaced ⊢
  exact hspaced.readNumber_joined

/-- Readings of numbers go through the numbers one at a time. -/
theorem after_readNumber (h : Spaced pieces tail) {index : Nat} (hindex : index ≤ pieces.length) :
    after readNumber index ⟨joined pieces tail, none⟩ = ⟨joined (pieces.drop index) tail, none⟩ := by
  induction index with
  | zero => rfl
  | succ index ih =>
      rw [after_succ, ih (Nat.le_of_succ_le hindex), h.readNumber_drop hindex]
      rfl

/-- When the numbers have been read and only blanks are left, there are no more numbers. -/
theorem readNumber_after (h : Spaced pieces tail) (htail : ∀ byte ∈ tail, isBlank byte = true) (extra : Nat) :
    readNumber (after readNumber (pieces.length + extra) ⟨joined pieces tail, none⟩) =
      .error .endOfInput ⟨[], none⟩ := by
  induction extra with
  | zero =>
      rw [Nat.add_zero, h.after_readNumber (Nat.le_refl _), List.drop_length]
      exact readNumber_of_blank htail
  | succ extra ih =>
      rw [← Nat.add_assoc, after_succ, ih]
      rfl

end Spaced

end Feed

/-! ### Putting numbers out -/

namespace Sink

theorem written_of_write {bytes : List UInt8} {sink after : Sink} (h : write bytes sink = .ok () after) :
    after.written.toList = sink.written.toList ++ bytes := by
  induction bytes generalizing sink with
  | nil =>
      cases h
      exact (List.append_nil _).symm
  | cons byte bytes ih =>
      simp only [write, bind, EStateM.bind, writeByte] at h
      by_cases hrefuses : sink.refusesByte sink.offered = true
      · rw [if_pos hrefuses] at h
        cases h
      · rw [if_neg hrefuses] at h
        rw [ih h, Array.toList_push, List.append_assoc, List.singleton_append]

theorem exists_write {sink : Sink} (h : ∀ offered, sink.refusesByte offered = false) (bytes : List UInt8) :
    ∃ after, write bytes sink = .ok () after := by
  induction bytes generalizing sink with
  | nil => exact ⟨sink, rfl⟩
  | cons byte bytes ih =>
      simp only [write, bind, EStateM.bind, writeByte, h sink.offered, Bool.false_eq_true, if_false]
      exact ih h

end Sink

theorem Instruction.execute_outputNumber {session : Session} {value : Value} {rest : Stack}
    (hstack : session.machine.stack = value :: rest) (position : Nat) :
    outputNumber.execute position session =
      match Sink.write (Feed.printed value.toInteger) session.sink with
      | .ok _ sink => .ok .running { session.withStack rest with sink }
      | .error fault sink => .error (.device fault) { session.withStack rest with sink } := by
  have hperform : Action.perform outputNumber position session =
      Action.toSink (Sink.write (Feed.printed value.toInteger)) (session.withStack rest) := by
    rw [Action.perform_of_isOutput (.inr rfl), Action.pop_bind_of_cons hstack]
    rfl
  obtain ⟨machine, feed, sink⟩ := session
  rw [execute_eq, hperform, Session.withStack, Action.toSink]
  cases Sink.write (Feed.printed value.toInteger) sink <;> rfl

/-- **Numbers that are put out are read back.** Let numbers be put out with blanks between any two, and a blank behind
the last if anything stands there. Then as many readings return the numbers in order, and each leaves the blanks
behind its number and all that follows. If nothing but blanks stands behind the last, every further reading finds
the end of the input. -/
theorem Feed.printed_numbers_read_back {pieces : List (List UInt8 × Int64)} {tail : List UInt8}
    (hspaced : Spaced pieces tail) :
    (∀ (n : Int64) (value : Value) (rest : Stack) (position : Nat) (session : Session),
      value.toInteger = n → session.machine.stack = value :: rest →
        (∀ outcome after, Instruction.outputNumber.execute position session = .ok outcome after →
          after.sink.written.toList = session.sink.written.toList ++ printed n) ∧
        ((∀ offered, session.sink.refusesByte offered = false) →
          ∃ after, Instruction.outputNumber.execute position session = .ok .running after)) ∧
    (∀ index (h : index < pieces.length), readNumber (after readNumber index ⟨joined pieces tail, none⟩) =
      .ok pieces[index].2 ⟨joined (pieces.drop (index + 1)) tail, none⟩) ∧
    ((∀ byte ∈ tail, isBlank byte = true) → ∀ index, pieces.length ≤ index →
      readNumber (after readNumber index ⟨joined pieces tail, none⟩) = .error .endOfInput ⟨[], none⟩) := by
  refine ⟨?_, ?_, ?_⟩
  · rintro n value rest position session rfl hstack
    rw [Instruction.execute_outputNumber hstack]
    refine ⟨?_, ?_⟩
    · intro outcome after hexecute
      cases hwrite : Sink.write (printed value.toInteger) session.sink with
      | error fault sink =>
          rw [hwrite] at hexecute
          cases hexecute
      | ok result sink =>
          rw [hwrite] at hexecute
          cases hexecute
          exact Sink.written_of_write hwrite
    · intro hrefuses
      obtain ⟨sink, hwrite⟩ := Sink.exists_write hrefuses (printed value.toInteger)
      rw [hwrite]
      exact ⟨_, rfl⟩
  · intro index hindex
    rw [hspaced.after_readNumber (Nat.le_of_lt hindex), hspaced.readNumber_drop hindex]
  · intro htail index hindex
    obtain ⟨extra, rfl⟩ := Nat.exists_eq_add_of_le hindex
    exact hspaced.readNumber_after htail extra

/-- The two numbers furthest out, with blanks of several kinds around them. -/
theorem Feed.printed_numbers_read_back_extremes :
    let pieces : List (List UInt8 × Int64) := [([], Int64.minValue), ([0x0D, 0x0A], Int64.maxValue)]
    readNumber (after readNumber 1 ⟨joined pieces [0x09], none⟩) = .ok Int64.maxValue ⟨[0x09], none⟩ ∧
    readNumber (after readNumber 2 ⟨joined pieces [0x09], none⟩) = .error .endOfInput ⟨[], none⟩ := by
  intro pieces
  have hspaced : Spaced pieces [0x09] := by
    refine ⟨by simp [pieces, isBlank], by simp [pieces], ?_⟩
    rintro _ ⟨⟩
    rfl
  obtain ⟨_, hnumbers, hend⟩ := printed_numbers_read_back hspaced
  exact ⟨hnumbers 1 Nat.one_lt_two, hend (List.all_eq_true.mp rfl) 2 (Nat.le_refl 2)⟩

end MarkMachine
