import Mathlib.Data.List.Infix
import Mathlib.Logic.Function.Iterate
import MarkMachine.Feed
import MarkMachine.Proofs.Encoding

/-! Characters of the input. A reading of a character takes as many bytes as the first one announces, and only
then looks at whether they are an encoding. The number announced is the length of every encoding that begins
with that byte, so each encoding is taken whole, and whatever else is taken encodes nothing. -/

namespace MarkMachine

namespace Feed

variable {α β : Type}

theorem bind_of_ok {read : Reader α} {feed after : Feed} {value : α} (h : read feed = .ok value after)
    (next : α → Reader β) : (read >>= next) feed = next value after := by
  simp only [bind, EStateM.bind, h]

theorem bind_of_error {read : Reader α} {feed after : Feed} {fault : DeviceFault}
    (h : read feed = .error fault after) (next : α → Reader β) : (read >>= next) feed = .error fault after := by
  simp only [bind, EStateM.bind, h]

/-- The feed that a reading leaves, whether or not it comes off. -/
def left : EStateM.Result DeviceFault Feed α → Feed
  | .ok _ feed => feed
  | .error _ feed => feed

/-- The feed that a number of readings leave, one after the other. -/
def after (read : Reader α) (count : Nat) : Feed → Feed :=
  (fun feed => left (read feed))^[count]

theorem after_succ (read : Reader α) (count : Nat) (feed : Feed) :
    after read (count + 1) feed = left (read (after read count feed)) :=
  Function.iterate_succ_apply' _ count feed

end Feed

namespace Utf8

/-- How many bytes are taken for a character that begins with a byte. -/
def takenWidth (lead : UInt8) : Nat :=
  (announcedWidth? lead).getD 1

theorem takenWidth_pos (lead : UInt8) : 0 < takenWidth lead := by
  rw [takenWidth]
  cases hwidth : announcedWidth? lead with
  | none => exact Nat.one_pos
  | some width => exact announcedWidth?_pos hwidth

theorem Encoding.takenWidth {lead : UInt8} {tail : List UInt8} (h : Encoding lead tail) :
    takenWidth lead = tail.length + 1 := by
  rw [Utf8.takenWidth, h.announced.1]
  rfl

theorem exists_isSecond (lead : UInt8) : ∃ second, isSecond lead second = true := by
  by_cases hlow : lead.toNat = 0xED ∨ lead.toNat = 0xF4
  · refine ⟨0x80, isSecond_iff.mpr ?_⟩
    rw [show (0x80 : UInt8).toNat = 0x80 from rfl]
    omega
  · refine ⟨0xA0, isSecond_iff.mpr ?_⟩
    rw [show (0xA0 : UInt8).toNat = 0xA0 from rfl]
    omega

/-- A byte that announces a width begins an encoding. -/
theorem exists_encoding_of_announced {lead : UInt8} {width : Nat} (h : announcedWidth? lead = some width) :
    ∃ tail, Encoding lead tail := by
  obtain ⟨second, hsecond⟩ := exists_isSecond lead
  have hlater := isContinuation_of_isSecond hsecond
  rw [announcedWidth?_eq] at h
  split_ifs at h with hone htwo hthree hfour
  · exact ⟨[], .one hone⟩
  · exact ⟨[second], .two htwo hsecond⟩
  · exact ⟨[second, second], .three hthree hsecond hlater⟩
  · exact ⟨[second, second, second], .four hfour hsecond hlater hlater⟩

/-- The width that a byte announces is the length of the encodings that begin with it. -/
theorem announcedWidth?_eq_some_iff {lead : UInt8} {width : Nat} :
    announcedWidth? lead = some width ↔
      ∃ c tail, String.utf8EncodeChar c = lead :: tail ∧ width = tail.length + 1 := by
  constructor
  · intro hwidth
    obtain ⟨tail, hencoding⟩ := exists_encoding_of_announced hwidth
    refine ⟨_, tail, hencoding.utf8EncodeChar_codePoint, ?_⟩
    exact Option.some.inj (hwidth.symm.trans hencoding.announced.1)
  · rintro ⟨c, tail, hencode, rfl⟩
    obtain ⟨lead', tail', hencode', hencoding, _⟩ := exists_encoding c
    obtain ⟨rfl, rfl⟩ := List.cons.inj (hencode.symm.trans hencode')
    exact hencoding.announced.1

/-- Bytes of the announced number that encode no character are read as the replacement character. -/
theorem charAt?_of_not_encoding {lead : UInt8} {tail : List UInt8}
    (hlength : tail.length + 1 = takenWidth lead) (hnone : ¬∃ c, String.utf8EncodeChar c = lead :: tail) :
    ∃ width, charAt? (lead :: tail) = some (replacement, width) := by
  obtain ⟨c, width, hread⟩ := charAt?_isSome (List.cons_ne_nil lead tail)
  obtain ⟨lead', tail', later, hbytes, rfl, _, hc⟩ := exists_of_charAt? hread
  obtain ⟨rfl, rfl⟩ := List.cons.inj hbytes
  rcases hc with rfl | ⟨hencoding, rfl⟩
  · exact ⟨_, hread⟩
  · -- All of the announced bytes would belong to the encoding.
    rw [hencoding.takenWidth, List.length_append] at hlength
    obtain rfl : later = [] := List.eq_nil_of_length_eq_zero (by omega)
    rw [List.append_nil] at hnone
    exact absurd ⟨_, hencoding.utf8EncodeChar_codePoint⟩ hnone

end Utf8

namespace Feed

theorem readByte_cons (byte : UInt8) (bytes : List UInt8) :
    readByte ⟨byte :: bytes, none⟩ = .ok byte ⟨bytes, none⟩ := rfl

theorem readBytes_eq (count : Nat) (bytes : List UInt8) :
    readBytes count ⟨bytes, none⟩ =
      if count ≤ bytes.length then .ok (bytes.take count) ⟨bytes.drop count, none⟩
      else .error .endOfInput ⟨[], none⟩ := by
  induction count generalizing bytes with
  | zero => rfl
  | succ count ih =>
      cases bytes with
      | nil => rfl
      | cons byte bytes =>
          have hlater := ih bytes
          rw [readBytes, bind_of_ok (readByte_cons byte bytes), List.length_cons]
          by_cases hcount : count ≤ bytes.length
          · rw [if_pos hcount] at hlater
            rw [bind_of_ok hlater, if_pos (Nat.succ_le_succ hcount)]
            rfl
          · rw [if_neg hcount] at hlater
            rw [bind_of_error hlater, if_neg (mt Nat.le_of_succ_le_succ hcount)]

/-- A reading of a character takes the announced number of bytes, or all there are if they are fewer. -/
theorem readChar_cons (lead : UInt8) (rest : List UInt8) :
    readChar ⟨lead :: rest, none⟩ =
      let width := Utf8.takenWidth lead
      if width ≤ rest.length + 1 then
        .ok (((Utf8.charAt? ((lead :: rest).take width)).map Prod.fst).getD Utf8.replacement)
          ⟨(lead :: rest).drop width, none⟩
      else .error .endOfInput ⟨[], none⟩ := by
  obtain ⟨more, hmore⟩ := Nat.exists_eq_add_one.mpr (Utf8.takenWidth_pos lead)
  have hlater := readBytes_eq more rest
  have hcount : (Utf8.announcedWidth? lead).getD 1 - 1 = more := by
    rw [← Utf8.takenWidth, hmore, Nat.add_sub_cancel]
  dsimp only
  rw [readChar, bind_of_ok (readByte_cons lead rest), hcount, hmore]
  by_cases henough : more ≤ rest.length
  · rw [if_pos henough] at hlater
    rw [bind_of_ok hlater, if_pos (Nat.succ_le_succ henough)]
    rfl
  · rw [if_neg henough] at hlater
    rw [bind_of_error hlater, if_neg (mt Nat.le_of_succ_le_succ henough)]

theorem readChar_of_short {lead : UInt8} {rest : List UInt8} (h : rest.length + 1 < Utf8.takenWidth lead) :
    readChar ⟨lead :: rest, none⟩ = .error .endOfInput ⟨[], none⟩ := by
  rw [readChar_cons]
  exact if_neg (Nat.not_le_of_lt h)

theorem readChar_encode_append (c : Char) (rest : List UInt8) :
    readChar ⟨String.utf8EncodeChar c ++ rest, none⟩ = .ok c ⟨rest, none⟩ := by
  have hread := Utf8.charAt?_encode_append c []
  obtain ⟨lead, tail, hencode, hencoding, _⟩ := Utf8.exists_encoding c
  rw [hencode, List.append_nil] at hread
  rw [hencode, List.cons_append, readChar_cons]
  dsimp only
  rw [hencoding.takenWidth, List.length_append, if_pos (by omega), List.take_succ_cons, List.take_left,
    List.drop_succ_cons, List.drop_left, hread]
  rfl

/-- Bytes in the announced number that encode no character are all taken. -/
theorem readChar_of_not_encoding {lead : UInt8} {rest : List UInt8}
    (henough : Utf8.takenWidth lead ≤ rest.length + 1)
    (hnone : ¬∃ c, String.utf8EncodeChar c = (lead :: rest).take (Utf8.takenWidth lead)) :
    readChar ⟨lead :: rest, none⟩ =
      .ok Utf8.replacement ⟨(lead :: rest).drop (Utf8.takenWidth lead), none⟩ := by
  rw [readChar_cons]
  dsimp only
  rw [if_pos henough]
  obtain ⟨more, hmore⟩ := Nat.exists_eq_add_one.mpr (Utf8.takenWidth_pos lead)
  rw [hmore, List.take_succ_cons] at hnone ⊢
  have hlength : (rest.take more).length + 1 = Utf8.takenWidth lead := by
    rw [List.length_take]
    omega
  obtain ⟨width, hread⟩ := Utf8.charAt?_of_not_encoding hlength hnone
  rw [hread]
  rfl

theorem readChar_eq_ok_iff {bytes rest : List UInt8} {c : Char} (hc : c ≠ Utf8.replacement) :
    readChar ⟨bytes, none⟩ = .ok c ⟨rest, none⟩ ↔ bytes = String.utf8EncodeChar c ++ rest := by
  constructor
  · intro hread
    cases bytes with
    | nil => cases hread
    | cons lead later =>
        by_cases henough : Utf8.takenWidth lead ≤ later.length + 1
        · by_cases hencoded : ∃ d, String.utf8EncodeChar d = (lead :: later).take (Utf8.takenWidth lead)
          · obtain ⟨d, hd⟩ := hencoded
            have hbytes := List.take_append_drop (Utf8.takenWidth lead) (lead :: later)
            rw [← hd] at hbytes
            rw [← hbytes, readChar_encode_append] at hread
            cases hread
            exact hbytes.symm
          · rw [readChar_of_not_encoding henough hencoded] at hread
            cases hread
            exact absurd rfl hc
        · rw [readChar_of_short (Nat.lt_of_not_le henough)] at hread
          cases hread
  · rintro rfl
    exact readChar_encode_append c rest

/-- Whatever stands at the front of the input, its first byte is taken. -/
theorem left_readChar_suffix (lead : UInt8) (rest : List UInt8) :
    ∃ later, left (readChar ⟨lead :: rest, none⟩) = ⟨later, none⟩ ∧ later <:+ rest := by
  obtain ⟨more, hmore⟩ := Nat.exists_eq_add_one.mpr (Utf8.takenWidth_pos lead)
  rw [readChar_cons]
  dsimp only
  split_ifs
  · refine ⟨_, rfl, ?_⟩
    rw [hmore, List.drop_succ_cons]
    exact List.drop_suffix more rest
  · exact ⟨_, rfl, List.nil_suffix⟩

/-- Readings of characters go through an encoded text one character at a time, and stay at its end. -/
theorem after_readChar (text : List Char) (count : Nat) :
    after readChar count ⟨Utf8.encode text, none⟩ = ⟨Utf8.encode (text.drop count), none⟩ := by
  induction count with
  | zero => rfl
  | succ count ih =>
      rw [after_succ, ih, ← List.drop_drop]
      cases text.drop count with
      | nil => rfl
      | cons c later =>
          rw [Utf8.encode_cons, readChar_encode_append]
          rfl

/-- **Reading characters is decoding.** A character other than the replacement character is returned just if its
encoding stands at the front of the input, and what stands behind it is left. Of a non-empty input as many bytes
are taken as the first of them announces, whether or not they turn out to be an encoding. So readings of an
encoded text return its characters in order, and then find the end of the input. -/
theorem readChar_exact :
    (∀ (bytes rest : List UInt8) (c : Char), c ≠ Utf8.replacement →
      (readChar ⟨bytes, none⟩ = .ok c ⟨rest, none⟩ ↔ bytes = String.utf8EncodeChar c ++ rest)) ∧
    (∀ (lead : UInt8) (width : Nat), Utf8.announcedWidth? lead = some width ↔
      ∃ c tail, String.utf8EncodeChar c = lead :: tail ∧ width = tail.length + 1) ∧
    (∀ (lead : UInt8) (rest : List UInt8),
      let width := (Utf8.announcedWidth? lead).getD 1
      (∃ later, left (readChar ⟨lead :: rest, none⟩) = ⟨later, none⟩ ∧ later <:+ rest) ∧
      ((lead :: rest).length < width → readChar ⟨lead :: rest, none⟩ = .error .endOfInput ⟨[], none⟩) ∧
      (width ≤ (lead :: rest).length → (¬∃ c, String.utf8EncodeChar c = (lead :: rest).take width) →
        readChar ⟨lead :: rest, none⟩ = .ok Utf8.replacement ⟨(lead :: rest).drop width, none⟩)) ∧
    ∀ text : List Char,
      (∀ index (h : index < text.length), readChar (after readChar index ⟨Utf8.encode text, none⟩) =
        .ok text[index] ⟨Utf8.encode (text.drop (index + 1)), none⟩) ∧
      ∀ index, text.length ≤ index →
        readChar (after readChar index ⟨Utf8.encode text, none⟩) = .error .endOfInput ⟨[], none⟩ := by
  refine ⟨fun bytes rest c hc => readChar_eq_ok_iff hc, fun lead width => Utf8.announcedWidth?_eq_some_iff, ?_, ?_⟩
  · intro lead rest width
    refine ⟨left_readChar_suffix lead rest, ?_, ?_⟩
    · intro hshort
      exact readChar_of_short hshort
    · intro henough hnone
      exact readChar_of_not_encoding henough hnone
  · intro text
    refine ⟨?_, ?_⟩
    · intro index hindex
      rw [after_readChar, List.drop_eq_getElem_cons hindex, Utf8.encode_cons, readChar_encode_append]
    · intro index hindex
      rw [after_readChar, List.drop_eq_nil_of_le hindex]
      rfl

/-- Bytes that would be an encoding longer than need be, one that breaks off, and a text with characters of all
widths. -/
theorem readChar_exact_widths :
    readChar ⟨[0xE0, 0x80, 0x80, 0x41], none⟩ = .ok Utf8.replacement ⟨[0x41], none⟩ ∧
    readChar ⟨[0xF0, 0x9F, 0x98], none⟩ = .error .endOfInput ⟨[], none⟩ ∧
    readChar ⟨[0xC3, 0xA9, 0x98], none⟩ = .ok 'é' ⟨[0x98], none⟩ ∧
    readChar (after readChar 3 ⟨Utf8.encode ['a', 'é', 'あ', '😀'], none⟩) = .ok '😀' ⟨[], none⟩ := by
  have hlong : ¬∃ c, String.utf8EncodeChar c = [0xE0, 0x80, 0x80] := by
    rintro ⟨c, hc⟩
    obtain ⟨lead, tail, hencode, hencoding, _⟩ := Utf8.exists_encoding c
    cases hc.symm.trans hencode
    cases hencoding with
    | three _ hsecond _ => exact absurd hsecond (by decide)
  obtain ⟨hchar, _, hcons, htext⟩ := readChar_exact
  refine ⟨?_, ?_, ?_, ?_⟩
  · exact (hcons 0xE0 [0x80, 0x80, 0x41]).2.2 (by decide) hlong
  · exact (hcons 0xF0 [0x9F, 0x98]).2.1 (by decide)
  · exact (hchar _ _ 'é' (by decide)).mpr rfl
  · exact (htext ['a', 'é', 'あ', '😀']).1 3 (by decide)

end Feed

end MarkMachine
