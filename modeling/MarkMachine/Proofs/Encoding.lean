import Mathlib.Data.List.Basic
import Mathlib.Data.List.TakeWhile
import Mathlib.Tactic.SplitIfs
import MarkMachine.Text.Utf8

/-! Encodings of characters. What is read at the front of some bytes is a character just if an encoding of
it stands there, and it then takes that encoding. All bytes that are read at once, whether they encode a
character or not, are continuation bytes but for the first. So reading gets in step with any encoded text
at its first byte, whatever stands before it. -/

namespace MarkMachine.Utf8

theorem announcedWidth?_eq (lead : UInt8) :
    announcedWidth? lead =
      if lead.toNat ≤ 0x7F then some 1
      else if 0xC2 ≤ lead.toNat ∧ lead.toNat ≤ 0xDF then some 2
      else if 0xE0 ≤ lead.toNat ∧ lead.toNat ≤ 0xEF then some 3
      else if 0xF0 ≤ lead.toNat ∧ lead.toNat ≤ 0xF4 then some 4
      else none := by
  simp only [announcedWidth?, UInt8.le_iff_toNat_le]
  rfl

theorem isContinuation_iff {byte : UInt8} :
    isContinuation byte = true ↔ 0x80 ≤ byte.toNat ∧ byte.toNat ≤ 0xBF := by
  simp [isContinuation, UInt8.le_iff_toNat_le]

theorem isSecond_iff {lead second : UInt8} :
    isSecond lead second = true ↔ (0x80 ≤ second.toNat ∧ second.toNat ≤ 0xBF) ∧
      (lead.toNat = 0xE0 → 0xA0 ≤ second.toNat) ∧ (lead.toNat = 0xED → second.toNat ≤ 0x9F) ∧
      (lead.toNat = 0xF0 → 0x90 ≤ second.toNat) ∧ (lead.toNat = 0xF4 → second.toNat ≤ 0x8F) := by
  simp only [isSecond, ← UInt8.toNat_inj]
  split_ifs <;> simp_all [isContinuation_iff, UInt8.le_iff_toNat_le] <;> omega

theorem isContinuation_of_isSecond {lead second : UInt8} (h : isSecond lead second = true) :
    isContinuation second = true :=
  isContinuation_iff.mpr (isSecond_iff.mp h).1

theorem continued_le_length (lead : UInt8) (rest : List UInt8) : continued lead rest ≤ rest.length := by
  cases rest with
  | nil => exact Nat.le_refl 0
  | cons second rest =>
      have htake := (List.takeWhile_prefix isContinuation (l := rest)).length_le
      simp only [continued, List.length_cons]
      split_ifs <;> omega

/-- The bytes that can belong to an encoding are continuation bytes. -/
theorem isContinuation_of_continued {lead : UInt8} {rest : List UInt8} {byte : UInt8}
    (h : byte ∈ rest.take (continued lead rest)) : isContinuation byte = true := by
  cases rest with
  | nil => simp [continued] at h
  | cons second rest =>
      by_cases hsecond : isSecond lead second = true
      · have htake : rest.take (rest.takeWhile isContinuation).length = rest.takeWhile isContinuation :=
          (List.prefix_iff_eq_take.mp (List.takeWhile_prefix _)).symm
        rw [continued, if_pos hsecond, Nat.add_comm, List.take_succ_cons, htake, List.mem_cons] at h
        rcases h with rfl | h
        · exact isContinuation_of_isSecond hsecond
        · exact List.mem_takeWhile_imp h
      · simp [continued, hsecond] at h

theorem continued_eq_length_iff {lead second : UInt8} {rest : List UInt8} :
    continued lead (second :: rest) = (second :: rest).length ↔
      isSecond lead second = true ∧ ∀ byte ∈ rest, isContinuation byte = true := by
  have hall : (rest.takeWhile isContinuation).length = rest.length ↔
      ∀ byte ∈ rest, isContinuation byte = true := by
    rw [← List.takeWhile_eq_self_iff]
    exact ⟨(List.takeWhile_prefix _).eq_of_length, congrArg List.length⟩
  rw [← hall, continued, List.length_cons]
  split_ifs with hsecond
  · simp only [hsecond, true_and]
    omega
  · simp [hsecond]

/-- The bytes of an encoding: the first one and those after it. -/
inductive Encoding (lead : UInt8) : List UInt8 → Prop
  | one (hlead : lead.toNat ≤ 0x7F) : Encoding lead []
  | two {second : UInt8} (hlead : 0xC2 ≤ lead.toNat ∧ lead.toNat ≤ 0xDF)
      (hsecond : isSecond lead second = true) : Encoding lead [second]
  | three {second third : UInt8} (hlead : 0xE0 ≤ lead.toNat ∧ lead.toNat ≤ 0xEF)
      (hsecond : isSecond lead second = true) (hthird : isContinuation third = true) :
      Encoding lead [second, third]
  | four {second third fourth : UInt8} (hlead : 0xF0 ≤ lead.toNat ∧ lead.toNat ≤ 0xF4)
      (hsecond : isSecond lead second = true) (hthird : isContinuation third = true)
      (hfourth : isContinuation fourth = true) : Encoding lead [second, third, fourth]

theorem Encoding.announced {lead : UInt8} {tail : List UInt8} (h : Encoding lead tail) :
    announcedWidth? lead = some (tail.length + 1) ∧ continued lead tail = tail.length := by
  rw [announcedWidth?_eq]
  cases h with
  | one hlead => simp [hlead, continued]
  | two hlead hsecond =>
      rw [if_neg (by omega), if_pos hlead, continued_eq_length_iff]
      simp [hsecond]
  | three hlead hsecond hthird =>
      rw [if_neg (by omega), if_neg (by omega), if_pos hlead, continued_eq_length_iff]
      simp [hsecond, hthird]
  | four hlead hsecond hthird hfourth =>
      rw [if_neg (by omega), if_neg (by omega), if_neg (by omega), if_pos hlead, continued_eq_length_iff]
      simp [hsecond, hthird, hfourth]

theorem encoding_of_announced {lead : UInt8} {tail : List UInt8}
    (hwidth : announcedWidth? lead = some (tail.length + 1)) (htail : continued lead tail = tail.length) :
    Encoding lead tail := by
  rw [announcedWidth?_eq] at hwidth
  split_ifs at hwidth with hone htwo hthree hfour
  all_goals simp only [Option.some.injEq] at hwidth
  · obtain rfl : tail = [] := List.length_eq_zero_iff.mp (by omega)
    exact .one hone
  · obtain ⟨second, rfl⟩ := List.length_eq_one_iff.mp (show tail.length = 1 by omega)
    simp only [continued_eq_length_iff] at htail
    exact .two htwo htail.1
  · obtain ⟨second, third, rfl⟩ := List.length_eq_two.mp (show tail.length = 2 by omega)
    simp only [continued_eq_length_iff, List.mem_singleton, forall_eq] at htail
    exact .three hthree htail.1 htail.2
  · obtain ⟨second, third, fourth, rfl⟩ := List.length_eq_three.mp (show tail.length = 3 by omega)
    simp only [continued_eq_length_iff, List.mem_cons, List.not_mem_nil, or_false, forall_eq_or_imp,
      forall_eq] at htail
    exact .four hfour htail.1 htail.2.1 htail.2.2

/-! ### Code points -/

theorem codePoint_one (lead : UInt8) : codePoint lead [] = lead.toNat % 128 := rfl

theorem codePoint_two (lead second : UInt8) :
    codePoint lead [second] = lead.toNat % 32 * 64 + second.toNat % 64 := rfl

theorem codePoint_three (lead second third : UInt8) :
    codePoint lead [second, third] =
      (lead.toNat % 16 * 64 + second.toNat % 64) * 64 + third.toNat % 64 := rfl

theorem codePoint_four (lead second third fourth : UInt8) :
    codePoint lead [second, third, fourth] =
      ((lead.toNat % 8 * 64 + second.toNat % 64) * 64 + third.toNat % 64) * 64 + fourth.toNat % 64 := rfl

/-- No encoding stands for a surrogate or for a number past the last code point. -/
theorem Encoding.isValidChar {lead : UInt8} {tail : List UInt8} (h : Encoding lead tail) :
    (codePoint lead tail).isValidChar := by
  rw [Nat.isValidChar]
  cases h with
  | one hlead =>
      rw [codePoint_one]
      omega
  | two hlead hsecond =>
      rw [codePoint_two]
      omega
  | three hlead hsecond hthird =>
      rw [isSecond_iff] at hsecond
      rw [isContinuation_iff] at hthird
      rw [codePoint_three]
      omega
  | four hlead hsecond hthird hfourth =>
      rw [isSecond_iff] at hsecond
      rw [isContinuation_iff] at hthird hfourth
      rw [codePoint_four]
      omega

theorem toNat_ofNat_of_isValidChar {n : Nat} (h : n.isValidChar) : (Char.ofNat n).toNat = n := by
  rw [Char.ofNat, dif_pos h]
  rfl

theorem ofNat_eq_of_toNat (byte : UInt8) {n : Nat} (h : n = byte.toNat) : UInt8.ofNat n = byte := by
  rw [h, UInt8.ofNat_toNat]

/-- An encoding is the one of the character that it stands for. -/
theorem Encoding.utf8EncodeChar_codePoint {lead : UInt8} {tail : List UInt8} (h : Encoding lead tail) :
    String.utf8EncodeChar (Char.ofNat (codePoint lead tail)) = lead :: tail := by
  simp only [String.utf8EncodeChar, Char.toNat_val, toNat_ofNat_of_isValidChar h.isValidChar]
  cases h with
  | one hlead =>
      rw [codePoint_one, if_pos (by omega)]
      rw [ofNat_eq_of_toNat lead (by omega)]
  | @two second hlead hsecond =>
      rw [isSecond_iff] at hsecond
      rw [codePoint_two, if_neg (by omega), if_pos (by omega)]
      rw [ofNat_eq_of_toNat lead (by omega), ofNat_eq_of_toNat second (by omega)]
  | @three second third hlead hsecond hthird =>
      rw [isSecond_iff] at hsecond
      rw [isContinuation_iff] at hthird
      rw [codePoint_three, if_neg (by omega), if_neg (by omega), if_pos (by omega)]
      rw [ofNat_eq_of_toNat lead (by omega), ofNat_eq_of_toNat second (by omega),
        ofNat_eq_of_toNat third (by omega)]
  | @four second third fourth hlead hsecond hthird hfourth =>
      rw [isSecond_iff] at hsecond
      rw [isContinuation_iff] at hthird hfourth
      rw [codePoint_four, if_neg (by omega), if_neg (by omega), if_neg (by omega)]
      rw [ofNat_eq_of_toNat lead (by omega), ofNat_eq_of_toNat second (by omega),
        ofNat_eq_of_toNat third (by omega), ofNat_eq_of_toNat fourth (by omega)]

theorem exists_encoding (c : Char) :
    ∃ lead tail, String.utf8EncodeChar c = lead :: tail ∧ Encoding lead tail ∧ codePoint lead tail = c.toNat := by
  have hvalid : c.toNat.isValidChar := c.valid
  rw [Nat.isValidChar] at hvalid
  simp only [String.utf8EncodeChar, Char.toNat_val]
  split_ifs with hone htwo hthree
  · refine ⟨_, _, rfl, .one ?_, ?_⟩
    · simp; omega
    · simp [codePoint_one]; omega
  · refine ⟨_, _, rfl, .two ?_ ?_, ?_⟩
    · simp; omega
    · simp [isSecond_iff]; omega
    · simp [codePoint_two]; omega
  · refine ⟨_, _, rfl, .three ?_ ?_ ?_, ?_⟩
    · simp; omega
    · simp [isSecond_iff]; omega
    · simp [isContinuation_iff]; omega
    · simp [codePoint_three]; omega
  · refine ⟨_, _, rfl, .four ?_ ?_ ?_ ?_, ?_⟩
    · simp; omega
    · simp [isSecond_iff]; omega
    · simp [isContinuation_iff]; omega
    · simp [isContinuation_iff]; omega
    · simp [codePoint_four]; omega

/-! ### Reading characters -/

theorem announcedWidth?_pos {lead : UInt8} {width : Nat} (h : announcedWidth? lead = some width) :
    0 < width := by
  rw [announcedWidth?] at h
  split_ifs at h <;> cases h <;> decide

/-- What is read takes the first byte and then only continuation bytes. Unless it is the replacement
character, these bytes are its encoding. -/
theorem exists_of_charAt? {bytes : List UInt8} {c : Char} {width : Nat} (h : charAt? bytes = some (c, width)) :
    ∃ lead tail later, bytes = lead :: (tail ++ later) ∧ width = tail.length + 1 ∧
      (∀ byte ∈ tail, isContinuation byte = true) ∧
      (c = replacement ∨ Encoding lead tail ∧ c = Char.ofNat (codePoint lead tail)) := by
  cases bytes with
  | nil => cases h
  | cons lead rest =>
      rw [charAt?] at h
      cases hannounced : announcedWidth? lead with
      | none =>
          rw [hannounced] at h
          cases h
          exact ⟨lead, [], rest, rfl, rfl, nofun, .inl rfl⟩
      | some announced =>
          simp only [hannounced] at h
          have hpos := announcedWidth?_pos hannounced
          generalize htail : rest.take (announced - 1) = tail at h
          have hrest : rest = tail ++ rest.drop (announced - 1) := by
            rw [← htail, List.take_append_drop]
          have hle := continued_le_length lead tail
          split_ifs at h with hgood
          · -- All bytes that the first one announces are there.
            have hlength : tail.length = announced - 1 := by
              have htake := List.length_take_le (announced - 1) rest
              rw [htail] at htake
              omega
            simp only [Option.some.injEq, Prod.mk.injEq] at h
            obtain ⟨rfl, rfl⟩ := h
            have hwidth : announced = tail.length + 1 := by omega
            refine ⟨lead, tail, rest.drop (announced - 1), by rw [← hrest], hwidth, ?_, .inr ⟨?_, rfl⟩⟩
            · intro byte hbyte
              have hmem : byte ∈ tail.take (continued lead tail) := by
                rwa [hgood, ← hlength, List.take_length]
              exact isContinuation_of_continued hmem
            · rw [hwidth] at hannounced
              exact encoding_of_announced hannounced (hgood.trans hlength.symm)
          · cases h
            refine ⟨lead, tail.take (continued lead tail),
              tail.drop (continued lead tail) ++ rest.drop (announced - 1), ?_, ?_, ?_, .inl rfl⟩
            · rw [← List.append_assoc, List.take_append_drop, ← hrest]
            · rw [List.length_take, Nat.min_eq_left hle]
            · exact fun byte => isContinuation_of_continued

theorem charAt?_encode_append (c : Char) (rest : List UInt8) :
    charAt? (String.utf8EncodeChar c ++ rest) = some (c, (String.utf8EncodeChar c).length) := by
  obtain ⟨lead, tail, hencode, hencoding, hcode⟩ := exists_encoding c
  obtain ⟨hwidth, htail⟩ := hencoding.announced
  rw [hencode, List.cons_append, charAt?, hwidth]
  simp [htail, hcode]

theorem eq_encode_append_of_charAt? {bytes : List UInt8} {c : Char} {width : Nat}
    (h : charAt? bytes = some (c, width)) (hc : c ≠ replacement) :
    bytes = String.utf8EncodeChar c ++ bytes.drop width := by
  obtain ⟨lead, tail, later, rfl, rfl, _, hchar⟩ := exists_of_charAt? h
  obtain ⟨hencoding, rfl⟩ := hchar.resolve_left hc
  simp [hencoding.utf8EncodeChar_codePoint]

theorem charAt?_isSome {bytes : List UInt8} (h : bytes ≠ []) : ∃ c width, charAt? bytes = some (c, width) := by
  cases bytes with
  | nil => exact absurd rfl h
  | cons lead rest =>
      rw [charAt?]
      cases announcedWidth? lead with
      | none => exact ⟨_, _, rfl⟩
      | some announced =>
          dsimp only
          split_ifs <;> exact ⟨_, _, rfl⟩

theorem decode_nil : decode [] = [] := rfl

theorem decode_eq_cons {bytes : List UInt8} {c : Char} {width : Nat} (h : charAt? bytes = some (c, width)) :
    decode bytes = c :: decode (bytes.drop width) := by
  obtain ⟨lead, tail, later, rfl, rfl, _⟩ := exists_of_charAt? h
  exact Scan.items_of_read_eq_some h (by simp) (Nat.succ_pos _)

theorem encode_cons (c : Char) (text : List Char) :
    encode (c :: text) = String.utf8EncodeChar c ++ encode text :=
  List.flatMap_cons

theorem decode_encode_append (text : List Char) (rest : List UInt8) :
    decode (encode text ++ rest) = text ++ decode rest := by
  induction text with
  | nil => rfl
  | cons c text ih =>
      rw [encode_cons, List.append_assoc, decode_eq_cons (charAt?_encode_append c _), List.drop_left, ih,
        List.cons_append]

theorem eq_nil_of_decode_eq_nil {bytes : List UInt8} (h : decode bytes = []) : bytes = [] := by
  by_contra hbytes
  obtain ⟨c, width, hread⟩ := charAt?_isSome hbytes
  rw [decode_eq_cons hread] at h
  cases h

/-- A text without replacement characters is read at the front of some bytes just if its encoding stands
there. -/
theorem prefix_decode_iff {text : List Char} (h : replacement ∉ text) {bytes : List UInt8} :
    text <+: decode bytes ↔ encode text <+: bytes := by
  induction text generalizing bytes with
  | nil => simp [encode]
  | cons c text ih =>
      rw [List.mem_cons, not_or] at h
      rw [encode_cons]
      constructor
      · intro hprefix
        have hbytes : bytes ≠ [] := by
          rintro rfl
          simp [decode_nil] at hprefix
        obtain ⟨d, width, hread⟩ := charAt?_isSome hbytes
        rw [decode_eq_cons hread, List.cons_prefix_cons] at hprefix
        obtain ⟨rfl, hprefix⟩ := hprefix
        rw [eq_encode_append_of_charAt? hread (Ne.symm h.1), List.prefix_append_right_inj]
        exact (ih h.2).mp hprefix
      · rintro ⟨rest, rfl⟩
        rw [List.append_assoc, decode_eq_cons (charAt?_encode_append c _), List.drop_left,
          List.cons_prefix_cons]
        exact ⟨rfl, (ih h.2).mpr (List.prefix_append _ _)⟩

/-- A text without replacement characters is what its encoding holds, and nothing else does. -/
theorem decode_eq_iff {text : List Char} (h : replacement ∉ text) {bytes : List UInt8} :
    decode bytes = text ↔ bytes = encode text := by
  constructor
  · rintro rfl
    obtain ⟨rest, hrest⟩ := (prefix_decode_iff h).mp (List.prefix_refl (decode bytes))
    have hdecode := decode_encode_append (decode bytes) rest
    rw [hrest] at hdecode
    have hnil : rest = [] := eq_nil_of_decode_eq_nil (List.self_eq_append_right.mp hdecode)
    rw [hnil, List.append_nil] at hrest
    exact hrest.symm
  · rintro rfl
    have hdecode := decode_encode_append text []
    rwa [List.append_nil, decode_nil, List.append_nil] at hdecode

end MarkMachine.Utf8
