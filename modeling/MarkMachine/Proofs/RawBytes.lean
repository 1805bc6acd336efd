import MarkMachine.Command.Launch
import MarkMachine.Proofs.Encoding
import MarkMachine.Proofs.Spelling

/-! Marks in raw bytes. A program is read from bytes by way of the text that they hold, in which replacement
characters stand for whatever encodes nothing. That makes no difference to the marks: they are the ones
whose encoded spellings are found in the bytes themselves, at any offset. A spelling that is there is read,
because reading is in step at its first byte, which is no continuation byte. And what is read as a spelling
is there, because none has a replacement character in it. -/

namespace MarkMachine

namespace Mark

/-- The mark whose encoded spelling stands at the front of some bytes. -/
def inBytes? (bytes : List UInt8) : Option Mark :=
  all.find? fun mark => (Utf8.encode mark.spelling).isPrefixOf bytes

theorem replacement_notMem_spelling (mark : Mark) : Utf8.replacement ∉ mark.spelling := by
  cases mark <;> decide

theorem at?_eq_find? (text : List Char) : at? text = all.find? fun mark => mark.spelling.isPrefixOf text := by
  rw [at?, spelledAt?, Option.map_map]
  exact Option.map_id_apply

/-- The mark at the front of some bytes is the one at the front of their text. -/
theorem at?_decode (bytes : List UInt8) : at? (Utf8.decode bytes) = inBytes? bytes := by
  rw [at?_eq_find?, inBytes?]
  congr
  funext mark
  rw [Bool.eq_iff_iff, List.isPrefixOf_iff_prefix, List.isPrefixOf_iff_prefix]
  exact Utf8.prefix_decode_iff (replacement_notMem_spelling mark)

theorem inBytes?_eq_some_iff {bytes : List UInt8} {mark : Mark} :
    inBytes? bytes = some mark ↔ Utf8.encode mark.spelling <+: bytes := by
  rw [← at?_decode, at?_eq_some_iff]
  exact Utf8.prefix_decode_iff (replacement_notMem_spelling mark)

theorem head?_encode_spelling (mark : Mark) :
    ∃ byte, (Utf8.encode mark.spelling).head? = some byte ∧ Utf8.isContinuation byte = false := by
  cases mark <;> exact ⟨_, rfl, by decide⟩

/-- No mark begins with a continuation byte. -/
theorem inBytes?_of_isContinuation {byte : UInt8} (h : Utf8.isContinuation byte = true) (bytes : List UInt8) :
    inBytes? (byte :: bytes) = none := by
  rw [Option.eq_none_iff_forall_ne_some]
  intro mark hmark
  obtain ⟨rest, hrest⟩ := inBytes?_eq_some_iff.mp hmark
  obtain ⟨first, hfirst, hlead⟩ := head?_encode_spelling mark
  have hhead := congrArg List.head? hrest
  rw [List.head?_append, hfirst, List.head?_cons, Option.some_or, Option.some.injEq] at hhead
  rw [← hhead, hlead] at h
  cases h

end Mark

namespace Program

/-- Searching the text of some bytes finds the marks in the bytes. -/
theorem everywhere_decode (bytes : List UInt8) :
    Scan.everywhere Mark.at? (Utf8.decode bytes) = Scan.everywhere Mark.inBytes? bytes := by
  induction hlength : bytes.length using Nat.strongRecOn generalizing bytes with
  | ind length ih =>
      by_cases hbytes : bytes = []
      · rw [hbytes]
        rfl
      obtain ⟨c, width, hread⟩ := Utf8.charAt?_isSome hbytes
      obtain ⟨lead, tail, later, rfl, rfl, htail, _⟩ := Utf8.exists_of_charAt? hread
      have hdecode := Utf8.decode_eq_cons hread
      rw [List.drop_succ_cons, List.drop_left] at hdecode
      -- Behind its first byte nothing is found in what has been read at once.
      have hskip : Scan.everywhere Mark.inBytes? (tail ++ later) = Scan.everywhere Mark.inBytes? later := by
        rw [Scan.everywhere_drop tail.length, List.drop_left]
        intro offset hoffset
        rw [List.drop_append_of_le_length (Nat.le_of_lt hoffset), List.drop_eq_getElem_cons hoffset]
        exact Mark.inBytes?_of_isContinuation (htail _ (List.getElem_mem hoffset)) _
      simp only [List.length_cons, List.length_append] at hlength
      rw [Scan.everywhere_cons, hskip, ← ih later.length (by omega) later rfl, ← Mark.at?_decode, hdecode,
        Scan.everywhere_cons]

end Program

namespace Invocation

/-- The bytes that a command takes its program from. -/
def programBytes? (invocation : Invocation) (surroundings : Surroundings) : Option (List UInt8) :=
  match invocation.command.file? with
  | none => some surroundings.input
  | some file =>
      (surroundings.files file).or ((Device.ofPath? file).map fun device =>
        match device with
        | .null => []
        | .input => surroundings.input)

theorem source_eq (invocation : Invocation) (surroundings : Surroundings) :
    (invocation.source surroundings).toOption.map Prod.fst =
      (invocation.programBytes? surroundings).map fun bytes => String.ofList (Utf8.decode bytes) := by
  rw [source, programBytes?]
  cases invocation.command.file? with
  | none => rfl
  | some file =>
      dsimp only
      cases surroundings.files file with
      | some bytes => rfl
      | none =>
          cases Device.ofPath? file with
          | none => rfl
          | some device => cases device <;> rfl

end Invocation

/-- **Bytes that encode nothing are commentary.** The marks of the program that some bytes hold are those
whose encoded spellings stand in the bytes, offset by offset. At each offset there is at most one. So bytes
that encode no character neither hide a mark nor make one up. This is what every command finds that takes
its program from these bytes. -/
theorem Program.ofSource_decode :
    (∀ bytes : List UInt8,
      Program.ofSource (String.ofList (Utf8.decode bytes)) = Scan.everywhere Mark.inBytes? bytes) ∧
    (∀ (bytes : List UInt8) (mark : Mark),
      Mark.inBytes? bytes = some mark ↔ Utf8.encode mark.spelling <+: bytes) ∧
    ∀ (invocation : Invocation) (surroundings : Surroundings),
      (invocation.source surroundings).toOption.map (fun source => Program.ofSource source.1) =
        (invocation.programBytes? surroundings).map (Scan.everywhere Mark.inBytes?) := by
  have hdecode : ∀ bytes : List UInt8,
      Program.ofSource (String.ofList (Utf8.decode bytes)) = Scan.everywhere Mark.inBytes? bytes := by
    intro bytes
    rw [Program.ofSource, String.toList_ofList, Program.ofChars_eq_everywhere, Program.everywhere_decode]
  refine ⟨hdecode, fun bytes mark => Mark.inBytes?_eq_some_iff, fun invocation surroundings => ?_⟩
  have hsource := congrArg (Option.map Program.ofSource) (invocation.source_eq surroundings)
  rw [Option.map_map, Option.map_map] at hsource
  rw [← funext hdecode]
  exact hsource

/-- A mark that stands between the halves of a broken encoding, and another behind a byte that begins
none. -/
example : Program.ofSource (String.ofList (Utf8.decode
    [0xE4, 0xBE, 0x0A, 0xBF, 0xE5, 0x88, 0xFF, 0xE4, 0xBE, 0xBF, 0xE5, 0x88, 0xA9, 0xE3])) = [.line, .space] := by
  decide +kernel

end MarkMachine
