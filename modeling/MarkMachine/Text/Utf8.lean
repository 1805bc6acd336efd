import MarkMachine.Scan

/-! Characters in bytes. Bytes that encode no character are read as the replacement character, one for
each longest run of bytes that could have begun an encoding; a byte that can begin none stands for
one replacement character by itself. -/

namespace MarkMachine.Utf8

/-- What is read where the bytes encode no character. -/
def replacement : Char := '�'

/-- How many bytes an encoding has that begins with this one, if any does. -/
def announcedWidth? (lead : UInt8) : Option Nat :=
  if lead ≤ 0x7F then some 1
  else if 0xC2 ≤ lead ∧ lead ≤ 0xDF then some 2
  else if 0xE0 ≤ lead ∧ lead ≤ 0xEF then some 3
  else if 0xF0 ≤ lead ∧ lead ≤ 0xF4 then some 4
  else none

/-- Whether a byte can stand after the first of an encoding. -/
def isContinuation (byte : UInt8) : Bool :=
  0x80 ≤ byte && byte ≤ 0xBF

/-- Whether `second` can follow `lead`. The bounds leave out encodings longer than need be, surrogates
and code points past the last. -/
def isSecond (lead second : UInt8) : Bool :=
  if lead = 0xE0 then 0xA0 ≤ second && second ≤ 0xBF
  else if lead = 0xED then 0x80 ≤ second && second ≤ 0x9F
  else if lead = 0xF0 then 0x90 ≤ second && second ≤ 0xBF
  else if lead = 0xF4 then 0x80 ≤ second && second ≤ 0x8F
  else isContinuation second

/-- How many of the bytes after `lead` can belong to an encoding begun by it. -/
def continued (lead : UInt8) : List UInt8 → Nat
  | [] => 0
  | second :: rest =>
      if isSecond lead second then 1 + (rest.takeWhile isContinuation).length else 0

/-- The code point of a first byte and the bytes after it, six bits for each of those. -/
def codePoint (lead : UInt8) (rest : List UInt8) : Nat :=
  rest.foldl (fun high byte => high * 64 + byte.toNat % 64)
    (lead.toNat % (1 <<< if rest.isEmpty then 7 else 6 - rest.length))

/-- The character at the front of some bytes and how many of them it takes. -/
def charAt? : List UInt8 → Option (Char × Nat)
  | [] => none
  | lead :: rest =>
      match announcedWidth? lead with
      | none => some (replacement, 1)
      | some width =>
          let tail := rest.take (width - 1)
          let good := continued lead tail
          if good = width - 1 then some (Char.ofNat (codePoint lead tail), width)
          else some (replacement, good + 1)

def decode (bytes : List UInt8) : List Char :=
  Scan.items charAt? bytes

def encode (text : List Char) : List UInt8 :=
  text.flatMap String.utf8EncodeChar

/-- The text that some bytes encode, if all of them belong to a character. -/
def strict? (bytes : List UInt8) : Option (List Char) :=
  if encode (decode bytes) = bytes then some (decode bytes) else none

end MarkMachine.Utf8
