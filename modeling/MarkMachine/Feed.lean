import MarkMachine.Fault
import MarkMachine.Text.Utf8

/-! The input of a machine: bytes, read from the front one at a time. A feed can break after some
number of bytes, and then even a look at it fails. What has been read before a failure stays read. -/

namespace MarkMachine

/-- Input bytes yet to be read. -/
structure Feed where
  bytes : List UInt8
  /-- How many more bytes can be read before the feed breaks, if it does. -/
  sound : Option Nat := none
  deriving DecidableEq, Repr

namespace Feed

/-- Reading that can fail and keeps what it has read. -/
abbrev Reader := EStateM DeviceFault Feed

/-- The next byte, left in place. -/
def peek : Reader (Option UInt8) := fun feed =>
  if feed.sound = some 0 then .error .sourceBroken feed else .ok feed.bytes.head? feed

/-- The feed without its next byte. -/
def rest (feed : Feed) : Feed :=
  { bytes := feed.bytes.tail, sound := feed.sound.map (· - 1) }

def readByte : Reader UInt8 := do
  match ← peek with
  | some byte =>
      modify rest
      return byte
  | none => throw .endOfInput

def readBytes : Nat → Reader (List UInt8)
  | 0 => return []
  | count + 1 => do
      let byte ← readByte
      let bytes ← readBytes count
      return byte :: bytes

/-- Takes one character. The first byte says how many bytes belong to it, and so many are taken even
if they turn out to encode none. -/
def readChar : Reader Char := do
  let lead ← readByte
  let bytes ← readBytes ((Utf8.announcedWidth? lead).getD 1 - 1)
  return ((Utf8.charAt? (lead :: bytes)).map Prod.fst).getD Utf8.replacement

/-- The bytes that set words apart. -/
def isBlank (byte : UInt8) : Bool :=
  byte = 0x20 || byte = 0x09 || byte = 0x0A || byte = 0x0C || byte = 0x0D

/-- Takes the bytes at the front that satisfy `p`. Each byte is looked at before it is taken, and so is
the one behind the last. -/
def takeWhile (p : UInt8 → Bool) :
    List UInt8 → Option Nat → EStateM.Result DeviceFault Feed (List UInt8)
  | bytes, some 0 => .error .sourceBroken ⟨bytes, some 0⟩
  | [], sound => .ok [] ⟨[], sound⟩
  | byte :: later, sound =>
      if p byte then
        match takeWhile p later (sound.map (· - 1)) with
        | .ok word feed => .ok (byte :: word) feed
        | .error fault feed => .error fault feed
      else .ok [] ⟨byte :: later, sound⟩

def readWhile (p : UInt8 → Bool) : Reader (List UInt8) := fun feed =>
  takeWhile p feed.bytes feed.sound

/-- Takes one number: blanks, then the word up to the next blank, which stays. -/
def readNumber : Reader Int64 := do
  let _ ← readWhile isBlank
  let word ← readWhile fun byte => !isBlank byte
  if word.isEmpty then throw .endOfInput
  match Decimal.read (Utf8.decode word) with
  | .ok number => return number
  | .error reason => throw (.notANumber (Utf8.decode word) reason)

end Feed

end MarkMachine
