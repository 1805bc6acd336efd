import MarkMachine.Fault

/-! The output of a machine. Bytes are offered to it one at a time and it may refuse any of them; it may
also refuse to flush. What was written before a refusal stays written. -/

namespace MarkMachine

/-- An output and how it will behave. -/
structure Sink where
  /-- The bytes it has taken. -/
  written : Array UInt8 := #[]
  /-- How many bytes have been offered to it. -/
  offered : Nat := 0
  /-- How many flushes have been tried. -/
  flushes : Nat := 0
  /-- How many of the bytes taken last have not been flushed. -/
  pending : Nat := 0
  /-- Whether it refuses the byte offered after so many others. -/
  refusesByte : Nat → Bool := fun _ => false
  /-- Whether it refuses the flush tried after so many others. -/
  refusesFlush : Nat → Bool := fun _ => false

namespace Sink

/-- Writing that can fail and keeps what it has written. -/
abbrev Writer := EStateM DeviceFault Sink

/-- A sink that takes a number of bytes in all and grants a number of flushes, or any number. -/
def limited (bytes flushes : Option Nat) : Sink where
  refusesByte offered := bytes.any (· ≤ offered)
  refusesFlush tried := flushes.any (· ≤ tried)

def writeByte (byte : UInt8) : Writer Unit := fun sink =>
  if sink.refusesByte sink.offered then
    .error .sinkFull { sink with offered := sink.offered + 1 }
  else
    .ok () { sink with
      written := sink.written.push byte, offered := sink.offered + 1, pending := sink.pending + 1 }

/-- Offers bytes until one is refused. -/
def write : List UInt8 → Writer Unit
  | [] => return ()
  | byte :: rest => do
      writeByte byte
      write rest

def flush : Writer Unit := fun sink =>
  if sink.refusesFlush sink.flushes then
    .error .flushRefused { sink with flushes := sink.flushes + 1 }
  else
    .ok () { sink with flushes := sink.flushes + 1, pending := 0 }

end Sink

end MarkMachine
