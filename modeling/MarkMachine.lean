import MarkMachine.Command.Launch
import MarkMachine.Json.Reader
import MarkMachine.Main
import MarkMachine.Proofs.Grammar
import MarkMachine.Proofs.Walk
import MarkMachine.Proofs.Disassembly
import MarkMachine.Proofs.Concatenation
import MarkMachine.Proofs.Course
import MarkMachine.Proofs.Stall
import MarkMachine.Proofs.Pairing
import MarkMachine.Proofs.Places
import MarkMachine.Proofs.Lockstep
import MarkMachine.Proofs.History
import MarkMachine.Proofs.Returns
import MarkMachine.Proofs.Forward
import MarkMachine.Proofs.Devices
import MarkMachine.Proofs.Limit
import MarkMachine.Proofs.Unread
import MarkMachine.Proofs.Encoding
import MarkMachine.Proofs.RawBytes
import MarkMachine.Proofs.Insertion
import MarkMachine.Proofs.Flushing
import MarkMachine.Proofs.Cells
import MarkMachine.Proofs.Decoding
import MarkMachine.Proofs.Tables
import MarkMachine.Proofs.Numbers
import MarkMachine.Proofs.Failure
import MarkMachine.Proofs.Targets
import MarkMachine.Proofs.Circling
import MarkMachine.Proofs.Trace
import MarkMachine.Proofs.JsonText
import MarkMachine.Proofs.Codec
import MarkMachine.Proofs.Arithmetic
import MarkMachine.Proofs.Characters
import MarkMachine.Proofs.Decimal
import MarkMachine.Proofs.Words
import MarkMachine.Proofs.Occurrences
import MarkMachine.Proofs.ListingText
