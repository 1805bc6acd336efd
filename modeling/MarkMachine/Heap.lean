import Std.Data.TreeMap.Basic
import MarkMachine.Value

/-! The heap: a value for every address, unset where nothing has been stored. -/

namespace MarkMachine

/-- The cells that have been stored to. -/
abbrev Heap := Std.TreeMap Int64 Value

namespace Heap

def load (heap : Heap) (address : Int64) : Value :=
  heap.getD address .unset

def store (heap : Heap) (address : Int64) (value : Value) : Heap :=
  heap.insert address value

end Heap

end MarkMachine
