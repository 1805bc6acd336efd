/-! Files by path. A path is a row of names with slashes between them, of which an empty name and a single dot
lead nowhere. A path can also lead to a device, which can be read but is no file. -/

namespace MarkMachine

/-- What can be read: the content of the file at a path. -/
abbrev Files := String → Option (List UInt8)

namespace Path

def names (path : String) : List (List Char) :=
  path.toList.splitOn '/'

/-- Whether a name leads nowhere. -/
def isIdle (name : List Char) : Bool :=
  name = [] || name = ['.']

/-- The path with `ending` put right behind the name it ends with. There is none for a path that ends
in two dots or has no name in it. -/
def extended? (path ending : String) : Option String :=
  match (names path).reverse.dropWhile isIdle with
  | [] => none
  | last :: before =>
      if last = ['.', '.'] then none
      else some (String.ofList (['/'].intercalate (last :: before).reverse) ++ ending)

end Path

/-- What can be read without being a file. -/
inductive Device where
  /-- The device in which there is nothing. -/
  | null
  /-- The standard input. -/
  | input
  deriving DecidableEq, Repr

namespace Device

def places : List (List String × Device) :=
  [(["dev", "null"], .null), (["dev", "stdin"], .input), (["dev", "fd", "0"], .input),
    (["proc", "self", "fd", "0"], .input)]

/-- The device that a path from the root leads to. -/
def ofPath? (path : String) : Option Device :=
  let names := Path.names path
  if path.startsWith "/" && !(names.getLast?.any Path.isIdle) then
    places.lookup ((names.filter (!Path.isIdle ·)).map String.ofList)
  else none

end Device

end MarkMachine
