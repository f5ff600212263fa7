-- Files and directories by their paths, as far as commands see them.

namespace WireSchema

/-- The names on the way to a file or directory, from the root or from another directory. -/
abbrev Names := List String

/-- Files with their texts, and directories that were made. The directories on the way to
these and to the working directory are there too. -/
structure Disk where
  /-- The working directory. -/
  here : Names
  files : List (Names × String)
  dirs : List Names

namespace Disk

/-! ## Paths -/

/-- The names between the slashes of a path, empty ones too. -/
def names (path : String) : Names := (path.toList.splitOn '/').map String.ofList

/-- A name that leads nowhere: the empty one, and the point. -/
def isIdle (name : String) : Bool := name == "" || name == "."

/-- The name of the directory above. -/
def above : String := ".."

/-- The longest path, in bytes. -/
def maxPath : Nat := 4095

/-- The longest name, in bytes. -/
def maxName : Nat := 255

/-- A path that can be looked up. -/
def isUsable (path : String) : Bool :=
  path != "" && path.utf8ByteSize ≤ maxPath && !path.toList.contains '\x00' &&
    (names path).all (·.utf8ByteSize ≤ maxName)

/-- The file that the package of a document is written to. -/
def outputPath (dir package extension : String) : String :=
  let name := package ++ "." ++ extension
  if name.toList.head? == some '/' || dir.isEmpty then name
  else if dir.toList.getLast? == some '/' then dir ++ name
  else dir ++ "/" ++ name

/-! ## Places -/

/-- A file is there. -/
def isFile (disk : Disk) (place : Names) : Bool := disk.files.any (·.1 == place)

/-- A directory is there. -/
def isDir (disk : Disk) (place : Names) : Bool :=
  place.isPrefixOf disk.here || disk.dirs.any (place.isPrefixOf ·) ||
    disk.files.any fun f => place.isPrefixOf f.1 && f.1 != place

/-- The directory that names lead to from a directory. -/
def walk? (disk : Disk) : (dir : Names) → Names → Option Names
  | dir, [] => some dir
  | dir, name :: rest =>
    if isIdle name then disk.walk? dir rest
    else if name == above then disk.walk? dir.dropLast rest
    else if disk.isDir (dir ++ [name]) then disk.walk? (dir ++ [name]) rest
    else none

/-- The place that names lead to from a directory. There may be nothing at the last name, but
all before it are directories. -/
def reach? (disk : Disk) (dir : Names) (ns : Names) : Option Names :=
  match ns.getLast? with
  | none => some dir
  | some last =>
    if isIdle last || last == above then disk.walk? dir ns
    else (disk.walk? dir ns.dropLast).map (· ++ [last])

/-- The directory that a path starts from. -/
def start (disk : Disk) (path : String) : Names :=
  if path.toList.head? == some '/' then [] else disk.here

/-- The place of a path. -/
def find? (disk : Disk) (path : String) : Option Names :=
  if isUsable path then disk.reach? (disk.start path) (names path) else none

/-! ## Reading and writing -/

/-- A disk with texts at paths from its working directory. -/
def ofFiles (here : Names) (files : List (String × String)) : Disk :=
  ⟨here, files.map fun f => (here ++ (names f.1).filter (!isIdle ·), f.2), []⟩

/-- The files in the working directory, by their paths from there. -/
def listing (disk : Disk) : List (String × String) :=
  disk.files.filterMap fun f =>
    (disk.here.isPrefixOf? f.1).map fun rest => ("/".intercalate rest, f.2)

/-- The text of a file. -/
def read? (disk : Disk) (path : String) : Option String :=
  (disk.find? path).bind fun place => disk.files.lookup place

/-- The disk with a file, unless its directory is not there or a directory is in the way. -/
def write? (disk : Disk) (path text : String) : Option Disk := do
  let place ← disk.find? path
  if disk.isDir place then none
  else some { disk with files := (place, text) :: disk.files.filter (·.1 != place) }

/-- The disk with a directory in one that is there, unless a file is in the way. -/
def makeOne? (disk : Disk) (dir ns : Names) : Option Disk := do
  let place ← disk.reach? dir ns
  if disk.isFile place then none else some { disk with dirs := place :: disk.dirs }

/-- The disk with a directory and all those on the way to it. A path that ends in a point leads
to a directory that must be there. -/
def makeDir? (disk : Disk) (path : String) : Option Disk :=
  if isUsable path then
    let ns := (names path).filter (!isIdle ·)
    let whole := ((names path).reverse.dropWhile (·.isEmpty)).reverse
    ((List.range ns.length).map (ns.take ·) ++ [whole]).foldlM
      (fun disk ns => disk.makeOne? (disk.start path) ns) disk
  else none

end Disk

end WireSchema
