-- The command line: the name of a tool, then its arguments.
import WireSchema.Command.Run

open WireSchema

/-- The names that a path has when nothing on its way is a link. -/
def plainNames (here : Names) (path : String) : Names :=
  (Disk.names path).foldl (fun dir name =>
    if Disk.isIdle name then dir
    else if name == Disk.above then dir.dropLast
    else dir ++ [name]) (if path.startsWith "/" then [] else here)

/-- The disk with what is there at a path. -/
def surveyEntry (disk : Disk) (path : String) : IO Disk := do
  let place := plainNames disk.here path
  try
    if ← (← IO.FS.realPath path).isDir then return { disk with dirs := place :: disk.dirs }
    else return { disk with files := (place, ← IO.FS.readFile path) :: disk.files }
  catch _ => return disk

/-- The disk with what is there on the way along a path. -/
def surveyPath (disk : Disk) (path : String) : IO Disk :=
  let names := Disk.names path
  (List.range names.length).foldlM (fun disk count =>
    surveyEntry disk ("/".intercalate (names.take (count + 1)))) disk

/-- Makes the directories and writes the files of a disk that were not there before. -/
def writeFiles (before after : Disk) : IO Unit := do
  for dir in after.dirs do
    IO.FS.createDirAll ("/" ++ "/".intercalate dir)
  for (place, text) in after.files do
    if before.files.lookup place != some text then
      IO.FS.writeFile ("/" ++ "/".intercalate place) text

/-- Runs a tool with its arguments. -/
def main (args : List String) : IO UInt32 := do
  let (tool, args) := match args with
    | "reflect" :: rest => (Tool.reflector, rest)
    | "gen" :: rest => (Tool.generator, rest)
    | rest => (Tool.generator, rest)
  let (paths, stdinToo) := match Command.parse tool args with
    | .ok command => (command.reads ++ command.makes, command.readsStdin)
    | .error _ => ([], false)
  let here := (Disk.names (← IO.currentDir).toString).filter (!Disk.isIdle ·)
  let disk ← (paths.filter (· != stdinPath)).foldlM surveyPath ⟨here, [], []⟩
  let stdin ← if stdinToo then (← IO.getStdin).readBinToEnd else pure ByteArray.empty
  let outcome := tool.run args ⟨disk, stdin.data.toList⟩
  IO.print outcome.stdout
  writeFiles disk outcome.disk
  match outcome.diagnostic with
  | some text => IO.eprintln ("Error: " ++ text)
  | none => pure ()
  return UInt32.ofNat outcome.code
