import UnitCache.CommandLine.Snapshot

/-! The program: it takes a snapshot of the files that its command line calls for, runs the command
on it, and prints what comes of that. -/

namespace UnitCache.CommandLine

/-- What is on the real disk at a path, seen from a directory. -/
def look (path : String) : IO (Option Node) := do
  let here ← IO.currentDir
  let .ok found ← (here / path).metadata.toBaseIO | return none
  match found.type with
  | .dir => return some .directory
  | .file =>
    let .ok bytes ← (IO.FS.readBinFile (here / path)).toBaseIO | return none
    return some (.file (String.fromUTF8? bytes) found.modified.sec)
  | _ => return none

/-- Adds what is at a path, and what leads there, to a snapshot. A slash at the path's end does not
hide a regular file. -/
def observe (disk : Disk) (path : Path) : IO Disk := do
  let mut seen := disk
  for above in path.ancestors.reverse do
    let step := Path.ofComponents above.components
    if let some node ← look step.text then
      seen := seen.put (seen.absolute step).location node
  return seen

partial def complete (arguments : List String) (disk : Disk) (known : List Path) : IO Disk := do
  let fresh := (watchedPaths arguments disk).filter (· ∉ known) |>.eraseDups
  if fresh.isEmpty then return disk
  let seen ← fresh.foldlM observe disk
  complete arguments seen (known ++ fresh)

/-- An empty snapshot, seen from the current directory if there is one. -/
def emptySnapshot : IO Disk := do
  let .ok here ← IO.currentDir.toBaseIO | return { Disk.empty with workingDirectory := none }
  let location := (Path.mk here.toString).location
  let disk := if location.isEmpty then Disk.empty else Disk.empty.put location .directory
  return { disk with workingDirectory := some location }

end UnitCache.CommandLine

open UnitCache CommandLine in
def main (arguments : List String) : IO UInt32 := do
  let disk ← complete arguments (← emptySnapshot) []
  let outcome := run arguments disk
  let errors ← IO.getStderr
  for entry in outcome.logs do
    errors.putStrLn entry.line
  for line in outcome.errors do
    errors.putStrLn line
  (← IO.getStdout).putStr outcome.output
  return outcome.exitCode.toUInt32
