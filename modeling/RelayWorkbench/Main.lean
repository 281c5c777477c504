import RelayWorkbench.CommandLine.Execution

/-! The program. A run sees the tree below the current directory as it is when the run starts,
and the files that the run changes are written back at its end. -/

open RelayWorkbench RelayWorkbench.CommandLine RelayWorkbench.Workspace

namespace RelayWorkbench.CommandLine

/-- What is shown for a command line that is not well formed. -/
def usageText : String := "Usage: reason-relay [OPTIONS] <COMMAND>"

/-- How deep directories are looked into. -/
def directoryLimit : Nat := 100

def fileOfBytes (bytes : ByteArray) : FileTree :=
  match String.fromUTF8? bytes with
  | some text => .file text.toList .full
  | none => .file [] .binary

/-- The name and the tree of an entry. A directory that is `depth` levels down counts as empty. -/
def readEntry (depth : Nat) (entry : IO.FS.DirEntry) : IO (Text × FileTree) := do
  let name := entry.fileName.toList
  if ← entry.path.isDir then
    match depth with
    | 0 => return (name, .directory [])
    | depth + 1 =>
      let entries ← entry.path.readDir
      return (name, .directory (← entries.toList.mapM (readEntry depth)))
  else
    try
      return (name, fileOfBytes (← IO.FS.readBinFile entry.path))
    catch _ =>
      return (name, .file [] .denied)

end RelayWorkbench.CommandLine

def main (arguments : List String) : IO UInt32 := do
  let some invocation := Invocation.ofArguments? (arguments.map String.toList)
    | IO.eprintln usageText
      return UInt32.ofNat usageErrorNumber
  let directory ← IO.currentDir
  let entries ← (← directory.readDir).toList.mapM (readEntry directoryLimit)
  let location := (Path.ofString directory.toString).names
  let system : FileSystem := ⟨(FileTree.directory []).put (.directory entries) location, location⟩
  let outcome := invocation.execute system
  for (location, contents) in FileTree.changes system.currentTree outcome.system.currentTree do
    let path := location.foldl (fun path name => path / String.ofList name) directory
    IO.FS.writeFile path (String.ofList contents)
  IO.print (String.ofList outcome.output)
  IO.eprint (String.ofList outcome.errors)
  return UInt32.ofNat outcome.code.number
