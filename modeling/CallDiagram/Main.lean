import CallDiagram.CommandLine.Basic

/-!
# The program

The command line on the files of the working directory: they are read, the command line is carried
out on them, and what has changed is written back.  This program starts no other programs, so its
drawing program is always missing, and it reads no environment file.
-/

namespace CallDiagram.Program

/-- The variables that the settings look at. -/
def variableNames : List Text :=
  [Settings.commandVariable, Settings.timeoutVariable, Settings.formatVariable,
   Settings.jobsVariable, Settings.levelVariable, Settings.suffixVariable]

/-- The values of those variables. -/
def readEnvironment : IO Environment :=
  variableNames.filterMapM fun name => do
    let value ← IO.getEnv (String.ofList name)
    pure (value.map fun v => (name, v.toList))

/-- The path of an address in the working directory. -/
def pathOf (a : Address) : String := String.ofList (Path.join (['.'] :: a))

/-- A tree with the content of a directory added. -/
partial def readTree (t : FileTree) (a : Address) : IO FileTree := do
  let place ← IO.FS.realPath (pathOf a)
  let mut t := t
  for found in ← place.readDir do
    let b := a ++ [found.fileName.toList]
    if ← found.path.isDir then t ← readTree (t.put b .directory) b
    else t := t.put b (.file (← IO.FS.readBinFile found.path).toList)
  pure t

/-- Writes what has changed from one tree to another. -/
def writeChanges (before after : FileTree) : IO Unit :=
  after.entries.forM fun (a, entry) => do
    if before.get? a ≠ some entry then
      match entry with
      | .directory => IO.FS.createDirAll (pathOf a)
      | .file content => IO.FS.writeBinFile (pathOf a) ⟨content.toArray⟩

end CallDiagram.Program

open CallDiagram in
/-- Carries out a command line. -/
def main (words : List String) : IO UInt32 := do
  let env ← Program.readEnvironment
  let files ← Program.readTree {} []
  let (ending, w) := CommandLine.run env (words.map String.toList) { files, renderer := .missing }
  Program.writeChanges files w.files
  IO.print (String.ofList w.output)
  IO.eprint (String.ofList w.errors)
  match ending with
  | .exit code => pure code.toUInt32
  | .escaped fault => do
      IO.eprintln (String.ofList fault.message)
      pure 1
