import CallDiagram.CommandLine.Invocation
import CallDiagram.Conversion.Batch
import CallDiagram.Settings.Load

/-!
# The command line

Carrying out what a user asks for.

* `runTree`, `runDiagram`, `runImage`, `runBatch` — the commands;
* `Ending` — an exit code, or a fault that is left to whoever runs the program;
* `runWithin`, `run` — a whole command line in a world, with little or enough room for nested data.
-/

namespace CallDiagram.CommandLine

/-- How a run of the program ends. -/
inductive Ending where
  /-- With an exit code. -/
  | exit (code : Nat)
  /-- With a fault that it does not deal with. -/
  | escaped (fault : Fault)

open CallDiagram.Action

/-- The links of an index file, if one is named. -/
def linksOf (room : Option Nat) : Option Text → Action Links
  | some path => loadIndexWithin room path
  | none => pure []

/-- Stops unless there is something to read at a path. -/
def requireInput (path : Path) : Action Unit := do
  if ← ofExcept .file ((← get).files.holds path.text) then pure () else throw (.noInput path.text)

/-- Prints the call tree of a file, as JSON or as indented text. -/
def runTree (file : Text) (json : Bool) : Action Unit := do
  requireInput (.ofText file)
  let (forest, _) ← parseDocument {} [] (← readText (Path.ofText file).text)
  print (if json then Json.indented (toJson forest) ++ ['\n'] else outline forest)

/-- Writes the diagram of a file to another one, or prints it. -/
def runDiagram (room : Option Nat) (file : Text) (output index : Option Text) : Action Unit := do
  let links ← linksOf room index
  let (diagram, _) ← diagramOf (.ofText file) links {}
  match output with
  | some path => do
      writeText (Path.ofText path).text (diagramFile diagram)
      warn ("  PlantUML written to " ++ path ++ "\n")
  | none => print (diagramFile diagram)

/-- Draws the image of a file. -/
def runImage (room : Option Nat) (settings : Settings) (file : Text)
    (output format index : Option Text) : Action Unit := do
  requireInput (.ofText file)
  let links ← linksOf room index
  let done ← convertFile settings (.ofText file) format (output.map .ofText) links
  let image := (done.imagePath.map Path.text).getD []
  warn ("  Image written to " ++ image ++ "\n")

/-- Converts a directory. -/
def runBatch (settings : Settings) (directory : Text) (format : Option Text) (images : Bool)
    (index : Option Text) : Action Unit := do
  let path := Path.ofText directory
  if ← ofExcept .file ((← get).files.isDirectory path.text) then
    let done ← convertDirectory settings path format images (index.map .ofText)
    warn ("  Converted " ++ Text.natural done.length ++ " file(s) in " ++ path.text ++ "\n")
  else throw (.noDirectory path.text)

/-- Carries out a command. -/
def runCommand (room : Option Nat) (settings : Settings) : Command → Action Unit
  | .tree file json => runTree file json
  | .diagram file output index => runDiagram room file output index
  | .image file output format index => runImage room settings file output format index
  | .batch directory format images index => runBatch settings directory format images index

/-- The line that tells a user about a fault. -/
def tell (fault : Fault) : Action Unit := warn ("Error: " ++ fault.message ++ "\n")

/-- The name of the level that is reported. -/
def levelFor (settings : Settings) (verbose : Bool) : Text :=
  if verbose then Level.debug.text else settings.level.text

/-- Turns the log on. -/
def openLog (level : Text) : Action Unit :=
  modify fun w => { w with log := (w.log.setup () level).2 }

/-- Ends with a fault, of which the user is told if that is meant. -/
def endWith (fault : Fault) : Action Ending := do
  if fault.isExpected then
    tell fault
    pure (.exit 1)
  else pure (.escaped fault)

/-- Carries out a command with the settings of an environment. -/
def runWith (room : Option Nat) (env : Environment) (verbose : Bool) (command : Command) :
    Action Ending := do
  match ← outcome (loadSettings env) with
  | .error fault => endWith fault
  | .ok settings => do
      openLog (levelFor settings verbose)
      match ← outcome (runCommand room settings command) with
      | .ok _ => pure (.exit 0)
      | .error fault => endWith fault

/-- Shows the usage of a command. -/
def showUsage (grammar : Grammar) : Action Ending := do
  print (grammar.usage ++ ['\n'])
  pure (.exit 0)

/-- Carries out a command line. -/
def runWords (room : Option Nat) (env : Environment) (words : List Text) : Action Ending := do
  match Invocation.read words with
  | .error (.help grammar) => showUsage grammar
  | .error (.misuse grammar complaint) => do
      warn (grammar.usage ++ ['\n'])
      warn (grammar.start ++ ": error: " ++ complaint ++ "\n")
      pure (.exit 2)
  | .ok ⟨_, none⟩ => showUsage .program
  | .ok ⟨verbose, some command⟩ => runWith room env verbose command

/-- How a command line ends in a world, and the world behind it.  The values in index files are read
as far as there is room for their levels; for those of documents there always is. -/
def runWithin (room : Option Nat) (env : Environment) (words : List Text) (w : World) :
    Ending × World :=
  match runWords room env words w with
  | .ok ending w => (ending, w)
  | .error fault w => (.escaped fault, w)

/-- How a command line ends in a world, and the world behind it, with room for all levels. -/
def run (env : Environment) (words : List Text) (w : World) : Ending × World :=
  runWithin none env words w

end CallDiagram.CommandLine
