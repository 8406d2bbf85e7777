import CallDiagram.Log
import CallDiagram.Action.Fault
import CallDiagram.Text.Lines

/-!
# Actions

An action works on a `World`: files, the drawing program, a library for environment files, and what
has been written and tried so far.  It ends with a result or a `Fault`; what it has done to the world
until then stays done.

* `World`, `Action` — the types;
* `Action.readText`, `Action.writeBytes`, `Action.writeText`, `Action.ensureDirectory` — files;
* `Action.report`, `Action.print`, `Action.warn` — the log and the two output streams;
* `Action.draw` — the drawing program;
* `Action.outcome` — an action that turns the fault of another one into a result.
-/

namespace CallDiagram

/-- What an action works on. -/
structure World where
  /-- The files. -/
  files : FileTree
  /-- The drawing program. -/
  renderer : Renderer
  /-- The library that adds the variables of an environment file to an environment. -/
  extend : Environment → FileTree → Except ForeignError Environment := fun env _ => .ok env
  /-- The log, which writes to the error stream. -/
  log : Log Unit := {}
  /-- The attempts to draw so far. -/
  attempts : List Attempt := []
  /-- What has been written to the output stream. -/
  output : Text := []
  /-- What has been written to the error stream. -/
  errors : Text := []

/-- A computation that works on a world and may stop with a fault. -/
abbrev Action (α : Type) : Type := EStateM Fault World α

namespace Action

variable {α : Type}

/-- An action that does nothing but pass a result on, with its error as a fault. -/
def ofExcept {ε : Type} (fault : ε → Fault) : Except ε α → Action α
  | .ok a => pure a
  | .error e => throw (fault e)

/-- The result of an action or the fault that stopped it. -/
def outcome (action : Action α) : Action (Except Fault α) := fun w =>
  match action w with
  | .ok a w => .ok (.ok a) w
  | .error e w => .ok (.error e) w

/-! ## Output -/

/-- Writes to the output stream. -/
def print (text : Text) : Action Unit := modify fun w => { w with output := w.output ++ text }

/-- Writes to the error stream. -/
def warn (text : Text) : Action Unit := modify fun w => { w with errors := w.errors ++ text }

/-- Sends a message to the log, whose stream is the error stream.  The loggers of the program stand
below it whatever else is in use, so nothing has to be noted of them. -/
def report (logger : Text) (level : Level) (content : Text) : Action Unit := do
  warn (((← get).log.deliveries () ⟨logger, level, content⟩).flatMap Prod.snd)

/-! ## Files -/

/-- The text of a file, with unified line breaks. -/
def readText (path : Text) : Action Text := do
  let content ← ofExcept .file ((← get).files.read path)
  let text ← ofExcept .encoding (Utf8.decode content)
  pure (Text.unifyBreaks text)

/-- Replaces the files of the world. -/
def changeFiles (change : FileTree → Except FileError FileTree) : Action Unit := do
  let files ← ofExcept .file (change (← get).files)
  modify fun w => { w with files }

/-- Writes a file. -/
def writeBytes (path : Text) (content : Bytes) : Action Unit :=
  changeFiles fun t => t.write path content

/-- Writes a text file. -/
def writeText (path text : Text) : Action Unit := writeBytes path (Utf8.encode text)

/-- Makes a directory and those above it, as far as they are missing.  Those made before an error
stay. -/
def ensureDirectory (path : Path) : Action Unit := do
  let (result, files) := (← get).files.ensureDirectory path
  modify fun w => { w with files }
  ofExcept .file result

/-! ## Drawing -/

/-- The logger of the drawing program. -/
def renderLogger : Text := "codesque.plantuml"

/-- The image of a document.  An image that is drawn beside others is reported. -/
def draw (settings : Settings) (launch : Launch) (format source : Text) (document : Text) :
    Action Bytes := do
  let (attempts, result) :=
    render settings (← get).renderer launch (some format) (some source) document
  modify fun w => { w with attempts := w.attempts ++ attempts }
  let image ← ofExcept .rendering result
  if launch = .concurrent then
    report renderLogger .debug
      ("Rendered " ++ source ++ " (" ++ Text.natural image.length ++ " bytes)")
  pure image

end Action

end CallDiagram
