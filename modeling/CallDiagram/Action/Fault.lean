import CallDiagram.Document.Error
import CallDiagram.Files.Tree
import CallDiagram.Json.Room
import CallDiagram.Rendering.Basic
import CallDiagram.Text.Utf8

/-!
# Faults

What can stop an action.

* `Fault`, `Fault.message` — the causes and their wording;
* `Fault.isExpected` — the faults that a user is told about; the others are left to whoever runs the
  program.
-/

namespace CallDiagram

/-- A cause that stops an action. -/
inductive Fault where
  /-- A document is refused. -/
  | document (e : ParseError)
  /-- A document is not rendered. -/
  | rendering (e : RenderFault)
  /-- A path takes no such name. -/
  | name (e : NameError)
  /-- A file or directory cannot be used. -/
  | file (e : FileError)
  /-- The file that should be read does not exist. -/
  | noInput (path : Text)
  /-- What should be a directory is none. -/
  | noDirectory (path : Text)
  /-- A file is not UTF-8. -/
  | encoding (d : Utf8.Damage)
  /-- An index is no JSON value, or too deep. -/
  | json (e : Json.ReadError)
  /-- An index is no JSON object. -/
  | index (path : Text)
  /-- The environment file cannot be used. -/
  | environment (e : ForeignError)
  /-- The settings are not valid. -/
  | settings (e : SettingsError)
  /-- There is no room for a drawing beside others. -/
  | noJobs

namespace Fault

/-- The wording of a fault. -/
def message : Fault → Text
  | .document e => e.message
  | .rendering e => e.message
  | .name e => e.message
  | .file e => e.message
  | .noInput path => "Input file not found: " ++ path
  | .noDirectory path => path ++ " is not a directory"
  | .encoding d => d.message
  | .json e => e.message
  | .index path => path ++ ": component index must be a JSON object"
  | .environment e => e.words
  | .settings e => e.message
  | .noJobs => []

/-- Whether a user is told about the fault. -/
def isExpected : Fault → Bool
  | .file (.present _) => false
  | .file (.notDirectory _) => false
  | .file (.isDirectory _) => false
  | .file (.tooLong _) => false
  | .rendering (.foreign e) => e.isValue
  | .environment e => e.isValue
  | .json (.tooDeep _) => false
  | .noJobs => false
  | _ => true

end Fault

end CallDiagram
