import CallDiagram.Index.Basic
import CallDiagram.Json.Sorted
import CallDiagram.Json.Writer
import CallDiagram.Action.Basic

/-!
# Index files

An index is kept in a file as a JSON object, indented, in ASCII and with its keys in ascending
order.  Reading takes every JSON object and turns its values into plain texts.
-/

namespace CallDiagram

/-- The text of an index in a file. -/
def indexText (index : Links) : Text := Json.indented (Json.sorted (.object index))

/-- The index that a JSON object stands for. -/
def indexOfFields (fields : List (Text × Json)) : Links :=
  fields.map fun (k, v) => (k, .str (Json.display v))

namespace Action

/-- The index in a file, which is opened by the very text of its path, as far as there is room for
the levels of its value. -/
def loadIndexWithin (room : Option Nat) (path : Text) : Action Links := do
  match ← ofExcept .json (Json.readWithin room (← readText path)) with
  | .object fields => pure (indexOfFields fields)
  | _ => throw (.index path)

/-- The index in a file, with room for all levels. -/
def loadIndex (path : Text) : Action Links := loadIndexWithin none path

/-- Writes an index to a file, with the directories above it. -/
def saveIndex (index : Links) (path : Path) : Action Unit := do
  ensureDirectory path.parent
  writeText path.text (indexText index)

end Action

end CallDiagram
