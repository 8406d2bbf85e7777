import CallDiagram.Text.Basic

/-!
# Refused documents

A document is refused at one line, for one complaint.

* `Complaint`, `ParseError` — the types;
* `ParseError.detail`, `ParseError.message` — the wording without and with the line number.
-/

namespace CallDiagram

/-- What is wrong with a document. -/
inductive Complaint where
  /-- A line says nothing that is known. -/
  | unknownStatement
  /-- A line of the first level is not a call. -/
  | rootNotComponent
  /-- A call of the first level names no group. -/
  | rootWithoutGroup
  /-- The document holds no call. -/
  | noComponents
  deriving DecidableEq, Repr

/-- A complaint about a line. -/
structure ParseError where
  /-- What is wrong. -/
  complaint : Complaint
  /-- The number of lines in front of it. -/
  index : Int
  /-- The line as it was written. -/
  content : Text := []
  deriving DecidableEq, Repr

namespace ParseError

/-- The number of the line, from one. -/
def lineNumber (e : ParseError) : Int := e.index + 1

/-- The wording of the complaint. -/
def detail (e : ParseError) : Text :=
  match e.complaint with
  | .unknownStatement => "Unknown statement '" ++ e.content ++ ['\'']
  | .rootNotComponent =>
      "Top-level statement must be a component in the format 'Group#component()'"
  | .rootWithoutGroup => "Top-level statement missing component group name"
  | .noComponents => "No components found"

/-- A wording with the number of a line. -/
def atLine (words : Text) (lineNumber : Int) : Text :=
  words ++ " at line " ++ Text.integer lineNumber

/-- The wording of the complaint with the line number. -/
def message (e : ParseError) : Text := atLine e.detail e.lineNumber

end ParseError

end CallDiagram
