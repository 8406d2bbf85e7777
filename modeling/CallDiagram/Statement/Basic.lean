import CallDiagram.Json.Basic

/-!
# Statements

A line of call text says one of four things: a call, the head of a loop, a condition, or an
alternative to the branch before it.  Only a call names a component, that is, a participant of the
diagram.

* `Call`, `Statement` — the types;
* `Call.identifier` — the name under which a component is known, `Group#method`;
* `Statement.text` — the canonical spelling of a statement, without indentation.
-/

namespace CallDiagram

/-- A call of a component. -/
structure Call where
  /-- The owning group; absent or empty until it is inherited. -/
  group : Option Text := none
  /-- The method that is called. -/
  method : Text := []
  /-- What is said on the way there. -/
  comment : Option Text := none
  /-- What is said on the way back. -/
  answer : Option Text := none
  /-- The short name of the participant in the diagram. -/
  aliasName : Text := []
  /-- The hyperlink of the participant; `null` for none. -/
  link : Json := .null

namespace Call

/-- The label of a participant. -/
def label (c : Call) : Text := c.method ++ ['(', ')']

/-- The spelling of a group: a missing one has a name of its own. -/
def groupText : Option Text → Text
  | some g => g
  | none => "None"

/-- The name of a component among all components. -/
def identifier (c : Call) : Text := groupText c.group ++ '#' :: c.method

end Call

/-- What a line says. -/
inductive Statement where
  /-- `Group#method(): comment < answer`. -/
  | call (c : Call)
  /-- `loop note`. -/
  | loop (note : Text)
  /-- `if note`. -/
  | condition (note : Text)
  /-- `else`, with or without a note. -/
  | alternative (note : Option Text)
  /-- A line that is kept in its place and says nothing. -/
  | bare

namespace Statement

/-- The call of a statement. -/
def call? : Statement → Option Call
  | .call c => some c
  | _ => none

/-- Whether a statement says something: it opens a region of the diagram and has a spelling. -/
def isBlock : Statement → Bool
  | .bare => false
  | _ => true

/-- Whether a statement is one branch of a chain of conditions. -/
def isBranch : Statement → Bool
  | .condition _ => true
  | .alternative _ => true
  | _ => false

/-- Whether a statement continues the chain of the branch before it. -/
def isAlternative : Statement → Bool
  | .alternative _ => true
  | _ => false

end Statement

/-- The canonical spelling of a call.  Empty parts are left out. -/
def Call.text (c : Call) : Text :=
  (match Text.nonempty? c.group with | some g => g ++ ['#'] | none => []) ++ c.label
    ++ (match Text.nonempty? c.comment with | some t => ':' :: ' ' :: t | none => [])
    ++ (match Text.nonempty? c.answer with | some t => ' ' :: '<' :: ' ' :: t | none => [])

/-- The canonical spelling of a statement. -/
def Statement.text : Statement → Text
  | .call c => c.text
  | .loop note => ['l', 'o', 'o', 'p', ' '] ++ note
  | .condition note => ['i', 'f', ' '] ++ note
  | .alternative note =>
      ['e', 'l', 's', 'e'] ++ (match Text.nonempty? note with | some t => ' ' :: t | none => [])
  | .bare => []

end CallDiagram
