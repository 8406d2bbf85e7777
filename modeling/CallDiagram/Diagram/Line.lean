import CallDiagram.Statement.Basic

/-!
# Lines of a sequence diagram

The directives of a PlantUML document that this library writes, and their one spelling.

* `Line` — the directives;
* `Line.text` — a directive as text;
* `Line.document` — directives joined by line breaks.
-/

namespace CallDiagram

/-- A directive of a sequence diagram. -/
inductive Line where
  /-- The start of the document. -/
  | opening
  /-- A layout parameter. -/
  | layout (name : Text) (value : Nat)
  /-- The title of the document: the first component. -/
  | title (group : Option Text) (method : Text)
  /-- The heading of a section. -/
  | heading (words : Text)
  /-- The start of the box of a group. -/
  | box (group : Option Text)
  /-- A participant: its label, alias and hyperlink. -/
  | participant (label aliasName : Text) (link : Option Text)
  /-- The end of a box. -/
  | endBox
  /-- An arrow from the caller to the callee. -/
  | arrow (caller callee : Text) (comment : Option Text)
  /-- The start of the activity of a participant. -/
  | activate (aliasName : Text)
  /-- An arrow back from the callee to the caller. -/
  | answer (callee caller : Text) (comment : Option Text)
  /-- The end of the activity of a participant. -/
  | deactivate (aliasName : Text)
  /-- The start of a loop. -/
  | loop (note : Text)
  /-- The end of a loop. -/
  | endLoop
  /-- The start of a region of alternatives. -/
  | alt (guard : Text)
  /-- The start of the next alternative of a region. -/
  | otherwise (guard : Option Text)
  /-- The end of a region of alternatives. -/
  | endAlt
  /-- The end of the document. -/
  | closing
  deriving DecidableEq, Repr

namespace Line

/-- A comment behind an arrow. -/
def behindArrow : Option Text → Text
  | some t => ':' :: ' ' :: t
  | none => []

/-- The spelling of a directive. -/
def text : Line → Text
  | .opening => "@startuml"
  | .layout name value => "skinparam " ++ name ++ ' ' :: Text.natural value
  | .title group method => "title " ++ Call.groupText group ++ '#' :: (method ++ "()")
  | .heading words => "== " ++ words ++ " =="
  | .box group => "box \"" ++ Call.groupText group ++ "\""
  | .participant label name link =>
      "participant \"" ++ label ++ "\" as " ++ name
        ++ (match link with | some l => " [[" ++ l ++ "]]" | none => [])
  | .endBox => "end box"
  | .arrow caller callee comment => caller ++ " -> " ++ callee ++ behindArrow comment
  | .activate name => "activate " ++ name
  | .answer callee caller comment => callee ++ " --> " ++ caller ++ behindArrow comment
  | .deactivate name => "deactivate " ++ name
  | .loop note => "loop " ++ note
  | .endLoop => "end loop"
  | .alt guard => "alt " ++ guard
  | .otherwise none => "else"
  | .otherwise (some guard) => "else " ++ guard
  | .endAlt => "end"
  | .closing => "@enduml"

/-- Directives as one text, with a line break between each two. -/
def document (lines : List Line) : Text := List.intercalate ['\n'] (lines.map text)

end Line

end CallDiagram
