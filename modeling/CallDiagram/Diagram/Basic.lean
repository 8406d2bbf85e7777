import CallDiagram.Diagram.Participants
import CallDiagram.Document.Error

/-!
# Sequence diagrams

Each tree of a forest becomes a section: a heading, the declarations of its participants and its
call graph.  In the graph a call is entered by an arrow from the nearest call above it and left by
an arrow back; a loop is a region; a chain of conditions and alternatives is one region, which an
`if`, or an `else` with no branch before it, opens and the last branch closes.

* `enter`, `leave` — the directives at the two ends of a statement;
* `callGraph` — the directives of a forest;
* `sectionOf`, `diagram` — a section, a whole document.
-/

namespace CallDiagram

/-! ## Call graph -/

/-- The directives at the start of a statement: `caller` is the nearest call above it, `before` the
statement before it at its level. -/
def enter (p : Participants) (caller : Option Call) (before : Option Statement) :
    Statement → List Line
  | .call c =>
      (match caller with
        | some above => [.arrow (p.aliasOf above) (p.aliasOf c) (Text.nonempty? c.comment)]
        | none => [])
        ++ [.activate (p.aliasOf c)]
  | .loop note => [.loop note]
  | .condition note => [.alt ("if " ++ note)]
  | .alternative note =>
      if before.any Statement.isBranch then [.otherwise (Text.nonempty? note)]
      else [.alt ((Text.nonempty? note).getD "else")]
  | .bare => []

/-- The directives at the end of a statement: `next` is the statement after it at its level. -/
def leave (p : Participants) (caller : Option Call) (next : Option Statement) :
    Statement → List Line
  | .call c =>
      (match caller with
        | some above => [.answer (p.aliasOf c) (p.aliasOf above) (Text.nonempty? c.answer)]
        | none => [])
        ++ [.deactivate (p.aliasOf c)]
  | .loop _ => [.endLoop]
  | .condition _ => if next.any Statement.isAlternative then [] else [.endAlt]
  | .alternative _ => if next.any Statement.isAlternative then [] else [.endAlt]
  | .bare => []

/-- The directives of a forest below a call and behind a statement.  A bare node is left out with
everything below it. -/
def callGraph (p : Participants) (caller : Option Call) (before : Option Statement) :
    Forest Node → List Line
  | .nil => []
  | .node n below after =>
      (if n.statement.isBlock then
        enter p caller before n.statement
          ++ callGraph p (n.call? <|> caller) none below
          ++ leave p caller (after.first?.map Node.statement) n.statement
      else [])
        ++ callGraph p caller (some n.statement) after

/-! ## Documents -/

/-- The heading of a section: what is said at the call, or the label of its component. -/
def headingOf (c : Call) : Text := (Text.nonempty? c.comment).getD c.label

/-- The section of a tree whose top node is a call. -/
def sectionOf (c : Call) (n : Node) (below : Forest Node) : List Line :=
  let tree : Forest Node := .node n below .nil
  let p := Participants.ofForest tree
  .heading (headingOf c) :: (p.lines ++ callGraph p none none tree)

/-- The sections of the trees of a forest. -/
def sections : Forest Node → Except ParseError (List Line)
  | .nil => .ok []
  | .node n below after =>
      match n.call? with
      | some c => (sections after).map (sectionOf c n below ++ ·)
      | none => .error ⟨.rootNotComponent, n.index, n.source⟩

/-- What stands in front of the sections: two layout parameters and the title. -/
def preamble (first : Call) : List Line :=
  [.opening, .layout "ParticipantPadding" 4, .layout "BoxPadding" 8,
   .title first.group first.method]

/-- The diagram of a forest; there must be a tree, and every top node must be a call. -/
def diagram (f : Forest Node) : Except ParseError (List Line) :=
  match f with
  | .nil => .error ⟨.noComponents, 0, []⟩
  | .node n _ _ =>
      match n.call? with
      | some first => (sections f).map fun body => preamble first ++ body ++ [.closing]
      | none => .error ⟨.rootNotComponent, n.index, n.source⟩

/-- The diagram of a forest as text. -/
def diagramText (f : Forest Node) : Except ParseError Text := (diagram f).map Line.document

end CallDiagram
