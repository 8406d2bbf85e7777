import CallDiagram.Statement.Basic
import CallDiagram.Forest.Basic

/-!
# Nodes

A node is a statement in its place: the line it came from and the indent of that line.  A document
becomes a forest of nodes.

* `Node`, `Node.lineNumber`;
* `Lineage`, `lineages` — every node with the node it hangs from and the call it happens in;
* `outline` — the forest as indented text, `outlineFault?` — what is in its way;
* `toJson` — the forest as JSON.
-/

namespace CallDiagram

/-- A statement and the line that made it. -/
structure Node where
  /-- The number of lines in front of it. -/
  index : Int := 0
  /-- The line as it was written. -/
  source : Text := []
  /-- The number of leading blanks. -/
  indent : Int := 0
  /-- What the line says. -/
  statement : Statement

namespace Node

/-- The number of the line, from one. -/
def lineNumber (n : Node) : Int := n.index + 1

/-- The call of a node. -/
def call? (n : Node) : Option Call := n.statement.call?

/-- The node with its call changed; other nodes stay. -/
def mapCall (f : Call → Call) (n : Node) : Node :=
  match n.statement with
  | .call c => { n with statement := .call (f c) }
  | _ => n

end Node

/-! ## Lineage -/

/-- A node, the node it hangs from, and the nearest call above it. -/
structure Lineage where
  /-- The node itself. -/
  node : Node
  /-- The node directly above it. -/
  parent : Option Node
  /-- The nearest node above it that is a call. -/
  caller : Option Call

/-- Every node of a forest with its lineage, in document order, below a given node and call. -/
def lineagesBelow (parent : Option Node) (caller : Option Call) : Forest Node → List Lineage
  | .nil => []
  | .node n below after =>
      ⟨n, parent, caller⟩ ::
        (lineagesBelow (some n) (n.call? <|> caller) below ++ lineagesBelow parent caller after)

/-- Every node of a forest with its lineage, in document order. -/
def lineages (f : Forest Node) : List Lineage := lineagesBelow none none f

/-! ## Indented text -/

/-- The line of a node: its indent in spaces, its spelling, a line break. -/
def Node.outline (n : Node) : Text :=
  List.replicate n.indent.toNat ' ' ++ n.statement.text ++ ['\n']

/-- A forest as indented text, one line per node. -/
def outline (f : Forest Node) : Text := f.walk.flatMap Node.outline

/-- Why a line of an outline cannot be written. -/
inductive OutlineFault where
  /-- The indent lies outside the range of widths. -/
  | indentRange
  /-- The margin is too wide to be held. -/
  | wideMargin
  /-- The node says nothing. -/
  | bare
  deriving DecidableEq, Repr

/-- The wording of the fault. -/
def OutlineFault.message : OutlineFault → Text
  | .indentRange => "cannot fit 'int' into an index-sized integer"
  | .wideMargin => []
  | .bare => "Unsupported node type: Node"

/-- Widths are the whole numbers of 64 bits: below this bound and not below its negative. -/
def widthBound : Int := 9223372036854775808

/-- The widest margin that is held. -/
def widestMargin : Int := 2147483647

/-- What is in the way of the line of a node.  Its margin comes before its spelling. -/
def Node.outlineFault? (n : Node) : Option OutlineFault :=
  if n.indent < -widthBound ∨ widthBound ≤ n.indent then some .indentRange
  else if widestMargin < n.indent then some .wideMargin
  else if n.statement.isBlock then none
  else some .bare

/-- What is first in the way of the outline of a forest. -/
def outlineFault? (f : Forest Node) : Option OutlineFault := f.walk.findSome? Node.outlineFault?

/-- Whether every node of a forest says something, so that it has a JSON form. -/
def isSpoken (f : Forest Node) : Bool := f.all fun n => n.statement.isBlock

/-! ## JSON -/

/-- An optional text as JSON. -/
def textOrNull : Option Text → Json
  | some t => .str t
  | none => .null

/-- The fields of a node that its statement decides. -/
def Statement.fields : Statement → List (Text × Json)
  | .call c =>
      [("alias", .str c.aliasName), ("group", textOrNull c.group), ("method", .str c.method),
       ("call_comment", textOrNull c.comment), ("return_comment", textOrNull c.answer),
       ("path", c.link)]
  | .loop note => [("note", .str note)]
  | .condition note => [("note", .str note)]
  | .alternative note => [("note", textOrNull note)]
  | .bare => []

/-- The name of the kind of a statement. -/
def Statement.kind : Statement → Text
  | .call _ => "call"
  | .loop _ => "loop"
  | .condition _ => "if"
  | .alternative _ => "else"
  | .bare => "node"

/-- The fields of a node without those below it. -/
def Node.fields (n : Node) : List (Text × Json) :=
  ("kind", .str n.statement.kind) :: ("line", .int n.lineNumber) :: ("indent", .int n.indent)
    :: n.statement.fields

/-- The trees of a forest as JSON values. -/
def treesToJson : Forest Node → List Json
  | .nil => []
  | .node n below after =>
      .object (n.fields ++ [(("children" : Text), Json.list (treesToJson below))])
        :: treesToJson after

/-- A forest as JSON: the list of its trees. -/
def toJson (f : Forest Node) : Json := .list (treesToJson f)

end CallDiagram
