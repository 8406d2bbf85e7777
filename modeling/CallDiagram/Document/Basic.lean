import CallDiagram.Document.Alias
import CallDiagram.Document.Error
import CallDiagram.Statement.Reader
import CallDiagram.Text.Lines

/-!
# Documents

A document is a list of lines.  It is read in passes, each a function on its own: every line that
is not blank is classified, the calls are numbered, the nodes are hung by their indents, the top
nodes are checked, groups are inherited and links are looked up.

* `scan` — the classified lines up to the first that says nothing known;
* `arrange` — nodes to forest: `Forest.ofList` by indent, then `rootFault?`, then `inherit`;
* `resolve` — links for the components of a forest;
* `parse`, `parseText` — a whole document, with the counter behind it;
* `parseLimited` — the same as far as the numbers of the aliases can be written.
-/

namespace CallDiagram

/-- The links of components, by identifier. -/
abbrev Links := List (Text × Json)

/-! ## Classifying lines -/

/-- The nodes of the lines up to the first unknown one, and the refusal of that one.  Blank lines
make no node; `index` lines are in front. -/
def scan (index : Nat) : List Text → List Node × Option ParseError
  | [] => ([], none)
  | line :: rest =>
      if Text.isBlank line then scan (index + 1) rest
      else
        match Statement.read? line with
        | none => ([], some ⟨.unknownStatement, index, line⟩)
        | some (indent, statement) =>
            let (nodes, failure) := scan (index + 1) rest
            (⟨index, line, indent, statement⟩ :: nodes, failure)

/-! ## Hanging nodes -/

/-- What is wrong with a node of the first level, which must be a call with a group. -/
def rootFault? (n : Node) : Option ParseError :=
  match n.statement with
  | .call c =>
      match Text.nonempty? c.group with
      | some _ => none
      | none => some ⟨.rootWithoutGroup, n.index, n.source⟩
  | _ => some ⟨.rootNotComponent, n.index, n.source⟩

/-- The forest with the group of the nearest call above for every call without one. -/
def inherit (group : Option Text) : Forest Node → Forest Node
  | .nil => .nil
  | .node n below after =>
      match n.statement with
      | .call c =>
          let own := match Text.nonempty? c.group with | some g => some g | none => group
          .node { n with statement := .call { c with group := own } } (inherit own below)
            (inherit group after)
      | _ => .node n (inherit group below) (inherit group after)

/-- The forest of some nodes: each hangs from the nearest node before it with a smaller indent. -/
def arrange (nodes : List Node) : Except ParseError (Forest Node) :=
  let forest := Forest.ofList Node.indent nodes
  match forest.tops.findSome? rootFault? with
  | some e => .error e
  | none => .ok (inherit none forest)

/-! ## Links -/

/-- The forest with every call linked to what its identifier is bound to.  Without any links the
forest stays as it is. -/
def resolve (links : Links) (forest : Forest Node) : Forest Node :=
  if links.isEmpty then forest
  else
    forest.map (Node.mapCall fun c =>
      { c with link := (Json.field? c.identifier links).getD .null })

/-! ## Whole documents -/

/-- The forest of a list of lines, and the counter behind its calls.  A document that is refused
keeps the aliases of the calls in front of the refusal of a line, or of all its calls. -/
def parse (counter : Counter) (links : Links) (document : List Text) :
    Except ParseError (Forest Node) × Counter :=
  let (nodes, failure) := scan 0 document
  let behind := counter.advance (callCount nodes)
  match failure with
  | some e => (.error e, behind)
  | none => ((arrange (number counter nodes)).map (resolve links), behind)

/-- The forest of a text, and the counter behind its calls. -/
def parseText (counter : Counter) (links : Links) (text : Text) :
    Except ParseError (Forest Node) × Counter :=
  parse counter links (Text.lines text)

/-! ## Long numbers -/

/-- Why a document makes no forest. -/
inductive DocumentError where
  /-- It is refused at a line. -/
  | line (e : ParseError)
  /-- The number of an alias is not written. -/
  | number (e : Number.WritingError)
  deriving DecidableEq, Repr

/-- The forest of a list of lines as `parse` makes it, and the counter behind its calls.  The first
alias that cannot be written stops the document, before any refusal of a later line or of the
forest. -/
def parseLimited (counter : Counter) (links : Links) (document : List Text) :
    Except DocumentError (Forest Node) × Counter :=
  match counter.issue (callCount (scan 0 document).1) with
  | (.error e, behind) => (.error (.number e), behind)
  | (.ok _, _) =>
      let (result, behind) := parse counter links document
      (result.mapError .line, behind)

end CallDiagram
