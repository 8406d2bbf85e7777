import CallDiagram.Diagram.Line
import CallDiagram.Document.Node

/-!
# Participants

The distinct components among some calls.  A component is declared at its first call, in the box of
its group; boxes stand in the order of the first calls of their groups.  All arrows of a section
address the alias of the declaration.

* `Participants` — declared calls by group, and aliases by identifier;
* `Participants.add`, `Participants.ofCalls` — collecting them call by call;
* `Participants.aliasOf` — the alias that stands for a call;
* `Participants.lines` — the declarations.
-/

namespace CallDiagram

/-- The declared calls of each group and the alias of each identifier, in order of appearance. -/
structure Participants where
  /-- The groups and the calls declared in them. -/
  groups : List (Option Text × List Call) := []
  /-- The identifiers and their aliases. -/
  aliases : List (Text × Text) := []

namespace Participants

/-- The groups with some calls put at the end of a group, which is opened if it is new. -/
def enrol (group : Option Text) (calls : List Call) :
    List (Option Text × List Call) → List (Option Text × List Call)
  | [] => [(group, calls)]
  | (g, declared) :: rest =>
      if g = group then (g, declared ++ calls) :: rest else (g, declared) :: enrol group calls rest

/-- The alias of an identifier. -/
def aliasFor? (p : Participants) (identifier : Text) : Option Text := p.aliases.lookup identifier

/-- The participants with one more call: its group is opened, and it is declared unless its
identifier is known. -/
def add (p : Participants) (c : Call) : Participants :=
  match p.aliasFor? c.identifier with
  | some _ => { p with groups := enrol c.group [] p.groups }
  | none =>
      { groups := enrol c.group [c] p.groups
        aliases := p.aliases ++ [(c.identifier, c.aliasName)] }

/-- The participants of some calls. -/
def ofCalls (calls : List Call) : Participants := calls.foldl add {}

/-- The participants of a forest. -/
def ofForest (f : Forest Node) : Participants := ofCalls (f.walk.filterMap Node.call?)

/-- The alias of the declared participant of a call. -/
def aliasOf (p : Participants) (c : Call) : Text := (p.aliasFor? c.identifier).getD c.aliasName

/-- The link of a participant, if its value is not void. -/
def linkText? (link : Json) : Option Text := if link.isVoid then none else some link.display

/-- The declaration of a call. -/
def declaration (c : Call) : Line := .participant c.label c.aliasName (linkText? c.link)

/-- The declarations of all participants, a box for each group. -/
def lines (p : Participants) : List Line :=
  p.groups.flatMap fun (group, calls) => .box group :: (calls.map declaration ++ [.endBox])

end Participants

end CallDiagram
