import CallDiagram.Document.Basic
import CallDiagram.Proofs.Document.Numbering
import CallDiagram.Proofs.Forest.Shape
import CallDiagram.Proofs.Text.Trim

/-!
# Groups, links and the first level

Inheriting changes nothing but groups, linking nothing but links, and neither changes whether a
node may stand at the first level.

* `Node.nearestGroup`, `inherit_node` — the group that a node hands down;
* `map_inherit`, `map_resolve` — what does not look at groups or links does not see the passes;
* `inherit_map`, `resolve_map` — what keeps calls can be done before the passes as well as after;
* `inherit_eq_self` — calls with groups keep them;
* `rootFault?_eq_none_iff` — calls with groups are in order at the first level.
-/

namespace CallDiagram

/-! ## Groups -/

namespace Node

/-- The node with a group for its call. -/
def withGroup (group : Option Text) (n : Node) : Node :=
  n.mapCall fun c => { c with group := group }

/-- The group of the nearest call from a node upwards, if that is known above the node. -/
def nearestGroup (group : Option Text) (n : Node) : Option Text :=
  match n.call? with
  | some c => (Text.nonempty? c.group).or group
  | none => group

theorem nearestGroup_of_call {n : Node} {c : Call} (h : n.call? = some c)
    (group : Option Text) : n.nearestGroup group = (Text.nonempty? c.group).or group := by
  simp [nearestGroup, h]

theorem nearestGroup_of_no_call {n : Node} (h : n.call? = none) (group : Option Text) :
    n.nearestGroup group = group := by
  simp [nearestGroup, h]

end Node

theorem inherit_node (group : Option Text) (n : Node) (below after : Forest Node) :
    inherit group (.node n below after)
      = .node (n.withGroup (n.nearestGroup group)) (inherit (n.nearestGroup group) below)
          (inherit group after) := by
  obtain ⟨index, source, indent, statement⟩ := n
  cases statement with
  | call c =>
    cases hc : Text.nonempty? c.group <;>
      simp [inherit, Node.withGroup, Node.mapCall, Node.nearestGroup, Node.call?,
        Statement.call?, hc]
  | _ => rfl

/-- Inheriting changes nothing but groups. -/
theorem map_inherit {β : Type} {g : Node → β} (hg : ∀ group n, g (n.withGroup group) = g n)
    (group : Option Text) (f : Forest Node) : (inherit group f).map g = f.map g := by
  induction f generalizing group with
  | nil => rfl
  | node n below after ihb iha =>
    rw [inherit_node, Forest.map, Forest.map, hg, ihb, iha]

theorem tops_inherit (group : Option Text) (f : Forest Node) :
    (inherit group f).tops = f.tops.map fun n => n.withGroup (n.nearestGroup group) := by
  induction f with
  | nil => rfl
  | node n below after _ iha => rw [inherit_node, Forest.tops, iha, Forest.tops, List.map_cons]

theorem map_place_inherit (group : Option Text) (f : Forest Node) :
    (inherit group f).map Node.place = f.map Node.place :=
  map_inherit (fun _ _ => Node.place_mapCall _ _) group f

/-- Inheriting commutes with a change of nodes that keeps their groups. -/
theorem inherit_map {h : Node → Node}
    (hnearest : ∀ group n, (h n).nearestGroup group = n.nearestGroup group)
    (hgroup : ∀ group n, h (n.withGroup group) = (h n).withGroup group) (group : Option Text)
    (f : Forest Node) : inherit group (f.map h) = (inherit group f).map h := by
  induction f generalizing group with
  | nil => rfl
  | node n below after ihb iha =>
    rw [Forest.map, inherit_node, inherit_node, Forest.map, hnearest, hgroup, ihb, iha]

theorem inherit_moved (m : Int × Text × Int → Int × Text × Int) (group : Option Text)
    (f : Forest Node) :
    inherit group (f.map (Node.moved m)) = (inherit group f).map (Node.moved m) :=
  inherit_map (h := Node.moved m) (fun _ _ => rfl) (fun _ n => Node.moved_mapCall m n _) group f

/-- Every call that has a group keeps it. -/
theorem inherit_eq_self {group : Option Text} {f : Forest Node}
    (h : ∀ n ∈ f.walk, ∀ c, n.call? = some c →
      c.group ≠ none ∧ Text.nonempty? c.group = c.group) : inherit group f = f := by
  induction f generalizing group with
  | nil => rfl
  | node n below after ihb iha =>
    have hn : n.withGroup (n.nearestGroup group) = n := by
      refine Node.mapCall_eq_self fun c hc => ?_
      obtain ⟨hsome, hown⟩ := h n (by simp [Forest.walk]) c hc
      obtain ⟨g, hg⟩ := Option.ne_none_iff_exists'.1 hsome
      rw [Node.nearestGroup_of_call hc, hown, hg, Option.some_or, ← hg]
    rw [inherit_node, hn, ihb fun m hm => h m (by simp [Forest.walk, hm]),
      iha fun m hm => h m (by simp [Forest.walk, hm])]

/-! ## Links -/

/-- Linking changes nothing but links. -/
theorem map_resolve {β : Type} {g : Node → β}
    (hg : ∀ (link : Call → Json) n, g (n.mapCall fun c => { c with link := link c }) = g n)
    (links : Links) (f : Forest Node) : (resolve links f).map g = f.map g := by
  unfold resolve
  split
  · rfl
  · rw [Forest.map_map]
    exact Forest.map_congr fun n _ => hg _ n

/-- Linking commutes with a change of nodes that keeps their identifiers. -/
theorem resolve_map {h : Node → Node}
    (hlink : ∀ (link : Text → Json) n,
      h (n.mapCall fun c => { c with link := link c.identifier })
        = (h n).mapCall fun c => { c with link := link c.identifier })
    (links : Links) (f : Forest Node) : resolve links (f.map h) = (resolve links f).map h := by
  unfold resolve
  split
  · rfl
  · rw [Forest.map_map, Forest.map_map]
    refine Forest.map_congr ?_
    intro n _
    exact (hlink (fun identifier => (Json.field? identifier links).getD .null) n).symm

theorem resolve_moved (m : Int × Text × Int → Int × Text × Int) (links : Links)
    (f : Forest Node) : resolve links (f.map (Node.moved m)) = (resolve links f).map (Node.moved m) :=
  resolve_map (h := Node.moved m) (fun _ n => Node.moved_mapCall m n _) links f

theorem map_place_resolve (links : Links) (f : Forest Node) :
    (resolve links f).map Node.place = f.map Node.place :=
  map_resolve (fun _ _ => Node.place_mapCall _ _) links f

/-! ## The first level -/

/-- What is wrong with a statement at the first level. -/
def Statement.rootComplaint? : Statement → Option Complaint
  | .call c =>
      match Text.nonempty? c.group with
      | some _ => none
      | none => some .rootWithoutGroup
  | _ => some .rootNotComponent

/-- A node of the first level is blamed for what it says, at the line it came from. -/
theorem rootFault?_eq_map (n : Node) :
    rootFault? n
      = n.statement.rootComplaint?.map fun complaint => ⟨complaint, n.index, n.source⟩ := by
  obtain ⟨index, source, indent, statement⟩ := n
  cases statement with
  | call c =>
    cases hc : Text.nonempty? c.group <;> simp [rootFault?, Statement.rootComplaint?, hc]
  | _ => rfl

theorem place_of_rootFault? {n : Node} {e : ParseError} (h : rootFault? n = some e) :
    e.index = n.index ∧ e.content = n.source := by
  rw [rootFault?_eq_map] at h
  obtain ⟨complaint, -, rfl⟩ := Option.map_eq_some_iff.1 h
  exact ⟨rfl, rfl⟩

/-- A node of the first level is in order if it is a call with a group. -/
theorem rootFault?_eq_none_iff {n : Node} :
    rootFault? n = none ↔ ∃ c g, n.call? = some c ∧ Text.nonempty? c.group = some g := by
  obtain ⟨index, source, indent, statement⟩ := n
  cases statement with
  | call c =>
    cases hc : Text.nonempty? c.group <;> simp [rootFault?, Node.call?, Statement.call?, hc]
  | _ => simp [rootFault?, Node.call?, Statement.call?]

theorem rootFault?_nearestGroup {n : Node} (h : rootFault? n = none) :
    rootFault? (n.withGroup (n.nearestGroup none)) = none := by
  obtain ⟨c, g, hc, hgroup⟩ := rootFault?_eq_none_iff.1 h
  obtain ⟨-, hne⟩ := Text.nonempty?_eq_some_iff.1 hgroup
  rw [Node.nearestGroup_of_call hc, hgroup]
  exact rootFault?_eq_none_iff.2 ⟨{ c with group := some g }, g,
    by rw [Node.withGroup, Node.call?_mapCall, hc]; rfl, Text.nonempty?_eq_some_iff.2 ⟨rfl, hne⟩⟩

theorem rootFault?_mapCall {f : Call → Call} (hf : ∀ c, (f c).group = c.group) {n : Node}
    (h : rootFault? n = none) : rootFault? (n.mapCall f) = none := by
  obtain ⟨c, g, hc, hgroup⟩ := rootFault?_eq_none_iff.1 h
  exact rootFault?_eq_none_iff.2 ⟨f c, g, by rw [Node.call?_mapCall, hc]; rfl, by rw [hf, hgroup]⟩

end CallDiagram
