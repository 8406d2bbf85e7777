import CallDiagram.Proofs.Document.Reading
import CallDiagram.Proofs.Forest.Hanging
import Mathlib

/-!
# The forest is the one that the indents say

* `LiesAbove` — a node stands before another and is indented less;
* `LaidOut` — what it means that a forest is the one determined by the indents of a document: who
  is listed, in which order, and who hangs from whom;
* `laidOut_of_parseLimited` — every document that is accepted makes such a forest.
-/

namespace CallDiagram

/-- The node at position `j` of the walk stands before the one at `i` and is indented less. -/
def LiesAbove (f : Forest Node) (i j : Nat) : Prop :=
  j < i ∧ ∃ m n, f.walk[j]? = some m ∧ f.walk[i]? = some n ∧ m.indent < n.indent

/-- The forest is the one that the indents of the document determine. -/
structure LaidOut (document : List Text) (f : Forest Node) : Prop where
  /-- Walking one tree after the other meets the lines that are not blank, once each and in order,
  with their numbers from one. -/
  lines : (f.trees.flatMap fun t => (Forest.node t.1 t.2 .nil).walk).map
      (fun n => (n.lineNumber, n.source, n.indent))
    = (writtenLines document).map fun l => ((l.2 : Int) + 1, l.1, (indentOf l.1 : Int))
  /-- The line numbers ascend. -/
  ascending : (f.walk.map Node.lineNumber).Pairwise (· < ·)
  /-- The lineages go through the walk. -/
  nodes : (lineages f).map Lineage.node = f.walk
  /-- The parent of a node is the last of all nodes that lie above it. -/
  parent_iff : ∀ i l p, (lineages f)[i]? = some l →
    (l.parent = some p ↔
      ∃ j, f.walk[j]? = some p ∧ LiesAbove f i j ∧ ∀ k, LiesAbove f i k → k ≤ j)
  /-- One pass over the nodes with the stack of open ones finds the same parents. -/
  openRun : (lineages f).map (fun l => (l.node, l.parent)) = Forest.openRun Node.indent [] f.walk
  /-- A node without a parent is one that no node lies above. -/
  root_iff : ∀ i l, (lineages f)[i]? = some l → (l.parent = none ↔ ∀ j, ¬ LiesAbove f i j)
  /-- The first level lists the nodes without a parent, in document order. -/
  tops : f.tops = ((lineages f).filter fun l => l.parent.isNone).map Lineage.node
  /-- Every node lists the nodes whose parent it is, in document order. -/
  children : ∀ t ∈ f.subtrees, t.2.tops
    = ((lineages f).filter fun l => l.parent.map Node.lineNumber == some t.1.lineNumber).map
        Lineage.node

/-! ## Lineages and parents -/

theorem map_lineagesBelow (parent : Option Node) (caller : Option Call) (f : Forest Node) :
    (lineagesBelow parent caller f).map (fun l => (l.node, l.parent))
      = f.parentsBelow parent := by
  induction f generalizing parent caller with
  | nil => rfl
  | node n below after ihb iha => simp [lineagesBelow, Forest.parentsBelow, ihb, iha]

theorem map_lineages (f : Forest Node) :
    (lineages f).map (fun l => (l.node, l.parent)) = f.parents :=
  map_lineagesBelow none none f

theorem map_node_lineages (f : Forest Node) : (lineages f).map Lineage.node = f.walk := by
  rw [← Forest.map_fst_parentsBelow none f, ← Forest.parents, ← map_lineages, List.map_map]
  rfl

/-- In a forest hung by its indents the parent of a node is the nearest one before it that is
indented less. -/
theorem parent_eq_nearest {f : Forest Node} (hf : f = Forest.ofList Node.indent f.walk)
    {i : Nat} {l : Lineage} (hl : (lineages f)[i]? = some l) :
    f.walk[i]? = some l.node ∧
      l.parent = Forest.nearest Node.indent (f.walk.take i).reverse l.node := by
  have hentry : f.parents[i]? = some (l.node, l.parent) := by
    rw [← map_lineages, List.getElem?_map, hl, Option.map_some]
  have hlaw := Forest.getElem?_parents_ofList Node.indent f.walk i
  rw [← hf, hentry] at hlaw
  obtain ⟨n, hn, heq⟩ := Option.map_eq_some_iff.1 hlaw.symm
  obtain ⟨rfl, hparent⟩ := Prod.mk.inj heq
  exact ⟨hn, hparent.symm⟩

theorem liesAbove_iff {f : Forest Node} {i j : Nat} {n : Node} (hn : f.walk[i]? = some n) :
    LiesAbove f i j ↔ j < i ∧ ∃ m, f.walk[j]? = some m ∧ m.indent < n.indent := by
  simp [LiesAbove, hn]

theorem parent_eq_some_iff {f : Forest Node} (hf : f = Forest.ofList Node.indent f.walk)
    {i : Nat} {l : Lineage} (hl : (lineages f)[i]? = some l) {p : Node} :
    l.parent = some p ↔
      ∃ j, f.walk[j]? = some p ∧ LiesAbove f i j ∧ ∀ k, LiesAbove f i k → k ≤ j := by
  obtain ⟨hn, hparent⟩ := parent_eq_nearest hf hl
  rw [hparent, Forest.nearest_eq_some_iff]
  simp only [liesAbove_iff hn]
  constructor
  · rintro ⟨j, hj, hp, hlt, hmax⟩
    exact ⟨j, hp, ⟨hj, p, hp, hlt⟩, fun k ⟨hk, m, hm, hmlt⟩ => hmax k m hk hm hmlt⟩
  · rintro ⟨j, hp, ⟨hj, m, hm, hlt⟩, hmax⟩
    obtain rfl : m = p := Option.some.inj (hm.symm.trans hp)
    exact ⟨j, hj, hp, hlt, fun k c hk hc hclt => hmax k ⟨hk, c, hc, hclt⟩⟩

theorem parent_eq_none_iff {f : Forest Node} (hf : f = Forest.ofList Node.indent f.walk)
    {i : Nat} {l : Lineage} (hl : (lineages f)[i]? = some l) :
    l.parent = none ↔ ∀ j, ¬ LiesAbove f i j := by
  obtain ⟨hn, hparent⟩ := parent_eq_nearest hf hl
  rw [hparent, Forest.nearest_eq_none_iff]
  simp only [liesAbove_iff hn]
  constructor
  · rintro h j ⟨hj, m, hm, hlt⟩
    exact h j m hj hm hlt
  · intro h j m hj hm hlt
    exact h j ⟨hj, m, hm, hlt⟩

/-! ## Lists of nodes -/

theorem map_node_filter_lineages (f : Forest Node) (p : Option Node → Bool) :
    ((lineages f).filter fun l => p l.parent).map Lineage.node
      = (f.parents.filter fun e => p e.2).map Prod.fst := by
  rw [← map_lineages, List.filter_map, List.map_map]
  rfl

theorem tops_eq_filter_lineages (f : Forest Node) :
    f.tops = ((lineages f).filter fun l => l.parent.isNone).map Lineage.node := by
  rw [map_node_filter_lineages f Option.isNone, Forest.tops_eq_filterMap,
    ← List.filterMap_eq_map, List.filterMap_filter]
  rfl

/-- The lines that are not blank have ascending numbers. -/
theorem pairwise_writtenLines (document : List Text) :
    ((writtenLines document).map Prod.snd).Pairwise (· < ·) := by
  have hall : (document.zipIdx.map Prod.snd).Pairwise (· < ·) := by
    rw [List.zipIdx_map_snd]
    exact List.pairwise_lt_range'
  exact hall.sublist (List.Sublist.map _ List.filter_sublist)

theorem pairwise_lineNumber {counter : Counter} {links : Links} {document : List Text}
    {f : Forest Node} (h : (parse counter links document).1 = .ok f) :
    (f.walk.map Node.lineNumber).Pairwise (· < ·) := by
  have hplace := congrArg (List.map fun p : Int × Text × Int => p.1 + 1) (map_place_walk h)
  rw [List.map_map, List.map_map] at hplace
  have hnumber : f.walk.map Node.lineNumber
      = ((writtenLines document).map Prod.snd).map fun i : Nat => (i : Int) + 1 := by
    rw [List.map_map]
    exact hplace
  rw [hnumber]
  exact (pairwise_writtenLines document).map _ fun a b hab => by omega

/-! ## The law -/

/-- Every document that is accepted makes the forest that its indents determine. -/
theorem laidOut_of_parseLimited {counter : Counter} {links : Links} {document : List Text}
    {f : Forest Node} (h : (parseLimited counter links document).1 = .ok f) :
    LaidOut document f := by
  obtain ⟨-, hparse⟩ := parseLimited_eq_ok_iff.1 h
  have hf := eq_ofList_walk_of_parse hparse
  have hascending := pairwise_lineNumber hparse
  refine ⟨?lines, hascending, map_node_lineages f, fun _ _ _ hl => parent_eq_some_iff hf hl,
    ?openRun, fun _ _ hl => parent_eq_none_iff hf hl, tops_eq_filter_lineages f, ?children⟩
  case lines =>
    have hplace := congrArg (List.map fun p : Int × Text × Int => (p.1 + 1, p.2.1, p.2.2))
      (map_place_walk hparse)
    rw [List.map_map, List.map_map] at hplace
    rw [Forest.flatMap_trees]
    exact hplace
  case openRun =>
    have hrun := Forest.parents_ofList_eq_openRun Node.indent f.walk
    rwa [← hf, ← map_lineages] at hrun
  case children =>
    intro t ht
    have hnodup : (f.walk.map Node.lineNumber).Nodup :=
      hascending.imp fun hab => by omega
    rw [map_node_filter_lineages f fun p => p.map Node.lineNumber == some t.1.lineNumber]
    exact Forest.tops_eq_hangingFrom Node.lineNumber hnodup ht

/-- A document with ragged indents: a first line that is indented, children at different depths, a
return to a column that was never left, and a second root. -/
theorem laidOut_ragged :
    ∃ f, (parseLimited {} [] ["   A#f()", "        loop x", "", "          g()",
        "      B#g(): a < b", "     else", "  C#h()"]).1 = .ok f ∧
      LaidOut ["   A#f()", "        loop x", "", "          g()", "      B#g(): a < b",
        "     else", "  C#h()"] f := by
  obtain ⟨f, hf⟩ : ∃ f, (parseLimited {} [] ["   A#f()", "        loop x", "", "          g()",
      "      B#g(): a < b", "     else", "  C#h()"]).1 = .ok f := ⟨_, by cbv⟩
  exact ⟨f, hf, laidOut_of_parseLimited hf⟩

end CallDiagram
