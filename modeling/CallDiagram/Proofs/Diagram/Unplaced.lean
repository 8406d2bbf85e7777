import CallDiagram.Proofs.Diagram.Sections

/-!
# What is shown of a forest

Neither the outline nor the diagram of a forest looks at the lines that its nodes came from, and the
diagram does not look at indents either.

* `Node.unplaced` — a node without its line;
* `outline_eq_of_unplaced` — forests that agree up to lines have one outline;
* `diagram_moved` — if the top nodes are calls, the diagram is the same at any places;
* `diagram_eq_of_unplaced` — forests that agree up to lines have one diagram.
-/

namespace CallDiagram

/-- The node without the line it came from. -/
def Node.unplaced (n : Node) : Node := { n with index := 0, source := [] }

@[simp] theorem Node.call?_unplaced (n : Node) : n.unplaced.call? = n.call? := rfl

/-! ## Outlines -/

theorem outline_unplaced (f : Forest Node) : outline (f.map Node.unplaced) = outline f := by
  rw [outline, Forest.walk_map, List.flatMap_map]
  rfl

theorem outline_eq_of_unplaced {f g : Forest Node}
    (h : g.map Node.unplaced = f.map Node.unplaced) : outline g = outline f := by
  rw [← outline_unplaced g, h, outline_unplaced]

/-! ## Diagrams -/

section Moved

variable (m : Int × Text × Int → Int × Text × Int)

theorem map_statement_first?_moved (f : Forest Node) :
    (f.map (Node.moved m)).first?.map Node.statement = f.first?.map Node.statement := by
  cases f <;> rfl

theorem callGraph_moved (p : Participants) (caller : Option Call) (before : Option Statement)
    (f : Forest Node) :
    callGraph p caller before (f.map (Node.moved m)) = callGraph p caller before f := by
  induction f generalizing caller before with
  | nil => rfl
  | node n below after ihb iha =>
    simp only [Forest.map, callGraph, Node.statement_moved, Node.call?_moved, ihb, iha,
      map_statement_first?_moved]

theorem ofForest_moved (f : Forest Node) :
    Participants.ofForest (f.map (Node.moved m)) = Participants.ofForest f := by
  rw [Participants.ofForest, Forest.walk_map, List.filterMap_map]
  rfl

theorem sectionOf_moved (c : Call) (n : Node) (below : Forest Node) :
    sectionOf c (n.moved m) (below.map (Node.moved m)) = sectionOf c n below := by
  have htree : Forest.node (n.moved m) (below.map (Node.moved m)) .nil
      = (Forest.node n below .nil).map (Node.moved m) := rfl
  simp only [sectionOf, htree, callGraph_moved, ofForest_moved]

/-- The section of a tree does not look at places. -/
theorem treeSection_moved (t : Node × Forest Node) :
    treeSection (t.1.moved m, t.2.map (Node.moved m)) = treeSection t := by
  unfold treeSection
  rw [Node.call?_moved]
  cases t.1.call? with
  | none => rfl
  | some c => exact sectionOf_moved m c t.1 t.2

/-- If its top nodes are calls, the diagram of a forest does not look at places. -/
theorem diagram_moved {f : Forest Node} (h : ∀ n ∈ f.tops, n.call?.isSome) :
    diagram (f.map (Node.moved m)) = diagram f := by
  by_cases hne : f = .nil
  · rw [hne]
    rfl
  · obtain ⟨first, hfirst⟩ := exists_first?_call hne h
    have hfirst' : (f.map (Node.moved m)).first?.bind Node.call? = some first := by
      rw [Forest.first?_map, Option.bind_map]
      exact hfirst
    have htops : ∀ n ∈ (f.map (Node.moved m)).tops, n.call?.isSome := by
      simpa [Forest.tops_map] using h
    rw [diagram_eq_ok hfirst h, diagram_eq_ok hfirst' htops, Forest.trees_map, List.flatMap_map]
    simp only [treeSection_moved]

end Moved

theorem diagram_unplaced {f : Forest Node} (h : ∀ n ∈ f.tops, n.call?.isSome) :
    diagram (f.map Node.unplaced) = diagram f :=
  diagram_moved (fun p => (0, [], p.2.2)) h

/-- A forest with a tree has a diagram if its top nodes are calls. -/
theorem exists_diagram {f : Forest Node} (hne : f ≠ .nil) (h : ∀ n ∈ f.tops, n.call?.isSome) :
    ∃ body, diagram f = .ok body ∧ diagram (f.map Node.unplaced) = .ok body := by
  obtain ⟨first, hfirst⟩ := exists_first?_call hne h
  exact ⟨_, diagram_eq_ok hfirst h, (diagram_unplaced h).trans (diagram_eq_ok hfirst h)⟩

theorem isSome_call?_of_unplaced {f g : Forest Node}
    (h : g.map Node.unplaced = f.map Node.unplaced) (hf : ∀ n ∈ f.tops, n.call?.isSome) :
    ∀ n ∈ g.tops, n.call?.isSome := by
  intro n hn
  have hmem : n.unplaced ∈ (f.map Node.unplaced).tops := by
    rw [← h, Forest.tops_map]
    exact List.mem_map_of_mem hn
  rw [Forest.tops_map] at hmem
  obtain ⟨m, hm, heq⟩ := List.mem_map.1 hmem
  rw [← Node.call?_unplaced, ← heq, Node.call?_unplaced]
  exact hf m hm

theorem diagram_eq_of_unplaced {f g : Forest Node}
    (h : g.map Node.unplaced = f.map Node.unplaced) (hf : ∀ n ∈ f.tops, n.call?.isSome) :
    diagram g = diagram f := by
  rw [← diagram_unplaced (isSome_call?_of_unplaced h hf), h, diagram_unplaced hf]

end CallDiagram
