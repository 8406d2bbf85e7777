import CallDiagram.Proofs.Diagram.Counting

/-!
# Closed references

Every alias that a section uses is declared in that section, once, for the first call of the
component that is meant; no alias of a document is declared twice.

* `Line.used`, `addressed` — the aliases that the directives of a section use, and the calls that
  are meant by them;
* `used_callGraph` — a call graph uses the aliases that stand for these calls;
* `ClosedSection`, `ClosedReferences` — what is declared;
* `closedReferences_of_parseLimited`, `closedReferences_printed` — the diagrams of documents, as
  directives and as text.
-/

namespace CallDiagram

/-! ## What a call graph uses -/

/-- The aliases that a directive uses. -/
def Line.used : Line → List Text
  | .arrow caller callee _ => [caller, callee]
  | .answer callee caller _ => [callee, caller]
  | .activate name => [name]
  | .deactivate name => [name]
  | _ => []

/-- The calls that are meant at the start of a statement: the arrow to a call leaves the caller,
then the call is activated. -/
def addressedFirst (caller : Option Call) : Statement → List Call
  | .call c => (match caller with | some above => [above, c] | none => []) ++ [c]
  | _ => []

/-- The calls that are meant at the end of a statement: the arrow back leads to the caller, then
the call is deactivated. -/
def addressedLast (caller : Option Call) : Statement → List Call
  | .call c => (match caller with | some above => [c, above] | none => []) ++ [c]
  | _ => []

/-- The calls that are meant by the aliases that a forest below a call uses, in order.  Bare nodes
are left out with everything below them. -/
def addressed (caller : Option Call) : Forest Node → List Call
  | .nil => []
  | .node n below after =>
      (if n.statement.isBlock then
        addressedFirst caller n.statement ++ addressed (n.call? <|> caller) below
          ++ addressedLast caller n.statement
      else [])
        ++ addressed caller after

section CallGraph

variable (p : Participants)

theorem used_enter (caller : Option Call) (before : Option Statement) (s : Statement) :
    (enter p caller before s).flatMap Line.used = (addressedFirst caller s).map p.aliasOf := by
  cases s with
  | call c => cases caller <;> rfl
  | alternative note =>
    rw [enter]
    cases before.any Statement.isBranch <;> rfl
  | _ => rfl

theorem used_leave (caller : Option Call) (next : Option Statement) (s : Statement) :
    (leave p caller next s).flatMap Line.used = (addressedLast caller s).map p.aliasOf := by
  have hbranch : ∀ last : Bool, (if last then [] else [Line.endAlt]).flatMap Line.used = [] := by
    intro last
    cases last <;> rfl
  cases s with
  | call c => cases caller <;> rfl
  | condition note => exact hbranch _
  | alternative note => exact hbranch _
  | _ => rfl

/-- A call graph uses the aliases that stand for the calls that are meant. -/
theorem used_callGraph (caller : Option Call) (before : Option Statement) (f : Forest Node) :
    (callGraph p caller before f).flatMap Line.used = (addressed caller f).map p.aliasOf := by
  induction f generalizing caller before with
  | nil => rfl
  | node n below after ihb iha =>
    rw [callGraph, addressed, List.flatMap_append, List.map_append, iha]
    split
    · simp only [List.flatMap_append, List.map_append, used_enter, used_leave, ihb]
    · rfl

end CallGraph

theorem mem_addressedFirst {caller : Option Call} {s : Statement} {d : Call}
    (h : d ∈ addressedFirst caller s) : s.call? = some d ∨ caller = some d := by
  cases s with
  | call c => cases caller <;> simp_all [addressedFirst, Statement.call?, eq_comm, or_comm]
  | _ => simp [addressedFirst] at h

theorem mem_addressedLast {caller : Option Call} {s : Statement} {d : Call}
    (h : d ∈ addressedLast caller s) : s.call? = some d ∨ caller = some d := by
  cases s with
  | call c =>
    cases caller with
    | none => simp_all [addressedLast, Statement.call?]
    | some above =>
      simp only [addressedLast, List.mem_append, List.mem_cons, List.not_mem_nil, or_false] at h
      rcases h with (rfl | rfl) | rfl
      · exact Or.inl rfl
      · exact Or.inr rfl
      · exact Or.inl rfl
  | _ => simp [addressedLast] at h

/-- The calls that are meant belong to the forest, or are the call above it. -/
theorem mem_callsOf_of_mem_addressed {caller : Option Call} {f : Forest Node} {d : Call}
    (h : d ∈ addressed caller f) : d ∈ callsOf f ∨ caller = some d := by
  induction f generalizing caller with
  | nil => simp [addressed] at h
  | node n below after ihb iha =>
    rw [callsOf_node, List.mem_append, List.mem_append, Option.mem_toList]
    have hself : n.call? = some d ∨ caller = some d →
        (n.call? = some d ∨ d ∈ callsOf below ∨ d ∈ callsOf after) ∨ caller = some d :=
      Or.imp_left Or.inl
    rw [addressed, List.mem_append] at h
    rcases h with h | h
    · split at h
      · rcases List.mem_append.1 h with h | h
        · rcases List.mem_append.1 h with h | h
          · exact hself (mem_addressedFirst h)
          · rcases ihb h with h | h
            · exact Or.inl (Or.inr (Or.inl h))
            · exact hself (by cases hn : n.call? <;> simp_all)
        · exact hself (mem_addressedLast h)
      · simp at h
    · exact (iha h).imp_left fun hafter => Or.inr (Or.inr hafter)

/-! ## Closed sections -/

/-- The lines of the section of a tree declare what they use. -/
structure ClosedSection (tree : Forest Node) (lines : List Line) : Prop where
  /-- Arrows, activations and deactivations use the aliases that stand for the calls of the tree
  that they are about. -/
  used : lines.flatMap Line.used = (addressed none tree).map (Participants.ofForest tree).aliasOf
  inside : ∀ d ∈ addressed none tree, d ∈ callsOf tree
  /-- What stands for a call is the alias of the first call of its component, which is known, and
  declared by one line, the participant of this first call. -/
  declared : ∀ d ∈ callsOf tree, ∃ e,
    ((callsOf tree).find? fun c => c.component = d.component) = some e ∧
      (Participants.ofForest tree).aliasFor? d.identifier = some e.aliasName ∧
      Participants.declaration e ∈ lines ∧ e.declared ∈ declarationsIn none lines ∧
      ((declarationsIn none lines).map Declaration.aliasName).count e.aliasName = 1
  /-- Calls of different components have different aliases. -/
  apart : ∀ d ∈ callsOf tree, ∀ d' ∈ callsOf tree,
    (Participants.ofForest tree).aliasOf d = (Participants.ofForest tree).aliasOf d' →
      d.component = d'.component

/-- A diagram consists of closed sections that declare no alias twice.  This is about directives,
whose aliases are the texts that the counter hands out, whatever they are; each directive is a line
of its own in the printed text if these texts, like the links, hold no line break. -/
structure ClosedReferences (f : Forest Node) (lines : List Line) : Prop where
  /-- Each tree has a section, between a preamble and a closing line. -/
  sections : ∃ first, f.first?.bind Node.call? = some first ∧
    lines = preamble first ++ f.trees.flatMap treeSection ++ [.closing]
  closed : ∀ t ∈ f.trees, ClosedSection (Forest.single t) (treeSection t)
  /-- No alias is declared twice, not even by two sections. -/
  distinct : ((declarationsIn none lines).map Declaration.aliasName).Nodup

theorem mem_lines_of_mem_declared {p : Participants} {e : Call} (h : e ∈ p.declared) :
    Participants.declaration e ∈ p.lines := by
  obtain ⟨box, hbox, he⟩ := List.mem_flatMap.1 h
  refine List.mem_flatMap.2 ⟨box, hbox, ?_⟩
  exact List.mem_cons_of_mem _ (List.mem_append_left _ (List.mem_map_of_mem he))

theorem used_of_isDeclaring {lines : List Line} (h : ∀ l ∈ lines, l.isDeclaring = true) :
    lines.flatMap Line.used = [] := by
  rw [List.flatMap_eq_nil_iff]
  intro l hl
  have := h l hl
  cases l <;> simp_all [Line.isDeclaring, Line.used]

/-- The section of a tree is closed if its calls are named and have aliases of their own. -/
theorem closedSection_treeSection {t : Node × Forest Node} {c : Call} (hc : t.1.call? = some c)
    (h : Distinct (callsOf (Forest.single t))) :
    ClosedSection (Forest.single t) (treeSection t) := by
  have hdeclarations := declarationsIn_treeSection hc []
  rw [List.append_nil, declarationsIn, List.append_nil] at hdeclarations
  have haliases : (declarationsIn none (treeSection t)).map Declaration.aliasName
      = (Participants.ofForest (Forest.single t)).declared.map Call.aliasName := by
    rw [hdeclarations, List.map_map]
    rfl
  refine ⟨?used, fun d hd => ?inside, fun d hd => ?declared, fun d hd d' hd' heq => ?apart⟩
  case used =>
    have hheading : ∀ lines, (Line.heading (headingOf c) :: lines).flatMap Line.used
        = lines.flatMap Line.used := fun _ => rfl
    rw [treeSection_of_call hc, hheading, List.flatMap_append,
      used_of_isDeclaring (isDeclaring_lines _), List.nil_append, used_callGraph]
  case inside => exact (mem_callsOf_of_mem_addressed hd).resolve_right (by simp)
  case declared =>
    obtain ⟨e, hfirst, hknown, hdeclared⟩ := exists_first h hd
    refine ⟨e, hfirst, hknown, ?_, ?_, ?_⟩
    · rw [treeSection_of_call hc]
      exact List.mem_cons_of_mem _ (List.mem_append_left _ (mem_lines_of_mem_declared hdeclared))
    · rw [hdeclarations]
      exact List.mem_map_of_mem hdeclared
    · rw [haliases]
      exact List.count_eq_one_of_mem (nodup_declared h.nodup) (List.mem_map_of_mem hdeclared)
  case apart => exact component_eq_of_aliasOf_eq h h rfl hd hd' heq

/-! ## Documents -/

/-- The sections of trees declare the first calls of the components of each tree. -/
theorem declarationsIn_flatMap_treeSection {trees : List (Node × Forest Node)}
    (h : ∀ t ∈ trees, ∃ c, t.1.call? = some c) (rest : List Line) :
    declarationsIn none (trees.flatMap treeSection ++ rest)
      = (trees.flatMap fun t =>
          (Participants.ofForest (Forest.single t)).declared.map Call.declared)
        ++ declarationsIn none rest := by
  induction trees with
  | nil => rfl
  | cons t trees ih =>
    obtain ⟨c, hc⟩ := h t List.mem_cons_self
    rw [List.flatMap_cons, List.append_assoc, declarationsIn_treeSection hc,
      ih fun u hu => h u (List.mem_cons_of_mem _ hu), List.flatMap_cons, List.append_assoc]

/-- The aliases that are declared for the trees of a forest are some of those of its calls. -/
theorem nodup_declared_trees {f : Forest Node} (h : ((callsOf f).map Call.aliasName).Nodup) :
    (f.trees.flatMap fun t =>
      (Participants.ofForest (Forest.single t)).declared.map Call.aliasName).Nodup := by
  have hperm : (f.trees.flatMap fun t =>
        (Participants.ofForest (Forest.single t)).declared.map Call.aliasName).Perm
      (f.trees.flatMap fun t =>
        (firstsBy Call.identifier (callsOf (Forest.single t))).map Call.aliasName) :=
    List.Perm.flatMap_left _ fun t _ => (Participants.declared_ofCalls _).map Call.aliasName
  have hsub : (f.trees.flatMap fun t =>
        (firstsBy Call.identifier (callsOf (Forest.single t))).map Call.aliasName).Sublist
      (f.trees.flatMap fun t => (callsOf (Forest.single t)).map Call.aliasName) :=
    List.Sublist.flatMap_right _ fun t _ =>
      (firstsBy_sublist Call.identifier _).map Call.aliasName
  rw [← flatMap_callsOf_trees, List.map_flatMap] at h
  exact hperm.nodup_iff.2 (h.sublist hsub)

theorem exists_closedReferences {counter : Counter} {links : Links} {document : List Text}
    {f : Forest Node} (hparse : (parse counter links document).1 = .ok f) (hne : f ≠ .nil) :
    ∃ lines, diagram f = .ok lines ∧ ClosedReferences f lines := by
  have hdistinct := distinct_of_parse hparse
  obtain ⟨first, -, hfirst, hdiagram⟩ := exists_diagram_of_parse hparse hne
  refine ⟨_, hdiagram, ⟨first, hfirst, rfl⟩, fun t ht => ?closed, ?distinct⟩
  case closed =>
    obtain ⟨c, hc⟩ := exists_call?_of_mem_trees hparse ht
    exact closedSection_treeSection hc (distinct_of_mem_trees hdistinct ht)
  case distinct =>
    have hpreamble : ∀ l ∈ preamble first, l.isDeclaring = false := by
      simp [preamble, Line.isDeclaring]
    rw [List.append_assoc, declarationsIn_append_of_not_declaring hpreamble,
      declarationsIn_flatMap_treeSection fun t ht => exists_call?_of_mem_trees hparse ht,
      List.map_append, List.map_flatMap]
    simpa [declarationsIn, Function.comp_def, Call.declared] using
      nodup_declared_trees hdistinct.nodup

/-- In the diagram of a document every alias that a section uses is declared there, once, for the
first call of the component that is meant, and no alias is declared twice. -/
theorem closedReferences_of_parseLimited {counter : Counter} {links : Links}
    {document : List Text} {f : Forest Node}
    (h : (parseLimited counter links document).1 = .ok f) (hne : f ≠ .nil) :
    ∃ lines, diagram f = .ok lines ∧ ClosedReferences f lines := by
  obtain ⟨-, hparse⟩ := parseLimited_eq_ok_iff.1 h
  exact exists_closedReferences hparse hne

/-- A component that is called twice and calls itself, two methods of one name, and a second section
that declares a component of the first one again. -/
theorem closedReferences_shared :
    ∃ f, (parseLimited { stem := ['P', '-'], next := -1 } [(['A', '#', 'f'], .str ['u'])]
        ["A#f()", "  g(): x", "  loop y", "    B#g()", "    f()", "  g()", "B#g()"]).1 = .ok f ∧
      f ≠ .nil ∧ ∃ lines, diagram f = .ok lines ∧ ClosedReferences f lines := by
  obtain ⟨n, below, after, hf⟩ : ∃ n below after, (parseLimited { stem := ['P', '-'], next := -1 }
      [(['A', '#', 'f'], .str ['u'])]
      ["A#f()", "  g(): x", "  loop y", "    B#g()", "    f()", "  g()", "B#g()"]).1
        = .ok (.node n below after) := ⟨_, _, _, by cbv⟩
  exact ⟨_, hf, by simp, closedReferences_of_parseLimited hf (by simp)⟩

/-- If neither the beginning of the aliases nor a link holds a line break, the lines of the printed
diagram are its directives, and what these use is declared by them. -/
theorem closedReferences_printed {counter : Counter} {links : Links} {document : List Text}
    {f : Forest Node} (hstem : '\n' ∉ counter.stem) (hlinks : ∀ l ∈ links, '\n' ∉ l.2.display)
    (h : (parseLimited counter links document).1 = .ok f) (hne : f ≠ .nil) :
    ∃ lines text, diagramText f = .ok text ∧ Text.pieces '\n' text = lines.map Line.text ∧
      ClosedReferences f lines := by
  obtain ⟨-, hparse⟩ := parseLimited_eq_ok_iff.1 h
  obtain ⟨lines, hdiagram, hclosed⟩ := exists_closedReferences hparse hne
  exact ⟨lines, Line.document lines, diagramText_eq_ok hdiagram,
    pieces_diagram hstem hlinks hparse hdiagram, hclosed⟩

end CallDiagram
