import CallDiagram.Proofs.Diagram.Links
import CallDiagram.Proofs.Json.Fields
import CallDiagram.Proofs.Diagram.Unambiguous
import CallDiagram.Proofs.Document.Composition
import Mathlib

/-!
# Lines of diagrams

The number of lines of a diagram depends on the statements of its trees alone.  No text that a
document or a link brings along adds, splits or swallows a line.

* `Statement.startsChain`, `chainCount` — the chains of branches in a forest;
* `length_callGraph`, `length_lines`, `length_treeSection` — the directives of a section;
* `not_mem_break_treeSection`, `pieces_diagram` — each of them is one line;
* `sectionSize`, `Counted`, `counted_of_parseLimited` — the lines of a document.
-/

namespace CallDiagram

/-! ## What is counted -/

/-- Whether a statement is a loop. -/
def Statement.isLoop : Statement → Bool
  | .loop _ => true
  | _ => false

/-- Whether a statement starts a chain of branches: a condition does, and an alternative that does
not directly follow a branch at its level. -/
def Statement.startsChain (before : Option Statement) : Statement → Bool
  | .condition _ => true
  | .alternative _ => !before.any Statement.isBranch
  | _ => false

/-- The number of nodes of a forest whose statements meet a condition. -/
def countNodes (p : Statement → Bool) (f : Forest Node) : Nat :=
  f.walk.countP fun n => p n.statement

/-- The number of chains that start in a forest behind a statement. -/
def chainCount (before : Option Statement) : Forest Node → Nat
  | .nil => 0
  | .node n below after =>
      (if n.statement.startsChain before then 1 else 0) + chainCount none below
        + chainCount (some n.statement) after

/-- The number of lines of the section of a tree: the heading, two for each group, one for each
component, two for the root, four for every other call, two for each loop, one for each branch and
one for each chain. -/
def sectionSize (tree : Forest Node) : Nat :=
  1 + 2 * ((callsOf tree).map Call.group).dedup.length
    + ((callsOf tree).map Call.component).dedup.length + 2 + 4 * ((callsOf tree).length - 1)
    + 2 * countNodes Statement.isLoop tree + countNodes Statement.isBranch tree
    + chainCount none tree

/-! ## Call graphs -/

theorem countNodes_node (p : Statement → Bool) (n : Node) (below after : Forest Node) :
    countNodes p (.node n below after)
      = (if p n.statement then 1 else 0) + countNodes p below + countNodes p after := by
  simp only [countNodes, Forest.walk, List.countP_cons, List.countP_append]
  omega

/-- The directives at the two ends of a statement below a call.  The end of a chain is counted at
its start, so that a chain which comes from the statement before is left out and one that goes on
behind the statement is put in. -/
theorem length_enter_leave (p : Participants) (caller : Call) (before next : Option Statement)
    {s : Statement} (hs : s.isBlock = true) :
    (enter p (some caller) before s).length + (leave p (some caller) next s).length
        + (if chainOpen (some s) next then 1 else 0)
      = 4 * s.call?.toList.length + 2 * (if s.isLoop then 1 else 0) + (if s.isBranch then 1 else 0)
        + (if s.startsChain before then 1 else 0)
        + (if chainOpen before (some s) then 1 else 0) := by
  cases s with
  | call c => simp [enter, leave, Statement.call?, Statement.isLoop, Statement.isBranch,
      Statement.startsChain, chainOpen, Statement.isAlternative]
  | loop note => simp [enter, leave, Statement.call?, Statement.isLoop, Statement.isBranch,
      Statement.startsChain, chainOpen, Statement.isAlternative]
  | condition note =>
    cases hnext : next.any Statement.isAlternative <;>
      simp [enter, leave, Statement.call?, Statement.isLoop, Statement.isBranch,
        Statement.startsChain, chainOpen, Statement.isAlternative, hnext]
  | alternative note =>
    cases hnext : next.any Statement.isAlternative <;>
      cases hbefore : before.any Statement.isBranch <;>
        simp [enter, leave, Statement.call?, Statement.isLoop, Statement.isBranch,
          Statement.startsChain, chainOpen, Statement.isAlternative, hnext, hbefore]
  | bare => simp [Statement.isBlock] at hs

/-- The directives of a call graph below a call: four for each call, two for each loop, one for each
branch, one for each chain, and the end of the chain that is open in front of it. -/
theorem length_callGraph (p : Participants) (caller : Call) {f : Forest Node}
    (hf : ∀ n ∈ f.walk, n.statement.isBlock = true) (before : Option Statement) :
    (callGraph p (some caller) before f).length
      = 4 * (callsOf f).length + 2 * countNodes Statement.isLoop f
        + countNodes Statement.isBranch f + chainCount before f
        + (if chainOpen before (f.first?.map Node.statement) then 1 else 0) := by
  induction f generalizing caller before with
  | nil => simp [callGraph, callsOf, Forest.walk, countNodes, chainCount, Forest.first?, chainOpen]
  | node n below after ihb iha =>
    obtain ⟨hn, hbelow, hafter⟩ := Forest.forall_mem_walk_node.1 hf
    have hends := length_enter_leave p caller before (after.first?.map Node.statement) hn
    have hcaller : ∃ inner, (n.call? <|> some caller) = some inner := by
      cases n.call? with
      | none => exact ⟨caller, rfl⟩
      | some c => exact ⟨c, rfl⟩
    obtain ⟨inner, hinner⟩ := hcaller
    have hopen : chainOpen none (below.first?.map Node.statement) = false := rfl
    rw [callGraph, if_pos hn, hinner, List.length_append, List.length_append, List.length_append,
      ihb inner hbelow, iha caller hafter, hopen, callsOf_node, List.length_append,
      List.length_append, countNodes_node, countNodes_node, chainCount, Forest.first?,
      Option.map_some, Node.call?]
    simp only [Bool.false_eq_true, if_false]
    omega

/-! ## Sections -/

theorem length_lines (p : Participants) :
    p.lines.length = 2 * p.groups.length + p.declared.length := by
  obtain ⟨groups, aliases⟩ := p
  rw [Participants.lines, Participants.declared]
  induction groups with
  | nil => rfl
  | cons box groups ih =>
    simp only [List.flatMap_cons, List.length_append, List.length_cons, List.length_map,
      List.length_nil] at ih ⊢
    omega

/-- There are as many declarations as components. -/
theorem length_declared {calls : List Call} (h : Distinct calls) :
    (Participants.ofCalls calls).declared.length = (calls.map Call.component).dedup.length := by
  have hlength := Participants.length_eq_length_dedup (nodup_component_declared h.named)
    (m := calls.map Call.component) fun component => by
      rw [List.mem_map, List.mem_map]
      constructor
      · rintro ⟨c, hc, rfl⟩
        exact ⟨c, Participants.mem_of_mem_declared hc, rfl⟩
      · rintro ⟨c, hc, rfl⟩
        obtain ⟨e, hfirst, -, he⟩ := exists_first h hc
        exact ⟨e, he, by simpa using List.find?_some hfirst⟩
  rwa [List.length_map] at hlength

/-- The directives of the section of a tree whose nodes all say something. -/
theorem length_treeSection {t : Node × Forest Node} {c : Call} (hc : t.1.call? = some c)
    (hblock : ∀ n ∈ (Forest.single t).walk, n.statement.isBlock = true)
    (h : Distinct (callsOf (Forest.single t))) :
    (treeSection t).length = sectionSize (Forest.single t) := by
  have hstatement := Node.statement_of_call? hc
  obtain ⟨-, hbelow, -⟩ := Forest.forall_mem_walk_node.1 hblock
  have hgraph := callGraph_single (p := Participants.ofForest (Forest.single t)) hc []
  have hlength := length_callGraph (Participants.ofForest (Forest.single t)) c hbelow none
  have hopen : chainOpen none (t.2.first?.map Node.statement) = false := rfl
  have hlines : (Participants.ofForest (Forest.single t)).lines.length
      = 2 * ((callsOf (Forest.single t)).map Call.group).dedup.length
        + ((callsOf (Forest.single t)).map Call.component).dedup.length := by
    rw [length_lines, Participants.ofForest, ← callsOf, Participants.length_groups_ofCalls,
      length_declared h]
  -- the root is a call and opens no loop and no chain
  have hcalls : (callsOf (Forest.single t)).length = 1 + (callsOf t.2).length := by
    rw [Forest.single, callsOf_node, hc]
    simp [callsOf, Forest.walk, Nat.add_comm]
  have hcount : ∀ p : Statement → Bool, p (.call c) = false →
      countNodes p (Forest.single t) = countNodes p t.2 := by
    intro p hp
    rw [Forest.single, countNodes_node, hstatement, hp]
    simp [countNodes, Forest.walk]
  have hchains : chainCount none (Forest.single t) = chainCount none t.2 := by
    simp [Forest.single, chainCount, hstatement, Statement.startsChain]
  rw [List.append_nil] at hgraph
  rw [treeSection_of_call hc, hgraph, List.length_cons, List.length_append, List.length_cons,
    List.length_append, hlength, hopen, hlines, sectionSize, hcalls, hcount _ rfl, hcount _ rfl,
    hchains]
  simp only [Bool.false_eq_true, if_false, List.length_cons, List.length_nil]
  omega

/-! ## Line breaks -/

/-- The declarations of calls whose links are shown on one line are one line each. -/
theorem not_mem_break_lines {calls : List Call} (h : ∀ c ∈ calls, (Statement.call c).OneLine)
    (halias : ∀ c ∈ calls, '\n' ∉ c.aliasName)
    (hlink : ∀ c ∈ calls, ∀ t ∈ Participants.linkText? c.link, '\n' ∉ t) :
    ∀ l ∈ (Participants.ofCalls calls).lines, '\n' ∉ l.text := by
  intro l hl
  apply Line.not_mem_break_text
  obtain ⟨box, hbox, hl⟩ := List.mem_flatMap.1 hl
  simp only [List.mem_cons, List.mem_append, List.mem_map, List.not_mem_nil, or_false] at hl
  rcases hl with rfl | ⟨e, he, rfl⟩ | rfl
  · obtain ⟨c, hc, hgroup⟩ := Participants.exists_call_of_mem_groups hbox
    have hbreak := not_mem_break_groupText (h c hc)
    rw [hgroup] at hbreak
    simpa [Line.parts] using hbreak
  · have hmem := Participants.mem_of_mem_declared (List.mem_flatMap.2 ⟨box, hbox, he⟩)
    have hshown := hlink e hmem
    simpa [Participants.declaration, Line.parts, not_mem_break_label (h e hmem),
      halias e hmem] using hshown
  · simp [Line.parts]

/-- No directive of a section holds a line break, if the links of its calls do not. -/
theorem not_mem_break_treeSection {t : Node × Forest Node} {c : Call} (hc : t.1.call? = some c)
    (honeLine : ∀ n ∈ (Forest.single t).walk, n.statement.OneLine)
    (halias : ∀ d ∈ callsOf (Forest.single t), '\n' ∉ d.aliasName)
    (hlink : ∀ d ∈ callsOf (Forest.single t), ∀ u ∈ Participants.linkText? d.link, '\n' ∉ u) :
    ∀ l ∈ treeSection t, '\n' ∉ l.text := by
  have hcalls : ∀ d ∈ callsOf (Forest.single t), (Statement.call d).OneLine := by
    intro d hd
    obtain ⟨n, hn, hcall⟩ := List.mem_filterMap.1 hd
    exact Node.statement_of_call? hcall ▸ honeLine n hn
  have hroot := hcalls c (mem_callsOf_of_mem_walk List.mem_cons_self hc)
  intro l hl
  rw [treeSection_of_call hc] at hl
  rcases List.mem_cons.1 hl with rfl | hl
  · exact Line.not_mem_break_text (by simpa [Line.parts] using not_mem_break_headingOf hroot)
  · rcases List.mem_append.1 hl with hl | hl
    · exact not_mem_break_lines hcalls halias hlink l hl
    · have hbreak : ∀ d ∈ callsOf (Forest.single t),
          '\n' ∉ (Participants.ofForest (Forest.single t)).aliasOf d := fun d hd =>
        forall_aliasOf (P := ('\n' ∉ ·)) halias hd
      exact Line.not_mem_break_text (not_mem_break_callGraph honeLine hbreak l hl)

/-! ## Documents -/

/-- The diagram of a forest is split at its line breaks into its directives, five around the
sections, and as many in each section as its tree tells. -/
def Counted (f : Forest Node) : Prop :=
  ∃ lines text, diagram f = .ok lines ∧ diagramText f = .ok text ∧
    Text.pieces '\n' text = lines.map Line.text ∧
    (Text.pieces '\n' text).length
      = 5 + (f.trees.map fun t => sectionSize (Forest.single t)).sum

/-- A statement of single lines says something. -/
theorem isBlock_of_oneLine {s : Statement} (h : s.OneLine) : s.isBlock = true := by
  cases s with
  | bare => exact absurd h id
  | _ => rfl

/-- The links of a document show no line break if those that are looked up do not. -/
theorem not_mem_break_linkText {counter : Counter} {links : Links} {document : List Text}
    {f : Forest Node} (h : (parse counter links document).1 = .ok f)
    (hlinks : ∀ l ∈ links, '\n' ∉ l.2.display) {c : Call} (hc : c ∈ callsOf f) :
    ∀ t ∈ Participants.linkText? c.link, '\n' ∉ t := by
  intro t ht
  obtain ⟨v, hv, -, rfl⟩ := (linkText?_eq_some_iff (linked_of_parse h hc)).1 ht
  exact hlinks _ (Json.mem_of_field? hv)

/-- The aliases of a document hold no line break if their beginning does not. -/
theorem not_mem_break_aliasName {counter : Counter} {links : Links} {document : List Text}
    {f : Forest Node} (hstem : '\n' ∉ counter.stem) (h : (parse counter links document).1 = .ok f)
    {c : Call} (hc : c ∈ callsOf f) : '\n' ∉ c.aliasName := by
  obtain ⟨n, hn, hcall⟩ := List.mem_filterMap.1 hc
  obtain ⟨k, hk⟩ := exists_number_of_parse h hn hcall
  rw [hk, List.mem_append, not_or]
  exact ⟨hstem, not_mem_break_integer k⟩

/-- The directives of the diagram of a document are one line each, if the beginning of the aliases
and the links are. -/
theorem not_mem_break_diagram {counter : Counter} {links : Links} {document : List Text}
    {f : Forest Node} (hstem : '\n' ∉ counter.stem) (hlinks : ∀ l ∈ links, '\n' ∉ l.2.display)
    (h : (parse counter links document).1 = .ok f) {lines : List Line}
    (hdiagram : diagram f = .ok lines) : ∀ l ∈ lines, '\n' ∉ l.text := by
  have hne : f ≠ .nil := by
    rintro rfl
    simp [diagram] at hdiagram
  obtain ⟨first, hfirst, -, hsame⟩ := exists_diagram_of_parse h hne
  obtain rfl := Except.ok.inj (hsame.symm.trans hdiagram)
  have honeLine : ∀ n ∈ f.walk, n.statement.OneLine := fun n hn => (oneLine_of_parse h n hn).1
  intro l hl
  rcases List.mem_append.1 hl with hl | hl
  · rcases List.mem_append.1 hl with hl | hl
    · obtain ⟨n, hn, hcall⟩ := List.mem_filterMap.1 hfirst
      exact not_mem_break_preamble (Node.statement_of_call? hcall ▸ honeLine n hn) l hl
    · obtain ⟨t, ht, hl⟩ := List.mem_flatMap.1 hl
      obtain ⟨c, hc⟩ := exists_call?_of_mem_trees h ht
      have hsub := callsOf_sublist_of_mem_trees ht
      exact not_mem_break_treeSection hc
        (fun n hn => honeLine n (mem_walk_of_mem_trees ht hn))
        (fun d hd => not_mem_break_aliasName hstem h (hsub.mem hd))
        (fun d hd => not_mem_break_linkText h hlinks (hsub.mem hd)) l hl
  · rw [List.mem_singleton.1 hl]
    decide

/-- The diagram of a document is split at its line breaks into its directives. -/
theorem pieces_diagram {counter : Counter} {links : Links} {document : List Text}
    {f : Forest Node} (hstem : '\n' ∉ counter.stem) (hlinks : ∀ l ∈ links, '\n' ∉ l.2.display)
    (h : (parse counter links document).1 = .ok f) {lines : List Line}
    (hdiagram : diagram f = .ok lines) :
    Text.pieces '\n' (Line.document lines) = lines.map Line.text := by
  have hne : lines ≠ [] := by
    rintro rfl
    have hforest : f ≠ .nil := by
      rintro rfl
      simp [diagram] at hdiagram
    obtain ⟨first, -, -, hsame⟩ := exists_diagram_of_parse h hforest
    simp [preamble, hsame] at hdiagram
  rw [Line.pieces_document hne, ← List.flatMap_pure_eq_map]
  exact List.flatMap_congr fun l hl =>
    Text.pieces_of_not_mem (not_mem_break_diagram hstem hlinks h hdiagram l hl)

/-- With the usual beginning of aliases, and with links that are shown on one line each, the lines
of the diagram of a document are counted, whatever characters its own lines hold. -/
theorem counted_of_parseLimited {counter : Counter} {links : Links} {document : List Text}
    {f : Forest Node} (hstem : counter.stem = ['C']) (hlinks : ∀ l ∈ links, '\n' ∉ l.2.display)
    (h : (parseLimited counter links document).1 = .ok f) (hne : f ≠ .nil) : Counted f := by
  obtain ⟨-, hparse⟩ := parseLimited_eq_ok_iff.1 h
  obtain ⟨first, hfirst, -, hdiagram⟩ := exists_diagram_of_parse hparse hne
  have hpieces := pieces_diagram (by simp [hstem]) hlinks hparse hdiagram
  have hsection : ∀ t ∈ f.trees, (treeSection t).length = sectionSize (Forest.single t) := by
    intro t ht
    obtain ⟨c, hc⟩ := exists_call?_of_mem_trees hparse ht
    exact length_treeSection hc
      (fun n hn => isBlock_of_oneLine (oneLine_of_parse hparse n (mem_walk_of_mem_trees ht hn)).1)
      (distinct_of_mem_trees (distinct_of_parse hparse) ht)
  refine ⟨_, _, hdiagram, diagramText_eq_ok hdiagram, hpieces, ?_⟩
  rw [hpieces, List.length_map, List.length_append, List.length_append, List.length_flatMap,
    List.map_congr_left hsection]
  simp only [preamble, List.length_cons, List.length_nil]
  omega

/-- Lines with line breaks of three kinds inside, links of several kinds, chains that an alternative
starts, a loop, and a second root. -/
theorem counted_broken :
    ∃ f, (parseLimited {} [(['A', '#', 'f'], .str ['u', '\r']), (['A', '#', 'g'], .null)]
        ["A#f():\nx", "  loop a\rb", "    g() <\n\ny", "    else", "    if\nc", "    else d\u2028e",
          "B#h()\n"]).1 = .ok f ∧ f ≠ .nil ∧ Counted f := by
  obtain ⟨n, below, after, hf⟩ : ∃ n below after, (parseLimited {}
      [(['A', '#', 'f'], .str ['u', '\r']), (['A', '#', 'g'], .null)]
      ["A#f():\nx", "  loop a\rb", "    g() <\n\ny", "    else", "    if\nc", "    else d\u2028e",
        "B#h()\n"]).1 = .ok (.node n below after) := ⟨_, _, _, by cbv⟩
  exact ⟨_, hf, by simp, counted_of_parseLimited rfl (by decide) hf (by simp)⟩

end CallDiagram
