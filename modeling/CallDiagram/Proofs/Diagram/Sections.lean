import CallDiagram.Diagram.Basic
import CallDiagram.Proofs.Diagram.Participants
import CallDiagram.Proofs.Document.Statements
import CallDiagram.Proofs.Forest.Hanging
import Mathlib.Data.List.Find

/-!
# Sections and what they declare

A diagram is a preamble, one section for each tree, and a closing line.  A section declares the
components of its tree, one participant for each.

* `treeSection`, `diagram_eq_ok` — the sections of a diagram;
* `Declaration`, `declarationsIn` — the participants that some lines declare, each in its box;
* `declarationsIn_treeSection` — a section declares the first calls of its components;
* `Call.component`, `Call.Named`, `identifier_eq_iff` — calls with names are known under one
  identifier exactly if they are of one component;
* `exists_first`, `component_eq_of_aliasOf_eq` — the alias of a call is that of the first call of
  its component, and stands for no other component;
* `distinct_of_parse`, `exists_diagram_of_parse` — the calls and the diagrams of documents.
-/

namespace CallDiagram

/-! ## Sections -/

/-- The calls of a forest, in document order. -/
def callsOf (f : Forest Node) : List Call := f.walk.filterMap Node.call?

theorem callsOf_node (n : Node) (below after : Forest Node) :
    callsOf (.node n below after) = n.call?.toList ++ (callsOf below ++ callsOf after) := by
  rw [callsOf, Forest.walk, List.filterMap_cons, List.filterMap_append]
  cases n.call? <;> rfl

/-- A tree as a forest. -/
def Forest.single {α : Type} (t : α × Forest α) : Forest α := .node t.1 t.2 .nil

/-- The section of a tree. -/
def treeSection (t : Node × Forest Node) : List Line :=
  match t.1.call? with
  | some c => sectionOf c t.1 t.2
  | none => []

theorem treeSection_of_call {t : Node × Forest Node} {c : Call} (hc : t.1.call? = some c) :
    treeSection t
      = .heading (headingOf c) :: ((Participants.ofForest (Forest.single t)).lines
          ++ callGraph (Participants.ofForest (Forest.single t)) none none (Forest.single t)) := by
  rw [treeSection, hc]
  rfl

theorem sections_eq_ok {f : Forest Node} (h : ∀ n ∈ f.tops, n.call?.isSome) :
    sections f = .ok (f.trees.flatMap treeSection) := by
  induction f with
  | nil => rfl
  | node n below after _ iha =>
    obtain ⟨c, hc⟩ := Option.isSome_iff_exists.1 (h n List.mem_cons_self)
    have hafter := iha fun m hm => h m (List.mem_cons_of_mem _ hm)
    simp [sections, hc, hafter, Except.map, Forest.trees, treeSection]

theorem exists_first?_call {f : Forest Node} (hne : f ≠ .nil)
    (h : ∀ n ∈ f.tops, n.call?.isSome) : ∃ first, f.first?.bind Node.call? = some first := by
  cases f with
  | nil => exact absurd rfl hne
  | node n below after => exact Option.isSome_iff_exists.1 (h n List.mem_cons_self)

/-- A diagram is its preamble, the sections of its trees, and the closing line. -/
theorem diagram_eq_ok {f : Forest Node} {first : Call}
    (hfirst : f.first?.bind Node.call? = some first)
    (h : ∀ n ∈ f.tops, n.call?.isSome) :
    diagram f = .ok (preamble first ++ f.trees.flatMap treeSection ++ [.closing]) := by
  cases f with
  | nil => simp [Forest.first?] at hfirst
  | node n below after =>
    have hn : n.call? = some first := hfirst
    rw [diagram, hn]
    simp only [sections_eq_ok h]
    rfl

/-! ## Lines of a call graph -/

theorem mem_callsOf_of_mem_walk {f : Forest Node} {n : Node} (hn : n ∈ f.walk) {c : Call}
    (hc : n.call? = some c) : c ∈ callsOf f := List.mem_filterMap.2 ⟨n, hn, hc⟩

/-- Every directive of a call graph stands at one of the ends of a statement, below a call of the
forest or the call above it. -/
theorem exists_statement_of_mem_callGraph {p : Participants} {caller : Option Call}
    {before : Option Statement} {f : Forest Node} {l : Line}
    (hl : l ∈ callGraph p caller before f) :
    ∃ n ∈ f.walk, ∃ above, (above = caller ∨ ∃ c ∈ callsOf f, above = some c) ∧
      ((∃ before', l ∈ enter p above before' n.statement) ∨
        ∃ next, l ∈ leave p above next n.statement) := by
  induction f generalizing caller before with
  | nil => simp [callGraph] at hl
  | node n below after ihb iha =>
    have hself : n ∈ (Forest.node n below after).walk := List.mem_cons_self
    have hsub : ∀ {c}, c ∈ callsOf below ∨ c ∈ callsOf after →
        c ∈ callsOf (.node n below after) := fun hc => by
      rw [callsOf_node, List.mem_append, List.mem_append]
      exact Or.inr hc
    rw [callGraph, List.mem_append] at hl
    rcases hl with hl | hl
    · split at hl
      · rcases List.mem_append.1 hl with hl | hl
        · rcases List.mem_append.1 hl with hl | hl
          · exact ⟨n, hself, caller, Or.inl rfl, Or.inl ⟨_, hl⟩⟩
          · obtain ⟨m, hm, above, habove, hends⟩ := ihb hl
            refine ⟨m, by simp [Forest.walk, hm], above, ?_, hends⟩
            rcases habove with rfl | ⟨c, hc, rfl⟩
            · cases hn : n.call? with
              | none => exact Or.inl rfl
              | some c => exact Or.inr ⟨c, mem_callsOf_of_mem_walk hself hn, rfl⟩
            · exact Or.inr ⟨c, hsub (Or.inl hc), rfl⟩
        · exact ⟨n, hself, caller, Or.inl rfl, Or.inr ⟨_, hl⟩⟩
      · simp at hl
    · obtain ⟨m, hm, above, habove, hends⟩ := iha hl
      refine ⟨m, by simp [Forest.walk, hm], above, ?_, hends⟩
      rcases habove with rfl | ⟨c, hc, rfl⟩
      · exact Or.inl rfl
      · exact Or.inr ⟨c, hsub (Or.inr hc), rfl⟩

/-! ## Declarations -/

/-- A participant as it is declared: its alias, the group of the box around it, and its label. -/
structure Declaration where
  aliasName : Text
  group : Option Text
  label : Text
  deriving DecidableEq, Repr

/-- The participants that some lines declare inside a box. -/
def declarationsIn (box : Option Text) : List Line → List Declaration
  | [] => []
  | .box group :: rest => declarationsIn group rest
  | .endBox :: rest => declarationsIn none rest
  | .participant label name _ :: rest => ⟨name, box, label⟩ :: declarationsIn box rest
  | _ :: rest => declarationsIn box rest

/-- Whether a line belongs to the declarations of a section. -/
def Line.isDeclaring : Line → Bool
  | .box _ => true
  | .participant _ _ _ => true
  | .endBox => true
  | _ => false

/-- A call as the participant of its component. -/
def Call.declared (c : Call) : Declaration := ⟨c.aliasName, c.group, c.label⟩

theorem declarationsIn_append_of_not_declaring {lines : List Line}
    (h : ∀ l ∈ lines, l.isDeclaring = false) (box : Option Text) (rest : List Line) :
    declarationsIn box (lines ++ rest) = declarationsIn box rest := by
  induction lines with
  | nil => rfl
  | cons l lines ih =>
    have hl := h l List.mem_cons_self
    have hrest := ih fun m hm => h m (List.mem_cons_of_mem _ hm)
    cases l with
    | box group => simp [Line.isDeclaring] at hl
    | participant label name link => simp [Line.isDeclaring] at hl
    | endBox => simp [Line.isDeclaring] at hl
    | _ => exact hrest

theorem declarationsIn_box {group : Option Text} {inside : List Call}
    (h : ∀ c ∈ inside, c.group = group) (rest : List Line) :
    declarationsIn group (inside.map Participants.declaration ++ .endBox :: rest)
      = inside.map Call.declared ++ declarationsIn none rest := by
  induction inside with
  | nil => rfl
  | cons c inside ih =>
    have hc : c.group = group := h c List.mem_cons_self
    rw [List.map_cons, List.cons_append, Participants.declaration, declarationsIn,
      ih fun d hd => h d (List.mem_cons_of_mem _ hd), List.map_cons, List.cons_append,
      Call.declared, hc]

/-- The boxes of participants declare the calls in them. -/
theorem declarationsIn_lines {p : Participants} (h : Participants.Boxed p.groups)
    (rest : List Line) :
    declarationsIn none (p.lines ++ rest)
      = p.declared.map Call.declared ++ declarationsIn none rest := by
  obtain ⟨groups, aliases⟩ := p
  rw [Participants.lines, Participants.declared]
  induction groups with
  | nil => rfl
  | cons box groups ih =>
    obtain ⟨group, inside⟩ := box
    have hinside := declarationsIn_box (h (group, inside) List.mem_cons_self)
    have hrest := ih fun box hbox => h box (List.mem_cons_of_mem _ hbox)
    simp only [List.flatMap_cons, List.cons_append, List.append_assoc, List.nil_append,
      declarationsIn, hinside, hrest, List.map_append]

theorem isDeclaring_lines (p : Participants) : ∀ l ∈ p.lines, l.isDeclaring = true := by
  intro l hl
  obtain ⟨box, -, hbox⟩ := List.mem_flatMap.1 hl
  simp only [List.mem_cons, List.mem_append, List.mem_map, List.not_mem_nil, or_false] at hbox
  rcases hbox with rfl | ⟨c, -, rfl⟩ | rfl <;> rfl

theorem isDeclaring_enter {p : Participants} {caller : Option Call} {before : Option Statement}
    {s : Statement} : ∀ l ∈ enter p caller before s, l.isDeclaring = false := by
  intro l hl
  unfold enter at hl
  split at hl
  · split at hl <;> simp only [List.mem_append, List.mem_cons, List.not_mem_nil, or_false,
      false_or] at hl
    · rcases hl with rfl | rfl <;> rfl
    · rw [hl]; rfl
  · rw [List.mem_singleton.1 hl]; rfl
  · rw [List.mem_singleton.1 hl]; rfl
  · split at hl <;> (rw [List.mem_singleton.1 hl]; rfl)
  · simp at hl

theorem isDeclaring_leave {p : Participants} {caller : Option Call} {next : Option Statement}
    {s : Statement} : ∀ l ∈ leave p caller next s, l.isDeclaring = false := by
  have hbranch : ∀ last : Bool, ∀ l ∈ (if last then [] else [Line.endAlt]),
      l.isDeclaring = false := by
    intro last l hl
    cases last with
    | true => simp at hl
    | false => rw [List.mem_singleton.1 hl]; rfl
  intro l hl
  unfold leave at hl
  split at hl
  · split at hl <;> simp only [List.mem_append, List.mem_cons, List.not_mem_nil, or_false,
      false_or] at hl
    · rcases hl with rfl | rfl <;> rfl
    · rw [hl]; rfl
  · rw [List.mem_singleton.1 hl]; rfl
  · exact hbranch _ l hl
  · exact hbranch _ l hl
  · simp at hl

/-- A call graph declares nothing. -/
theorem isDeclaring_callGraph {p : Participants} {caller : Option Call}
    {before : Option Statement} {f : Forest Node} :
    ∀ l ∈ callGraph p caller before f, l.isDeclaring = false := by
  intro l hl
  obtain ⟨n, -, above, -, ⟨before', hl⟩ | ⟨next, hl⟩⟩ := exists_statement_of_mem_callGraph hl
  · exact isDeclaring_enter l hl
  · exact isDeclaring_leave l hl

/-- A section declares the calls of its tree that are collected. -/
theorem declarationsIn_treeSection {t : Node × Forest Node} {c : Call} (hc : t.1.call? = some c)
    (rest : List Line) :
    declarationsIn none (treeSection t ++ rest)
      = (Participants.ofForest (Forest.single t)).declared.map Call.declared
        ++ declarationsIn none rest := by
  have hboxed : Participants.Boxed (Participants.ofForest (Forest.single t)).groups :=
    Participants.boxed_ofCalls _
  have hheading : ∀ lines, declarationsIn none (.heading (headingOf c) :: lines)
      = declarationsIn none lines := fun _ => rfl
  rw [treeSection_of_call hc, List.cons_append, List.append_assoc, hheading,
    declarationsIn_lines hboxed, declarationsIn_append_of_not_declaring isDeclaring_callGraph]

/-! ## Components -/

/-- The component that is called: its group and its method. -/
def Call.component (c : Call) : Option Text × Text := (c.group, c.method)

/-- A call whose group and method are names. -/
def Call.Named (c : Call) : Prop := ∃ g, c.group = some g ∧ IsName g ∧ IsName c.method

/-- A name holds no character that may not continue a name. -/
theorem not_mem_of_isName {name : Text} (h : IsName name) {c : Char} (hc : isNamePart c = false) :
    c ∉ name := fun hmem => by
  rw [isNamePart_of_mem h hmem] at hc
  exact Bool.noConfusion hc

/-- Calls with names have one identifier exactly if they are of one component. -/
theorem identifier_eq_iff {c d : Call} (hc : c.Named) (hd : d.Named) :
    c.identifier = d.identifier ↔ c.component = d.component := by
  obtain ⟨g, hg, hname, -⟩ := hc
  obtain ⟨g', hg', hname', -⟩ := hd
  rw [Call.identifier, Call.identifier, Call.component, Call.component, hg, hg']
  constructor
  · intro h
    -- the first hash ends the group
    have hhash : isNamePart '#' = false := by decide
    obtain ⟨htake, hdrop⟩ := Text.takeWhile_ne_append (not_mem_of_isName hname hhash) c.method
    obtain ⟨htake', hdrop'⟩ := Text.takeWhile_ne_append (not_mem_of_isName hname' hhash) d.method
    have hgroup : g = g' := by rw [← htake, ← htake']; exact congrArg _ h
    have hmethod : '#' :: c.method = '#' :: d.method := by
      rw [← hdrop, ← hdrop']; exact congrArg _ h
    rw [hgroup, (List.cons.inj hmethod).2]
  · intro h
    obtain ⟨hgroup, hmethod⟩ := Prod.mk.inj h
    rw [hgroup, hmethod]

/-- Calls whose aliases are distinct and whose groups and methods are names. -/
structure Distinct (calls : List Call) : Prop where
  named : ∀ c ∈ calls, c.Named
  nodup : (calls.map Call.aliasName).Nodup

/-- The aliases that are declared for some calls are distinct if those of the calls are. -/
theorem nodup_declared {calls : List Call} (h : (calls.map Call.aliasName).Nodup) :
    ((Participants.ofCalls calls).declared.map Call.aliasName).Nodup :=
  ((Participants.declared_ofCalls calls).map Call.aliasName).nodup_iff.2
    (h.sublist ((firstsBy_sublist Call.identifier calls).map Call.aliasName))

/-- No component is declared twice, if groups and methods are names. -/
theorem nodup_component_declared {calls : List Call} (h : ∀ c ∈ calls, c.Named) :
    ((Participants.ofCalls calls).declared.map Call.component).Nodup := by
  have hidentifier := Participants.nodup_identifier_declared calls
  refine (List.nodup_map_iff_inj_on hidentifier.of_map).2 fun c hc d hd heq => ?_
  have hsame := (identifier_eq_iff (h c (Participants.mem_of_mem_declared hc))
    (h d (Participants.mem_of_mem_declared hd))).2 heq
  exact List.inj_on_of_nodup_map hidentifier hc hd hsame

/-- The alias of a call is that of the first call of its component, which is declared. -/
theorem exists_first {calls : List Call} (h : Distinct calls) {d : Call} (hd : d ∈ calls) :
    ∃ e, (calls.find? fun c => c.component = d.component) = some e ∧
      (Participants.ofCalls calls).aliasFor? d.identifier = some e.aliasName ∧
      e ∈ (Participants.ofCalls calls).declared := by
  have hsame : (calls.find? fun c => c.component = d.component)
      = calls.find? fun c => c.identifier = d.identifier := by
    refine List.find?_congr fun c hc => ?_
    rw [decide_eq_decide, identifier_eq_iff (h.named c hc) (h.named d hd)]
  have hsome : (calls.find? fun c => c.identifier = d.identifier).isSome :=
    List.find?_isSome.2 ⟨d, hd, by simp⟩
  obtain ⟨e, he⟩ := Option.isSome_iff_exists.1 hsome
  have hid : e.identifier = d.identifier := by simpa using List.find?_some he
  refine ⟨e, hsame.trans he, by rw [Participants.aliasFor?_ofCalls, he, Option.map_some], ?_⟩
  rw [(Participants.declared_ofCalls calls).mem_iff, mem_firstsBy, hid]
  exact he

/-- If the same is declared for the calls of two lists, calls that are known under one alias are of
one component. -/
theorem component_eq_of_aliasOf_eq {calls calls' : List Call} (h : Distinct calls)
    (h' : Distinct calls')
    (hdeclared : (Participants.ofCalls calls).declared.map Call.declared
      = (Participants.ofCalls calls').declared.map Call.declared)
    {d d' : Call} (hd : d ∈ calls) (hd' : d' ∈ calls')
    (heq : (Participants.ofCalls calls).aliasOf d = (Participants.ofCalls calls').aliasOf d') :
    d.component = d'.component := by
  obtain ⟨e, hfirst, hknown, he⟩ := exists_first h hd
  obtain ⟨e', hfirst', hknown', he'⟩ := exists_first h' hd'
  have hcomponent : e.component = d.component := by simpa using List.find?_some hfirst
  have hcomponent' : e'.component = d'.component := by simpa using List.find?_some hfirst'
  rw [Participants.aliasOf, Participants.aliasOf, hknown, hknown', Option.getD_some,
    Option.getD_some] at heq
  -- declarations with one alias are one declaration
  have hnodup : (((Participants.ofCalls calls).declared.map Call.declared).map
      Declaration.aliasName).Nodup := by
    rw [List.map_map]
    exact nodup_declared h.nodup
  have hsame : e.declared = e'.declared :=
    List.inj_on_of_nodup_map hnodup (List.mem_map_of_mem he)
      (hdeclared ▸ List.mem_map_of_mem he') heq
  rw [Call.declared, Call.declared, Declaration.mk.injEq] at hsame
  obtain ⟨-, hgroup, hlabel⟩ := hsame
  rw [← hcomponent, ← hcomponent', Call.component, Call.component, hgroup,
    List.append_cancel_right hlabel]

/-! ## Documents -/

/-- The calls of a forest that a document makes have names and aliases of their own. -/
theorem distinct_of_parse {counter : Counter} {links : Links} {document : List Text}
    {f : Forest Node} (h : (parse counter links document).1 = .ok f) : Distinct (callsOf f) := by
  refine ⟨fun c hc => ?named, ?nodup⟩
  case named =>
    obtain ⟨n, hn, hcall⟩ := List.mem_filterMap.1 hc
    exact exists_group_of_parse h hn hcall
  case nodup =>
    obtain ⟨hself, -⟩ := number_walk_of_parse h
    have haliases : (callsOf f).map Call.aliasName = counter.draw (callCount f.walk) := by
      rw [← aliases_number, hself, callsOf, List.map_filterMap]
      rfl
    rw [haliases]
    exact nodup_draw counter _

/-- The calls of a forest are those of its trees, one tree after the other. -/
theorem flatMap_callsOf_trees (f : Forest Node) :
    (f.trees.flatMap fun t => callsOf (Forest.single t)) = callsOf f := by
  rw [callsOf, ← Forest.flatMap_trees, List.filterMap_flatMap]
  rfl

theorem mem_walk_of_mem_trees {f : Forest Node} {t : Node × Forest Node} (ht : t ∈ f.trees)
    {n : Node} (hn : n ∈ (Forest.single t).walk) : n ∈ f.walk := by
  rw [← Forest.flatMap_trees]
  exact List.mem_flatMap.2 ⟨t, ht, hn⟩

theorem callsOf_sublist_of_mem_trees {f : Forest Node} {t : Node × Forest Node}
    (ht : t ∈ f.trees) : (callsOf (Forest.single t)).Sublist (callsOf f) := by
  rw [← flatMap_callsOf_trees f]
  exact List.sublist_flatten_of_mem (List.mem_map_of_mem ht)

theorem distinct_of_mem_trees {f : Forest Node} (h : Distinct (callsOf f))
    {t : Node × Forest Node} (ht : t ∈ f.trees) : Distinct (callsOf (Forest.single t)) :=
  have hsub := callsOf_sublist_of_mem_trees ht
  ⟨fun c hc => h.named c (hsub.mem hc), h.nodup.sublist (hsub.map Call.aliasName)⟩

theorem exists_call?_of_mem_trees {counter : Counter} {links : Links} {document : List Text}
    {f : Forest Node} (h : (parse counter links document).1 = .ok f) {t : Node × Forest Node}
    (ht : t ∈ f.trees) : ∃ c, t.1.call? = some c :=
  exists_call?_of_mem_tops h (Forest.map_fst_trees f ▸ List.mem_map_of_mem ht)

/-- A document with a tree has a diagram. -/
theorem exists_diagram_of_parse {counter : Counter} {links : Links} {document : List Text}
    {f : Forest Node} (h : (parse counter links document).1 = .ok f) (hne : f ≠ .nil) :
    ∃ first ∈ callsOf f, f.first?.bind Node.call? = some first ∧
      diagram f = .ok (preamble first ++ f.trees.flatMap treeSection ++ [.closing]) := by
  have htops : ∀ n ∈ f.tops, n.call?.isSome := fun n hn =>
    Option.isSome_iff_exists.2 (exists_call?_of_mem_tops h hn)
  obtain ⟨first, hfirst⟩ := exists_first?_call hne htops
  refine ⟨first, ?_, hfirst, diagram_eq_ok hfirst htops⟩
  obtain ⟨n, hn, hcall⟩ := Option.bind_eq_some_iff.1 hfirst
  exact mem_callsOf_of_mem_walk (Forest.mem_walk_of_first? hn) hcall

end CallDiagram
