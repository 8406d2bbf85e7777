import CallDiagram.Proofs.Diagram.CallStack
import CallDiagram.Proofs.Diagram.Directive
import CallDiagram.Proofs.Diagram.Recovery
import Mathlib

/-!
# Diagrams lose nothing but layout

Two documents with the same diagram say the same, but for layout, alternatives without a branch in
front of them, and what is said on the way back from a root.

* `Call.Usual`, `usual_of_parse` — calls as documents without links make them;
* `Line.Clean`, `clean_treeSection` — directives that are told by their lines, and lines by the
  document: all directives of sections are;
* `map_shownTree_eq_of_diagramText_eq` — the trees of two documents.
-/

namespace CallDiagram

/-! ## Calls of documents -/

/-- The label of a call of single lines is one line. -/
theorem not_mem_break_label {c : Call} (h : (Statement.call c).OneLine) : '\n' ∉ c.label := by
  rw [Call.label, List.mem_append, not_or]
  exact ⟨not_mem_of_isName h.2.1 (by decide), by decide⟩

/-- The spelling of the group of a call of single lines is one line. -/
theorem not_mem_break_groupText {c : Call} (h : (Statement.call c).OneLine) :
    '\n' ∉ Call.groupText c.group := by
  cases hgroup : c.group with
  | none => decide
  | some g => exact not_mem_of_isName (h.1 g hgroup) (by decide)

/-- A call as a document without links makes it: named, of single lines, with an alias of the usual
beginning. -/
structure Call.Usual (c : Call) : Prop where
  named : c.Named
  oneLine : (Statement.call c).OneLine
  unlinked : c.link = .null
  numbered : ∃ k : Int, c.aliasName = 'C' :: Text.integer k

theorem usual_of_parse {counter : Counter} {document : List Text} {f : Forest Node}
    (hstem : counter.stem = ['C']) (h : (parse counter [] document).1 = .ok f) :
    ∀ c ∈ callsOf f, c.Usual := by
  intro c hc
  obtain ⟨n, hn, hcall⟩ := List.mem_filterMap.1 hc
  have hline := (oneLine_of_parse h n hn).1
  rw [Node.statement_of_call? hcall] at hline
  exact ⟨exists_group_of_parse h hn hcall, hline, link_of_parse h hn hcall,
    exists_alias_of_parse hstem h hn hcall⟩

/-- A number is one line. -/
theorem not_mem_break_integer (k : Int) : '\n' ∉ Text.integer k := fun hmem =>
  absurd (isDigit_or_minus_of_mem_integer hmem) (by decide)

namespace Call.Usual

variable {c : Call}

theorem isAlias (h : c.Usual) : IsAlias c.aliasName := by
  obtain ⟨k, hk⟩ := h.numbered
  exact hk ▸ isAlias_integer k

theorem not_mem_break_aliasName (h : c.Usual) : '\n' ∉ c.aliasName := by
  obtain ⟨k, hk⟩ := h.numbered
  simp [hk, not_mem_break_integer k]

/-- A label is made of the characters of names and parentheses. -/
theorem not_mem_label (h : c.Usual) {d : Char} (hd : isNamePart d = false)
    (hparentheses : d ∉ ['(', ')']) : d ∉ c.label := by
  obtain ⟨g, -, -, hmethod⟩ := h.named
  rw [Call.label, List.mem_append, not_or]
  exact ⟨not_mem_of_isName hmethod hd, hparentheses⟩

theorem group_ne_none (h : c.Usual) : c.group ≠ none := by
  obtain ⟨g, hg, -⟩ := h.named
  simp [hg]

end Call.Usual

/-! ## Directives of sections -/

/-- A directive that is told by its line, which is told by the document. -/
structure Line.Clean (l : Line) : Prop where
  readable : l.Readable
  parts : ∀ t ∈ l.parts, '\n' ∉ t

section Ends

variable {p : Participants} {caller : Option Call} {before next : Option Statement} {s : Statement}

theorem readable_enter (hcaller : ∀ d, caller = some d → IsAlias (p.aliasOf d))
    (hcall : ∀ c, s.call? = some c → IsAlias (p.aliasOf c)) :
    ∀ l ∈ enter p caller before s, l.Readable := by
  cases s with
  | call c =>
    have hc := hcall c rfl
    cases caller with
    | none => simp [enter, Line.Readable]
    | some d => simp [enter, Line.Readable, hc, hcaller d rfl]
  | alternative note =>
    rw [enter]
    split <;> simp [Line.Readable]
  | _ => simp [enter, Line.Readable]

theorem readable_leave (hcaller : ∀ d, caller = some d → IsAlias (p.aliasOf d))
    (hcall : ∀ c, s.call? = some c → IsAlias (p.aliasOf c)) :
    ∀ l ∈ leave p caller next s, l.Readable := by
  have hbranch : ∀ last : Bool, ∀ l ∈ (if last then [] else [Line.endAlt]), l.Readable := by
    intro last
    cases last <;> simp [Line.Readable]
  cases s with
  | call c =>
    have hc := hcall c rfl
    cases caller with
    | none => simp [leave, Line.Readable]
    | some d => simp [leave, Line.Readable, hc, hcaller d rfl]
  | condition note => exact hbranch _
  | alternative note => exact hbranch _
  | _ => simp [leave, Line.Readable]

variable (hs : s.OneLine) (hcaller : ∀ d, caller = some d → '\n' ∉ p.aliasOf d)
  (hcall : ∀ c, s.call? = some c → '\n' ∉ p.aliasOf c)

include hs hcaller hcall

theorem not_mem_break_enter : ∀ l ∈ enter p caller before s, ∀ t ∈ l.parts, '\n' ∉ t := by
  cases s with
  | call c =>
    have hc := hcall c rfl
    cases caller with
    | none => simpa [enter, Line.parts] using hc
    | some d =>
      have hd := hcaller d rfl
      have hcomment : ∀ t ∈ Text.nonempty? c.comment, '\n' ∉ t := by
        rw [nonempty?_of_oneLine hs.2.2.1]
        exact fun t ht => (hs.2.2.1 t ht).2
      simpa [enter, Line.parts, hc, hd] using hcomment
  | loop note =>
    have hnote : '\n' ∉ note := hs
    simpa [enter, Line.parts] using hnote
  | condition note =>
    have hnote : '\n' ∉ note := hs
    simpa [enter, Line.parts] using hnote
  | alternative note =>
    have hnote : ∀ t ∈ note, '\n' ∉ t := fun t ht => (hs t ht).2
    rw [enter, nonempty?_of_oneLine hs]
    split
    · simpa [Line.parts] using hnote
    · cases note with
      | none => simp [Line.parts]
      | some t => simpa [Line.parts] using hnote
  | bare => exact absurd hs id

theorem not_mem_break_leave : ∀ l ∈ leave p caller next s, ∀ t ∈ l.parts, '\n' ∉ t := by
  have hbranch : ∀ last : Bool, ∀ l ∈ (if last then [] else [Line.endAlt]), ∀ t ∈ l.parts,
      '\n' ∉ t := by
    intro last
    cases last <;> simp [Line.parts]
  cases s with
  | call c =>
    have hc := hcall c rfl
    cases caller with
    | none => simpa [leave, Line.parts] using hc
    | some d =>
      have hd := hcaller d rfl
      have hcomment : ∀ t ∈ Text.nonempty? c.answer, '\n' ∉ t := by
        rw [nonempty?_of_oneLine hs.2.2.2]
        exact fun t ht => (hs.2.2.2 t ht).2
      simpa [leave, Line.parts, hc, hd] using hcomment
  | loop note => simp [leave, Line.parts]
  | condition note => exact hbranch _
  | alternative note => exact hbranch _
  | bare => exact absurd hs id

end Ends

/-- The declarations of calls of documents are clean. -/
theorem clean_lines {calls : List Call} (h : ∀ c ∈ calls, c.Usual) :
    ∀ l ∈ (Participants.ofCalls calls).lines, l.Clean := by
  intro l hl
  obtain ⟨box, hbox, hl⟩ := List.mem_flatMap.1 hl
  simp only [List.mem_cons, List.mem_append, List.mem_map, List.not_mem_nil, or_false] at hl
  rcases hl with rfl | ⟨e, he, rfl⟩ | rfl
  · obtain ⟨c, hc, hgroup⟩ := Participants.exists_call_of_mem_groups hbox
    have hbreak := not_mem_break_groupText (h c hc).oneLine
    rw [hgroup] at hbreak
    exact ⟨hgroup ▸ (h c hc).group_ne_none, by simpa [Line.parts] using hbreak⟩
  · have husual := h e (Participants.mem_of_mem_declared (List.mem_flatMap.2 ⟨box, hbox, he⟩))
    have hlink : Participants.linkText? e.link = none := by
      rw [husual.unlinked]
      rfl
    rw [Participants.declaration, hlink]
    refine ⟨⟨husual.not_mem_label (by decide) (by decide), rfl⟩, ?_⟩
    simp [Line.parts, not_mem_break_label husual.oneLine, husual.not_mem_break_aliasName]
  · exact ⟨trivial, by simp [Line.parts]⟩

/-- What holds of the directives at the two ends of every statement, whatever calls it, holds of
those of a call graph below no call. -/
theorem forall_mem_callGraph {p : Participants} {before : Option Statement} {f : Forest Node}
    {P : Text → Prop} {Q : Line → Prop} (halias : ∀ d ∈ callsOf f, P (p.aliasOf d))
    (henter : ∀ n ∈ f.walk, ∀ caller before', (∀ d, caller = some d → P (p.aliasOf d)) →
      (∀ d, n.statement.call? = some d → P (p.aliasOf d)) →
        ∀ l ∈ enter p caller before' n.statement, Q l)
    (hleave : ∀ n ∈ f.walk, ∀ caller next, (∀ d, caller = some d → P (p.aliasOf d)) →
      (∀ d, n.statement.call? = some d → P (p.aliasOf d)) →
        ∀ l ∈ leave p caller next n.statement, Q l) :
    ∀ l ∈ callGraph p none before f, Q l := by
  intro l hl
  obtain ⟨n, hn, above, habove, hends⟩ := exists_statement_of_mem_callGraph hl
  have hcall : ∀ d, n.statement.call? = some d → P (p.aliasOf d) := fun d hd =>
    halias d (mem_callsOf_of_mem_walk hn hd)
  have hcaller : ∀ d, above = some d → P (p.aliasOf d) := by
    rintro d rfl
    rcases habove with heq | ⟨e, he, heq⟩
    · simp at heq
    · exact Option.some.inj heq ▸ halias e he
  rcases hends with ⟨before', hl⟩ | ⟨next, hl⟩
  · exact henter n hn above before' hcaller hcall l hl
  · exact hleave n hn above next hcaller hcall l hl

/-- The directives of a call graph can be read, if its aliases can be told. -/
theorem readable_callGraph {p : Participants} {before : Option Statement} {f : Forest Node}
    (halias : ∀ d ∈ callsOf f, IsAlias (p.aliasOf d)) :
    ∀ l ∈ callGraph p none before f, l.Readable :=
  forall_mem_callGraph halias (fun _ _ _ _ => readable_enter) (fun _ _ _ _ => readable_leave)

/-- The directives of a call graph are one line each, if its aliases hold no line break. -/
theorem not_mem_break_callGraph {p : Participants} {before : Option Statement} {f : Forest Node}
    (honeLine : ∀ n ∈ f.walk, n.statement.OneLine)
    (halias : ∀ d ∈ callsOf f, '\n' ∉ p.aliasOf d) :
    ∀ l ∈ callGraph p none before f, ∀ t ∈ l.parts, '\n' ∉ t :=
  forall_mem_callGraph (P := ('\n' ∉ ·)) halias (fun n hn _ _ => not_mem_break_enter (honeLine n hn))
    (fun n hn _ _ => not_mem_break_leave (honeLine n hn))

/-- What holds of the aliases of all calls holds of those that stand for them. -/
theorem forall_aliasOf {P : Text → Prop} {calls : List Call} (h : ∀ c ∈ calls, P c.aliasName)
    {d : Call} (hd : d ∈ calls) : P ((Participants.ofCalls calls).aliasOf d) := by
  obtain ⟨e, he, -, heq⟩ := Participants.exists_aliasOf hd
  rw [heq]
  exact h e he

/-- A call of single lines has a heading of one line. -/
theorem not_mem_break_headingOf {c : Call} (h : (Statement.call c).OneLine) :
    '\n' ∉ headingOf c := by
  rw [headingOf, nonempty?_of_oneLine h.2.2.1]
  cases hcomment : c.comment with
  | none => exact not_mem_break_label h
  | some t => exact (h.2.2.1 t hcomment).2

/-- All directives of the section of a tree are clean. -/
theorem clean_treeSection {t : Node × Forest Node} {c : Call} (hc : t.1.call? = some c)
    (honeLine : ∀ n ∈ (Forest.single t).walk, n.statement.OneLine)
    (husual : ∀ d ∈ callsOf (Forest.single t), d.Usual) : ∀ l ∈ treeSection t, l.Clean := by
  have hroot := husual c (mem_callsOf_of_mem_walk List.mem_cons_self hc)
  intro l hl
  rw [treeSection_of_call hc] at hl
  rcases List.mem_cons.1 hl with rfl | hl
  · exact ⟨trivial, by simpa [Line.parts] using not_mem_break_headingOf hroot.oneLine⟩
  · rcases List.mem_append.1 hl with hl | hl
    · exact clean_lines husual l hl
    · have halias : ∀ d ∈ callsOf (Forest.single t),
          IsAlias ((Participants.ofForest (Forest.single t)).aliasOf d) := fun d hd =>
        forall_aliasOf (fun e he => (husual e he).isAlias) hd
      have hbreak : ∀ d ∈ callsOf (Forest.single t),
          '\n' ∉ (Participants.ofForest (Forest.single t)).aliasOf d := fun d hd =>
        forall_aliasOf (P := ('\n' ∉ ·)) (fun e he => (husual e he).not_mem_break_aliasName) hd
      exact ⟨readable_callGraph halias l hl, not_mem_break_callGraph honeLine hbreak l hl⟩

/-! ## Documents -/

/-- In front of the sections no directive holds a line break. -/
theorem not_mem_break_preamble {first : Call} (h : (Statement.call first).OneLine) :
    ∀ l ∈ preamble first, '\n' ∉ l.text := by
  intro l hl
  have hmethod : '\n' ∉ first.method := not_mem_of_isName h.2.1 (by decide)
  have hgroup := not_mem_break_groupText h
  apply Line.not_mem_break_text
  simp only [preamble, List.mem_cons, List.not_mem_nil, or_false] at hl
  rcases hl with rfl | rfl | rfl | rfl
  · simp [Line.parts]
  · decide
  · decide
  · simp [Line.parts, hmethod, hgroup]

/-- The diagram of a document without links, as directives: those of sections are clean, and the
others hold no line break. -/
theorem clean_of_parse {counter : Counter} {document : List Text} {f : Forest Node}
    (hstem : counter.stem = ['C']) (h : (parse counter [] document).1 = .ok f) :
    (∀ first ∈ callsOf f, ∀ l ∈ preamble first, '\n' ∉ l.text) ∧
      ∀ l ∈ f.trees.flatMap treeSection, l.Clean := by
  have husual := usual_of_parse hstem h
  refine ⟨fun first hfirst => not_mem_break_preamble (husual first hfirst).oneLine, fun l hl => ?_⟩
  obtain ⟨t, ht, hl⟩ := List.mem_flatMap.1 hl
  obtain ⟨c, hc⟩ := exists_call?_of_mem_trees h ht
  exact clean_treeSection hc
    (fun n hn => (oneLine_of_parse h n (mem_walk_of_mem_trees ht hn)).1)
    (fun d hd => husual d ((callsOf_sublist_of_mem_trees ht).mem hd)) l hl

/-- Preambles and closing lines are of one length, so that sections are told from them. -/
theorem map_text_sections_eq {first first' : Call} {body body' : List Line}
    (h : (preamble first ++ body ++ [Line.closing]).map Line.text
      = (preamble first' ++ body' ++ [Line.closing]).map Line.text) :
    body.map Line.text = body'.map Line.text := by
  simp only [List.map_append, List.append_assoc] at h
  obtain ⟨-, h⟩ := List.append_inj h rfl
  exact List.append_cancel_right h

/-- In a forest whose chains are whole, those of every tree are. -/
theorem chainsWhole_of_mem_trees {before : Option Statement} {f : Forest Node}
    (h : chainsWhole before f = true) {t : Node × Forest Node} (ht : t ∈ f.trees) :
    chainsWhole none t.2 = true := by
  induction f generalizing before with
  | nil => simp [Forest.trees] at ht
  | node n below after _ iha =>
    obtain ⟨-, hbelow, hafter⟩ := chainsWhole_node.1 h
    rcases List.mem_cons.1 ht with rfl | ht
    · exact hbelow
    · exact iha hafter ht

/-- The trees of a document are recovered from their sections, if its chains are whole. -/
theorem recoverable_of_parse {counter : Counter} {links : Links} {document : List Text}
    {f : Forest Node} (h : (parse counter links document).1 = .ok f)
    (hwhole : chainsWhole none f = true) : ∀ t ∈ f.trees, Recoverable t := by
  intro t ht
  refine ⟨exists_call?_of_mem_trees h ht, fun n hn => ?_,
    distinct_of_mem_trees (distinct_of_parse h) ht, chainsWhole_of_mem_trees hwhole ht⟩
  have hmem : n ∈ (Forest.single t).walk := by simp [Forest.single, Forest.walk, hn]
  exact (oneLine_of_parse h n (mem_walk_of_mem_trees ht hmem)).1

/-- Two documents without links whose chains are whole and that have one diagram show the same. -/
theorem map_shownTree_eq_of_diagramText_eq {document document' : List Text} {f g : Forest Node}
    (hf : (parseLimited {} [] document).1 = .ok f) (hg : (parseLimited {} [] document').1 = .ok g)
    (hne : f ≠ .nil) (hne' : g ≠ .nil) (hwhole : chainsWhole none f = true)
    (hwhole' : chainsWhole none g = true) (h : diagramText f = diagramText g) :
    f.trees.map shownTree = g.trees.map shownTree := by
  obtain ⟨-, hparse⟩ := parseLimited_eq_ok_iff.1 hf
  obtain ⟨-, hparse'⟩ := parseLimited_eq_ok_iff.1 hg
  obtain ⟨first, hfirst, -, hdiagram⟩ := exists_diagram_of_parse hparse hne
  obtain ⟨first', hfirst', -, hdiagram'⟩ := exists_diagram_of_parse hparse' hne'
  obtain ⟨hpreamble, hclean⟩ := clean_of_parse rfl hparse
  obtain ⟨hpreamble', hclean'⟩ := clean_of_parse rfl hparse'
  have hbreak : ∀ {first : Call} {body : List Line}, (∀ l ∈ preamble first, '\n' ∉ l.text) →
      (∀ l ∈ body, l.Clean) → ∀ l ∈ preamble first ++ body ++ [.closing], '\n' ∉ l.text := by
    intro first body hpreamble hbody l hl
    rcases List.mem_append.1 hl with hl | hl
    · rcases List.mem_append.1 hl with hl | hl
      · exact hpreamble l hl
      · exact Line.not_mem_break_text (hbody l hl).parts
    · rw [List.mem_singleton.1 hl]
      decide
  rw [diagramText, diagramText, hdiagram, hdiagram'] at h
  -- the text tells the lines, the lines tell the directives, the directives tell the trees
  have hlines := Line.map_text_eq_of_document_eq (by simp) (by simp)
    (hbreak (hpreamble first hfirst) hclean) (hbreak (hpreamble' first' hfirst') hclean')
    (Except.ok.inj h)
  have hsections := Line.eq_of_map_text_eq (fun l hl => (hclean l hl).readable)
    (fun l hl => (hclean' l hl).readable) (map_text_sections_eq hlines)
  exact map_shownTree_eq_of_sections_eq (recoverable_of_parse hparse hwhole)
    (recoverable_of_parse hparse' hwhole') hsections

/-- Documents that differ in indents, blanks, blank lines, written groups and the comment behind the
root have one diagram, and show the same. -/
theorem map_shownTree_eq_of_layouts :
    ∃ f g, (parseLimited {} [] ["A#f(): x < done", "  if a", "    g() < y", "  else", "    loop z",
        "      f()", "  B#h(): w", "C#k()"]).1 = .ok f ∧
      (parseLimited {} [] ["", "A#f():x", "    if   a", "         A#g()<y", "    else ",
        "     loop z", "       A#f()", "", " B#h():w ", "C#k() < end"]).1 = .ok g ∧
      f ≠ .nil ∧ g ≠ .nil ∧ chainsWhole none f = true ∧ chainsWhole none g = true ∧
      diagramText f = diagramText g ∧ f.trees.map shownTree = g.trees.map shownTree := by
  obtain ⟨f, g, hf, hg, hne, hne', hwhole, hwhole', hdiagram⟩ : ∃ f g,
      (parseLimited {} [] ["A#f(): x < done", "  if a", "    g() < y", "  else", "    loop z",
        "      f()", "  B#h(): w", "C#k()"]).1 = .ok f ∧
      (parseLimited {} [] ["", "A#f():x", "    if   a", "         A#g()<y", "    else ",
        "     loop z", "       A#f()", "", " B#h():w ", "C#k() < end"]).1 = .ok g ∧
      f ≠ .nil ∧ g ≠ .nil ∧ chainsWhole none f = true ∧ chainsWhole none g = true ∧
      diagram f = diagram g :=
    ⟨_, _, by cbv, by cbv, by simp, by simp, by cbv, by cbv, by cbv⟩
  have h : diagramText f = diagramText g := congrArg (Except.map Line.document) hdiagram
  exact ⟨f, g, hf, hg, hne, hne', hwhole, hwhole', h,
    map_shownTree_eq_of_diagramText_eq hf hg hne hne' hwhole hwhole' h⟩

end CallDiagram
