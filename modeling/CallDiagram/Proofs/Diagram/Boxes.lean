import CallDiagram.Proofs.Diagram.Counting
import CallDiagram.Proofs.Diagram.References

/-!
# Participants read from a diagram

The lines of a diagram tell which of them declare participants and in which boxes these stand, so a
reader of the lines alone finds the group, the method and the link of each participant.

* `boxBehind` — the group of the box that is open behind some lines;
* `Line.Told` — directives that are not taken for others by a reader of boxes;
* `isParticipant_of_text`, `boxBehind_map_text` — what such a reader finds;
* `exists_call_of_participant` — every participant declares a call, in the box of its group;
* `exists_call_of_line` — the lines of the diagram of a document.
-/

namespace CallDiagram

/-! ## Reading boxes -/

/-- The group whose box is open behind a line, if the line opens or ends a box. -/
def boxAt? (line : Text) : Option (Option Text) :=
  if line = ['e', 'n', 'd', ' ', 'b', 'o', 'x'] then some none
  else
    ((Text.dropStem? ['b', 'o', 'x', ' ', '"'] line).bind (Text.dropEnding? ['"'])).map some

/-- The group of the box that is open behind some lines; the first argument is that of the box in
front of them. -/
def boxBehind (box : Option Text) : List Text → Option Text
  | [] => box
  | line :: rest => boxBehind ((boxAt? line).getD box) rest

/-- What a line that declares a participant starts with. -/
def participantStart : Text := "participant \""

namespace Line

/-- The group whose box is open behind a directive, if the directive opens or ends a box. -/
def boxAt? : Line → Option (Option Text)
  | .box group => some group
  | .endBox => some none
  | _ => none

/-- The group of the box that is open behind some directives. -/
def boxBehind (box : Option Text) : List Line → Option Text
  | [] => box
  | l :: rest => boxBehind (l.boxAt?.getD box) rest

/-- The directives that a reader of boxes and participants takes for what they are: those whose
groups are known and whose arrows come from aliases. -/
def Told : Line → Prop
  | .box group => group ≠ none
  | .arrow caller _ _ => IsAlias caller
  | .answer callee _ _ => IsAlias callee
  | _ => True

theorem Readable.told {l : Line} (h : l.Readable) : l.Told := by
  cases l with
  | box group => exact h
  | arrow caller callee comment => exact h.1
  | answer callee caller comment => exact h.1
  | _ => trivial

end Line

theorem exists_append_of_isAlias {name : Text} (h : IsAlias name) (rest : Text) :
    ∃ tail, name ++ rest = 'C' :: tail := by
  have hhead := h.head
  cases name with
  | nil => simp at hhead
  | cons c name =>
    obtain rfl : c = 'C' := by simpa using hhead
    exact ⟨name ++ rest, rfl⟩

/-- The line of a directive tells which box is open behind it. -/
theorem boxAt?_text {l : Line} (h : l.Told) : boxAt? l.text = l.boxAt? := by
  cases l with
  | box group =>
    obtain ⟨g, rfl⟩ := Option.ne_none_iff_exists'.1 h
    have htext : (Line.box (some g)).text = ['b', 'o', 'x', ' ', '"'] ++ (g ++ ['"']) := by
      show ("box \"" : Text) ++ g ++ ("\"" : Text) = _
      simp
    rw [htext, boxAt?, if_neg (by simp), Text.dropStem?_eq_some.2 rfl, Option.bind_some,
      Line.dropEnding?_append]
    rfl
  | arrow caller callee comment =>
    obtain ⟨tail, htail⟩ := exists_append_of_isAlias h
      (' ' :: '-' :: '>' :: ' ' :: (callee ++ Line.behindArrow comment))
    rw [Line.text_arrow, htail]
    rfl
  | answer callee caller comment =>
    obtain ⟨tail, htail⟩ := exists_append_of_isAlias h
      (' ' :: '-' :: '-' :: '>' :: ' ' :: (caller ++ Line.behindArrow comment))
    rw [Line.text_answer, htail]
    rfl
  | otherwise guard => cases guard <;> rfl
  | _ => rfl

/-- The lines of directives tell the boxes. -/
theorem boxBehind_map_text {lines : List Line} (h : ∀ l ∈ lines, l.Told) (box : Option Text) :
    boxBehind box (lines.map Line.text) = Line.boxBehind box lines := by
  induction lines generalizing box with
  | nil => rfl
  | cons l lines ih =>
    rw [List.map_cons, boxBehind, boxAt?_text (h l List.mem_cons_self),
      ih fun m hm => h m (List.mem_cons_of_mem _ hm), Line.boxBehind]

/-- The lines of participants start like participants, and no others do. -/
theorem isParticipant_of_text {l : Line} (h : l.Told) (hstart : participantStart <+: l.text) :
    l.isParticipant = true := by
  have hhead : l.text.head? = some 'p' := by
    obtain ⟨rest, hrest⟩ := hstart
    rw [← hrest]
    rfl
  cases l with
  | participant label name link => rfl
  | arrow caller callee comment =>
    obtain ⟨tail, htail⟩ := exists_append_of_isAlias h
      (' ' :: '-' :: '>' :: ' ' :: (callee ++ Line.behindArrow comment))
    rw [Line.text_arrow, htail] at hhead
    exact absurd hhead (by simp)
  | answer callee caller comment =>
    obtain ⟨tail, htail⟩ := exists_append_of_isAlias h
      (' ' :: '-' :: '-' :: '>' :: ' ' :: (caller ++ Line.behindArrow comment))
    rw [Line.text_answer, htail] at hhead
    exact absurd hhead (by simp)
  | otherwise guard => cases guard <;> exact absurd (Option.some.inj hhead) (by decide)
  | _ => exact absurd (Option.some.inj hhead) (by decide)

/-! ## What is declared -/

/-- A participant is declared in the box that is open in front of it. -/
theorem mem_declarationsIn (before : List Line) (label name : Text) (link : Option Text)
    (after : List Line) (box : Option Text) :
    ⟨name, Line.boxBehind box before, label⟩
      ∈ declarationsIn box (before ++ .participant label name link :: after) := by
  induction before generalizing box with
  | nil => exact List.mem_cons_self
  | cons l before ih =>
    cases l with
    | participant label' name' link' => exact List.mem_cons_of_mem _ (ih box)
    | box group => exact ih group
    | endBox => exact ih none
    | _ => exact ih box

/-- The directives of the section of a tree are told by their lines. -/
theorem told_treeSection {t : Node × Forest Node} {c : Call} (hc : t.1.call? = some c)
    (h : Distinct (callsOf (Forest.single t)))
    (halias : ∀ d ∈ callsOf (Forest.single t), IsAlias d.aliasName) :
    ∀ l ∈ treeSection t, l.Told := by
  intro l hl
  rw [treeSection_of_call hc] at hl
  rcases List.mem_cons.1 hl with rfl | hl
  · trivial
  · rcases List.mem_append.1 hl with hl | hl
    · obtain ⟨box, hbox, hl⟩ := List.mem_flatMap.1 hl
      simp only [List.mem_cons, List.mem_append, List.mem_map, List.not_mem_nil, or_false] at hl
      rcases hl with rfl | ⟨e, -, rfl⟩ | rfl
      · obtain ⟨d, hd, hgroup⟩ := Participants.exists_call_of_mem_groups hbox
        obtain ⟨g, hg, -⟩ := h.named d hd
        exact Option.ne_none_iff_exists'.2 ⟨g, hgroup.symm.trans hg⟩
      · trivial
      · trivial
    · exact (readable_callGraph (fun d hd => forall_aliasOf halias hd) l hl).told

/-- The calls that are declared, tree by tree. -/
def declaredCalls (f : Forest Node) : List Call :=
  f.trees.flatMap fun t => (Participants.ofForest (Forest.single t)).declared

theorem mem_callsOf_of_mem_declaredCalls {f : Forest Node} {e : Call} (he : e ∈ declaredCalls f) :
    e ∈ callsOf f := by
  obtain ⟨t, ht, he⟩ := List.mem_flatMap.1 he
  exact (callsOf_sublist_of_mem_trees ht).mem (Participants.mem_of_mem_declared he)

section Documents

variable {counter : Counter} {links : Links} {document : List Text} {f : Forest Node}
  (h : (parse counter links document).1 = .ok f)

include h

theorem nodup_declaredCalls : ((declaredCalls f).map Call.aliasName).Nodup := by
  rw [declaredCalls, List.map_flatMap]
  exact nodup_declared_trees (distinct_of_parse h).nodup

/-- The directives of the diagram of a document are told by their lines. -/
theorem told_of_parse (hstem : counter.stem = ['C']) {lines : List Line}
    (hdiagram : diagram f = .ok lines) : ∀ l ∈ lines, l.Told := by
  have hne : f ≠ .nil := by
    rintro rfl
    simp [diagram] at hdiagram
  obtain ⟨first, -, -, hsame⟩ := exists_diagram_of_parse h hne
  obtain rfl := Except.ok.inj (hsame.symm.trans hdiagram)
  have halias : ∀ c ∈ callsOf f, IsAlias c.aliasName := by
    intro c hc
    obtain ⟨n, hn, hcall⟩ := List.mem_filterMap.1 hc
    exact isAlias_of_parse hstem h hn hcall
  intro l hl
  rcases List.mem_append.1 hl with hl | hl
  · rcases List.mem_append.1 hl with hl | hl
    · simp only [preamble, List.mem_cons, List.not_mem_nil, or_false] at hl
      rcases hl with rfl | rfl | rfl | rfl <;> trivial
    · obtain ⟨t, ht, hl⟩ := List.mem_flatMap.1 hl
      obtain ⟨c, hc⟩ := exists_call?_of_mem_trees h ht
      exact told_treeSection hc (distinct_of_mem_trees (distinct_of_parse h) ht)
        (fun d hd => halias d ((callsOf_sublist_of_mem_trees ht).mem hd)) l hl
  · rw [List.mem_singleton.1 hl]
    trivial

/-- What the diagram of a document declares, and the lines that do so, are those of the calls that
are declared. -/
theorem declared_of_diagram {lines : List Line} (hdiagram : diagram f = .ok lines) :
    declarationsIn none lines = (declaredCalls f).map Call.declared ∧
      lines.filter Line.isParticipant = (declaredCalls f).map Participants.declaration := by
  have hne : f ≠ .nil := by
    rintro rfl
    simp [diagram] at hdiagram
  obtain ⟨first, -, -, hsame⟩ := exists_diagram_of_parse h hne
  obtain rfl := Except.ok.inj (hsame.symm.trans hdiagram)
  have hroots : ∀ t ∈ f.trees, ∃ c, t.1.call? = some c := fun t => exists_call?_of_mem_trees h
  have hpreamble : ∀ l ∈ preamble first, l.isDeclaring = false := by
    simp [preamble, Line.isDeclaring]
  constructor
  · rw [List.append_assoc, declarationsIn_append_of_not_declaring hpreamble,
      declarationsIn_flatMap_treeSection hroots, ← List.map_flatMap]
    exact List.append_nil _
  · have hfirst : (preamble first).filter Line.isParticipant = [] := rfl
    have hlast : [Line.closing].filter Line.isParticipant = [] := rfl
    rw [List.filter_append, List.filter_append, hfirst, hlast, List.append_nil, List.nil_append,
      List.filter_flatMap, declaredCalls, List.map_flatMap]
    refine List.flatMap_congr fun t ht => ?_
    obtain ⟨c, hc⟩ := hroots t ht
    exact participants_treeSection hc

/-- Every participant of the diagram of a document declares one of its calls, in the box of the
group of this call. -/
theorem exists_call_of_participant {lines before after : List Line} {label name : Text}
    {link : Option Text} (hdiagram : diagram f = .ok lines)
    (hsplit : lines = before ++ .participant label name link :: after) :
    ∃ e ∈ callsOf f, Participants.declaration e = .participant label name link ∧
      Line.boxBehind none before = e.group := by
  obtain ⟨hdeclarations, hparticipants⟩ := declared_of_diagram h hdiagram
  -- the box tells the group of a call, the line the link of one, and the alias that they are one
  obtain ⟨e, he, heq⟩ : ∃ e ∈ declaredCalls f,
      e.declared = ⟨name, Line.boxBehind none before, label⟩ := by
    have hmem := mem_declarationsIn before label name link after none
    rwa [← hsplit, hdeclarations, List.mem_map] at hmem
  obtain ⟨e', he', heq'⟩ : ∃ e ∈ declaredCalls f,
      Participants.declaration e = .participant label name link := by
    have hmem : Line.participant label name link ∈ lines.filter Line.isParticipant := by
      simp [hsplit, Line.isParticipant]
    rwa [hparticipants, List.mem_map] at hmem
  have hname : e.aliasName = e'.aliasName :=
    (congrArg Declaration.aliasName heq).trans (Line.participant.inj heq').2.1.symm
  obtain rfl := List.inj_on_of_nodup_map (nodup_declaredCalls h) he he' hname
  exact ⟨e, mem_callsOf_of_mem_declaredCalls he, heq',
    (congrArg Declaration.group heq).symm⟩

/-- The lines of the diagram of a document are its directives. -/
theorem pieces_diagramText (hstem : counter.stem = ['C']) (hlinks : ∀ l ∈ links, '\n' ∉ l.2.display)
    {text : Text} (htext : diagramText f = .ok text) :
    ∃ lines, diagram f = .ok lines ∧ (∀ l ∈ lines, l.Told) ∧
      Text.pieces '\n' text = lines.map Line.text := by
  obtain ⟨lines, hdiagram, rfl⟩ : ∃ lines, diagram f = .ok lines ∧ Line.document lines = text := by
    rw [diagramText] at htext
    cases hdiagram : diagram f with
    | error e => simp [hdiagram, Except.map] at htext
    | ok lines => exact ⟨lines, rfl, by simpa [hdiagram, Except.map] using htext⟩
  exact ⟨lines, hdiagram, told_of_parse h hstem hdiagram,
    pieces_diagram (by simp [hstem]) hlinks h hdiagram⟩

/-- A line of the diagram of a document that starts like a participant declares one of its calls, in
the box of its group, and shows the link of its component. -/
theorem exists_call_of_line (hstem : counter.stem = ['C'])
    (hlinks : ∀ l ∈ links, '\n' ∉ l.2.display) {text : Text} (htext : diagramText f = .ok text)
    {before after : List Text} {line : Text}
    (hsplit : Text.pieces '\n' text = before ++ line :: after)
    (hstart : participantStart <+: line) :
    ∃ e ∈ callsOf f, e.Named ∧ boxBehind none before = e.group ∧
      (∃ k, e.aliasName = 'C' :: Text.integer k) ∧ ShowsLink links e e.aliasName line := by
  obtain ⟨lines, hdiagram, htold, hpieces⟩ := pieces_diagramText h hstem hlinks htext
  rw [hpieces] at hsplit
  obtain ⟨front, behind, hlines, rfl, hbehind⟩ := List.map_eq_append_iff.1 hsplit
  obtain ⟨l, rest, rfl, rfl, -⟩ := List.map_eq_cons_iff.1 hbehind
  have hl : l.Told := htold l (by simp [hlines])
  cases l with
  | participant label name link =>
    obtain ⟨e, he, hdeclaration, hbox⟩ := exists_call_of_participant h hdiagram hlines
    obtain ⟨n, hn, hcall⟩ := List.mem_filterMap.1 he
    refine ⟨e, he, (distinct_of_parse h).named e he, ?_, exists_alias_of_parse hstem h hn hcall, ?_⟩
    · rw [boxBehind_map_text fun m hm => htold m (by simp [hlines, hm])]
      exact hbox
    · rw [← hdeclaration]
      exact showsLink_declaration rfl (linked_of_parse h he) (exists_getLast?_aliasName h he)
  | _ => exact absurd (isParticipant_of_text hl hstart) (by simp [Line.isParticipant])

end Documents

end CallDiagram
