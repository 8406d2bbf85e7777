import CallDiagram.Proofs.Diagram.Sections
import Mathlib

/-!
# Links follow components

Links are looked up when all groups are known, so the calls of one component have one link, and the
participant of a component shows it, whichever call was the first.

* `resolve_eq_map`, `link_of_parse_with_links` — what the calls of a document are linked to;
* `participants_treeSection` — the participants of a section are those of its first calls;
* `BoundTo`, `ShowsLink` — what some links bind a component to, and the line that shows it;
* `LinksFollowed`, `linksFollowed_of_parseLimited` — the links of a document and of its diagram.
-/

namespace CallDiagram

/-! ## Links of calls -/

/-- A call with the link of its component. -/
def Call.linked (links : Links) (c : Call) : Call :=
  { c with link := (Json.field? c.identifier links).getD .null }

/-- Linking calls without links is the same change for all of them, even if there is no link. -/
theorem resolve_eq_map {links : Links} {f : Forest Node} (h : ∀ c ∈ callsOf f, c.link = .null) :
    resolve links f = f.map (Node.mapCall (Call.linked links)) := by
  unfold resolve
  split
  · rename_i hempty
    obtain rfl := List.isEmpty_iff.1 hempty
    refine (Forest.map_eq_self fun n hn => Node.mapCall_eq_self fun c hc => ?_).symm
    have hlink := h c (mem_callsOf_of_mem_walk hn hc)
    rw [Call.linked, Json.field?, Option.getD_none, ← hlink]
  · rfl

theorem callsOf_map_mapCall (g : Call → Call) (f : Forest Node) :
    callsOf (f.map (Node.mapCall g)) = (callsOf f).map g := by
  rw [callsOf, callsOf, Forest.walk_map, List.filterMap_map, List.map_filterMap]
  exact List.filterMap_congr fun n _ => Node.call?_mapCall g n

/-- In a forest that a document makes, every call has the link of its component. -/
theorem linked_of_parse {counter : Counter} {links : Links} {document : List Text}
    {f : Forest Node} (h : (parse counter links document).1 = .ok f) {c : Call}
    (hc : c ∈ callsOf f) : c.link = (Json.field? c.identifier links).getD .null := by
  obtain ⟨-, g, hg, rfl⟩ := parse_eq_ok_iff.1 h
  have hnull : ∀ d ∈ callsOf g, d.link = .null := by
    intro d hd
    obtain ⟨n, hn, hcall⟩ := List.mem_filterMap.1 hd
    exact (lasting_oneLine.unlinked.arrange
      (fun _ hm => ⟨oneLine_of_mem_scan hm, fun _ => link_of_mem_scan hm⟩) hg n hn).1.2 d hcall
  rw [resolve_eq_map hnull, callsOf_map_mapCall] at hc
  obtain ⟨d, -, rfl⟩ := List.mem_map.1 hc
  rfl

/-- The calls of one component have one link. -/
theorem link_eq_of_component {counter : Counter} {links : Links} {document : List Text}
    {f : Forest Node} (h : (parse counter links document).1 = .ok f) {c d : Call}
    (hc : c ∈ callsOf f) (hd : d ∈ callsOf f) (hcomponent : c.component = d.component) :
    c.link = d.link := by
  have hnamed := (distinct_of_parse h).named
  have hidentifier := (identifier_eq_iff (hnamed c hc) (hnamed d hd)).2 hcomponent
  rw [linked_of_parse h hc, linked_of_parse h hd, hidentifier]

/-! ## Participants of sections -/

/-- Whether a line declares a participant. -/
def Line.isParticipant : Line → Bool
  | .participant _ _ _ => true
  | _ => false

/-- Whether a line declares a participant under a name. -/
def Line.declares (name : Text) : Line → Bool
  | .participant _ declared _ => declared = name
  | _ => false

theorem isParticipant_of_not_declaring {l : Line} (h : l.isDeclaring = false) :
    l.isParticipant = false := by
  cases l <;> simp_all [Line.isDeclaring, Line.isParticipant]

theorem participants_lines (p : Participants) :
    p.lines.filter Line.isParticipant = p.declared.map Participants.declaration := by
  have hbox : ∀ (group : Option Text) (calls : List Call),
      (Line.box group :: (calls.map Participants.declaration ++ [.endBox])).filter
          Line.isParticipant
        = calls.map Participants.declaration := by
    intro group calls
    simp [Line.isParticipant, List.filter_map, Function.comp_def, Participants.declaration]
  rw [Participants.lines, Participants.declared, List.filter_flatMap, List.map_flatMap]
  simp only [hbox]

/-- The participants of a section are those that are declared for its tree. -/
theorem participants_treeSection {t : Node × Forest Node} {c : Call} (hc : t.1.call? = some c) :
    (treeSection t).filter Line.isParticipant
      = (Participants.ofForest (Forest.single t)).declared.map Participants.declaration := by
  have hgraph : (callGraph (Participants.ofForest (Forest.single t)) none none
      (Forest.single t)).filter Line.isParticipant = [] := by
    rw [List.filter_eq_nil_iff]
    intro l hl
    simp [isParticipant_of_not_declaring (isDeclaring_callGraph l hl)]
  rw [treeSection_of_call hc, List.filter_cons_of_neg (by simp [Line.isParticipant]),
    List.filter_append, hgraph, List.append_nil, participants_lines]

theorem filter_eq_singleton {α β : Type} [DecidableEq β] {g : α → β} {l : List α}
    (h : (l.map g).Nodup) {a : α} (ha : a ∈ l) : l.filter (fun b => g b = g a) = [a] := by
  apply List.perm_singleton.1
  rw [List.perm_ext_iff_of_nodup (h.of_map.filter _) (List.nodup_singleton a)]
  intro b
  rw [List.mem_filter, decide_eq_true_eq, List.mem_singleton]
  constructor
  · rintro ⟨hb, heq⟩
    exact List.inj_on_of_nodup_map h hb ha heq
  · rintro rfl
    exact ⟨ha, rfl⟩

/-- One participant of a section is declared under the alias of a call that is declared. -/
theorem declares_treeSection {t : Node × Forest Node} {c : Call} (hc : t.1.call? = some c)
    (h : Distinct (callsOf (Forest.single t))) {e : Call}
    (he : e ∈ (Participants.ofForest (Forest.single t)).declared) :
    (treeSection t).filter (Line.declares e.aliasName) = [Participants.declaration e] := by
  have hdeclares : ∀ l : Line,
      Line.declares e.aliasName l = (Line.declares e.aliasName l && l.isParticipant) := by
    intro l
    cases l <;> simp [Line.declares, Line.isParticipant]
  have hsingle := filter_eq_singleton (nodup_declared h.nodup) he
  rw [List.filter_congr fun l _ => hdeclares l, ← List.filter_filter, participants_treeSection hc,
    List.filter_map]
  exact congrArg (List.map Participants.declaration) hsingle

/-- One participant is declared with the group and the label of a component. -/
theorem declarationsIn_lines_filter {calls : List Call} (h : Distinct calls) {d e : Call}
    (he : e ∈ (Participants.ofCalls calls).declared) (hcomponent : e.component = d.component) :
    (declarationsIn none (Participants.ofCalls calls).lines).filter
        (fun p => (p.group, p.label) = (d.group, d.label))
      = [e.declared] := by
  have hlines := declarationsIn_lines (Participants.boxed_ofCalls calls) []
  rw [List.append_nil, declarationsIn, List.append_nil] at hlines
  have hsame : ∀ a : Call,
      ((a.group, a.label) = (d.group, d.label)) = (a.component = e.component) := by
    intro a
    rw [hcomponent]
    simp [Call.component, Call.label]
  have hsingle := filter_eq_singleton (nodup_component_declared h.named) he
  rw [hlines, List.filter_map]
  simp only [Function.comp_def, Call.declared, hsame]
  exact congrArg (List.map Call.declared) hsingle

/-- One participant of a section is declared with the group and the label of a component. -/
theorem declarationsIn_treeSection_filter {t : Node × Forest Node} {c : Call}
    (hc : t.1.call? = some c) (h : Distinct (callsOf (Forest.single t))) {d e : Call}
    (he : e ∈ (Participants.ofForest (Forest.single t)).declared)
    (hcomponent : e.component = d.component) :
    (declarationsIn none (treeSection t)).filter (fun p => (p.group, p.label) = (d.group, d.label))
      = [e.declared] := by
  have hlines := declarationsIn_lines (Participants.boxed_ofCalls (callsOf (Forest.single t))) []
  have hsection := declarationsIn_treeSection hc []
  rw [List.append_nil] at hlines hsection
  rw [hsection.trans hlines.symm]
  exact declarationsIn_lines_filter h he hcomponent

/-! ## Hyperlinks -/

/-- Whether some links bind the component of a call to a value that counts as present and that is
shown as a text. -/
def BoundTo (links : Links) (c : Call) (shown : Text) : Prop :=
  ∃ v, Json.field? c.identifier links = some v ∧ v.isVoid = false ∧ v.display = shown

/-- A text as the hyperlink at the end of a line. -/
def hyperlink (shown : Text) : Text := " [[" ++ shown ++ "]]"

/-- The declaration of a participant without a hyperlink. -/
def participantText (label name : Text) : Text := "participant \"" ++ label ++ "\" as " ++ name

/-- A line that declares the component of a call under a name shows what the links bind the
component to. -/
structure ShowsLink (links : Links) (c : Call) (name line : Text) : Prop where
  linked : ∀ shown, line = participantText c.label name ++ hyperlink shown ↔ BoundTo links c shown
  unlinked : line = participantText c.label name ↔ ∀ shown, ¬ BoundTo links c shown
  ends : (∃ shown, hyperlink shown <:+ line) ↔ ∃ shown, BoundTo links c shown

/-- The link of a call shows a text exactly if the links bind its component to it. -/
theorem linkText?_eq_some_iff {links : Links} {c e : Call}
    (hlink : e.link = (Json.field? c.identifier links).getD .null) {shown : Text} :
    Participants.linkText? e.link = some shown ↔ BoundTo links c shown := by
  rw [hlink, Participants.linkText?, BoundTo]
  cases Json.field? c.identifier links with
  | none => simp [Json.isVoid]
  | some v => cases hv : v.isVoid <;> simp [hv]

theorem getLast?_append_eq_some {α : Type} {l : List α} {a : α} (h : l.getLast? = some a)
    (front : List α) : (front ++ l).getLast? = some a := by
  rw [List.getLast?_append, h, Option.some_or]

/-- No declaration whose alias ends in a digit ends in a hyperlink. -/
theorem not_hyperlink_suffix {label name shown : Text}
    (hname : ∃ d, name.getLast? = some d ∧ d.isDigit = true) :
    ¬ hyperlink shown <:+ participantText label name := by
  intro h
  obtain ⟨d, hd, hdigit⟩ := hname
  have hbracket : (hyperlink shown).getLast? = some ']' := getLast?_append_eq_some (by decide) _
  have hname : (participantText label name).getLast? = some d := getLast?_append_eq_some hd _
  obtain ⟨front, hfront⟩ := h
  have hlast := getLast?_append_eq_some hbracket front
  rw [hfront, hname] at hlast
  rw [Option.some.inj hlast] at hdigit
  exact absurd hdigit (by decide)

/-- A participant whose alias ends in a digit shows the link of its component. -/
theorem showsLink_declaration {links : Links} {c e : Call} (hlabel : e.label = c.label)
    (hlink : e.link = (Json.field? c.identifier links).getD .null)
    (hname : ∃ d, e.aliasName.getLast? = some d ∧ d.isDigit = true) :
    ShowsLink links c e.aliasName (Participants.declaration e).text := by
  have hbound : ∀ shown, Participants.linkText? e.link = some shown ↔ BoundTo links c shown :=
    fun _ => linkText?_eq_some_iff hlink
  rw [Participants.declaration, hlabel]
  cases hshown : Participants.linkText? e.link with
  | some shown =>
    have hline : (Line.participant c.label e.aliasName (some shown)).text
        = participantText c.label e.aliasName ++ hyperlink shown := rfl
    have hself : BoundTo links c shown := (hbound shown).1 hshown
    refine ⟨fun other => ?linked, ?unlinked,
      ⟨fun _ => ⟨shown, hself⟩, fun _ => ⟨shown, _, hline.symm⟩⟩⟩
    case linked =>
      rw [hline, List.append_cancel_left_eq, hyperlink, hyperlink, List.append_cancel_right_eq,
        List.append_cancel_left_eq, ← hbound other, hshown, Option.some.injEq]
    case unlinked =>
      rw [hline]
      exact iff_of_false (by simp [hyperlink]) fun h => h shown hself
  | none =>
    have hline : (Line.participant c.label e.aliasName none).text
        = participantText c.label e.aliasName := List.append_nil _
    have hnone : ∀ other, ¬ BoundTo links c other := fun other hother => by
      simp [(hbound other).2 hother] at hshown
    rw [hline]
    refine ⟨fun other => iff_of_false (by simp [hyperlink]) (hnone other), iff_of_true rfl hnone,
      iff_of_false ?bare ?free⟩
    case bare =>
      rintro ⟨other, h⟩
      exact not_hyperlink_suffix hname h
    case free =>
      rintro ⟨other, h⟩
      exact hnone other h

/-! ## Documents -/

/-- The calls and the diagram of a forest follow some links. -/
structure LinksFollowed (links : Links) (f : Forest Node) : Prop where
  /-- Every call has the link of its component, under the group that it has in the end. -/
  resolved : ∀ c ∈ callsOf f, ∃ g, c.group = some g ∧
    c.link = (Json.field? (g ++ '#' :: c.method) links).getD .null
  shared : ∀ c ∈ callsOf f, ∀ d ∈ callsOf f, c.component = d.component → c.link = d.link
  /-- Each tree has a section, between a preamble and a closing line. -/
  sections : f ≠ .nil → ∃ first, f.first?.bind Node.call? = some first ∧
    diagram f = .ok (preamble first ++ f.trees.flatMap treeSection ++ [.closing])
  /-- In the section of a tree, the component of every call is declared once, under the alias of
  its first call, by one line, which shows the link of the component. -/
  declared : ∀ t ∈ f.trees, ∀ c ∈ callsOf (Forest.single t), ∃ e line,
    ((callsOf (Forest.single t)).find? fun d => d.component = c.component) = some e ∧
      (declarationsIn none (treeSection t)).filter
          (fun p => (p.group, p.label) = (c.group, c.label))
        = [⟨e.aliasName, c.group, c.label⟩] ∧
      (treeSection t).filter (Line.declares e.aliasName) = [line] ∧
      ShowsLink links c e.aliasName line.text

theorem exists_getLast?_aliasName {counter : Counter} {links : Links} {document : List Text}
    {f : Forest Node} (h : (parse counter links document).1 = .ok f) {c : Call}
    (hc : c ∈ callsOf f) : ∃ d, c.aliasName.getLast? = some d ∧ d.isDigit = true := by
  obtain ⟨n, hn, hcall⟩ := List.mem_filterMap.1 hc
  obtain ⟨k, -, hname⟩ := exists_aliasName_of_parse h hn hcall
  obtain ⟨d, hlast, hdigit⟩ := exists_getLast?_integer (counter.advance k).next
  refine ⟨d, ?_, hdigit⟩
  rw [hname]
  exact getLast?_append_eq_some hlast counter.stem

/-- Whatever is linked, every document that makes a forest follows the links, whichever call of a
component comes first and whether or not it names the group. -/
theorem linksFollowed_of_parseLimited {counter : Counter} {links : Links} {document : List Text}
    {f : Forest Node} (h : (parseLimited counter links document).1 = .ok f) :
    LinksFollowed links f := by
  obtain ⟨-, hparse⟩ := parseLimited_eq_ok_iff.1 h
  have hdistinct := distinct_of_parse hparse
  refine ⟨fun c hc => ?resolved, fun c hc d hd => link_eq_of_component hparse hc hd,
    fun hne => ?sections, fun t ht c hc => ?declared⟩
  case resolved =>
    obtain ⟨g, hg, -⟩ := hdistinct.named c hc
    refine ⟨g, hg, ?_⟩
    rw [linked_of_parse hparse hc, Call.identifier, hg]
    rfl
  case sections =>
    obtain ⟨first, -, hfirst, hdiagram⟩ := exists_diagram_of_parse hparse hne
    exact ⟨first, hfirst, hdiagram⟩
  case declared =>
    have hsub := callsOf_sublist_of_mem_trees ht
    have htree := distinct_of_mem_trees hdistinct ht
    obtain ⟨root, hroot⟩ := exists_call?_of_mem_trees hparse ht
    obtain ⟨e, hfirst, -, he⟩ := exists_first htree hc
    have hmem : e ∈ callsOf f := hsub.mem (Participants.mem_of_mem_declared he)
    have hcomponent : e.component = c.component := by simpa using List.find?_some hfirst
    obtain ⟨hgroup, hmethod⟩ := Prod.mk.inj hcomponent
    have hlabel : e.label = c.label := by rw [Call.label, Call.label, hmethod]
    have hlink := link_eq_of_component hparse hmem (hsub.mem hc) hcomponent
    refine ⟨e, Participants.declaration e, hfirst, ?_, declares_treeSection hroot htree he, ?_⟩
    · rw [declarationsIn_treeSection_filter hroot htree he hcomponent, Call.declared, hgroup,
        hlabel]
    · exact showsLink_declaration hlabel (hlink.trans (linked_of_parse hparse (hsub.mem hc)))
        (exists_getLast?_aliasName hparse hmem)

/-- A component that is first called without its group, one that is linked to an empty text, one
that is linked to a number, and one that is not linked. -/
theorem linksFollowed_inherited :
    ∃ f, (parseLimited {} [(['A', '#', 'g'], .str ['u', ']', ']']), (['B', '#', 'h'], .str []),
        (['A', '#', 'f'], .int 7)]
      ["A#f()", "  g()", "  B#h()", "    A#g(): again", "A#k()", "  f()"]).1 = .ok f ∧
      LinksFollowed [(['A', '#', 'g'], .str ['u', ']', ']']), (['B', '#', 'h'], .str []),
        (['A', '#', 'f'], .int 7)] f := by
  obtain ⟨f, hf⟩ : ∃ f, (parseLimited {} [(['A', '#', 'g'], .str ['u', ']', ']']),
      (['B', '#', 'h'], .str []), (['A', '#', 'f'], .int 7)]
      ["A#f()", "  g()", "  B#h()", "    A#g(): again", "A#k()", "  f()"]).1 = .ok f :=
    ⟨_, by cbv⟩
  exact ⟨f, hf, linksFollowed_of_parseLimited hf⟩

end CallDiagram
