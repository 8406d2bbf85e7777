import CallDiagram.Proofs.Document.Reading
import CallDiagram.Proofs.Statement.Spelling

/-!
# What the passes keep of statements

Numbering, inheriting and linking change nothing of a statement but its alias, its group and its
link, and a group comes from another statement.

* `Lasting` — properties of nodes that the passes keep;
* `Lasting.number`, `Lasting.inherit`, `Lasting.parse` — they do, and every call gets a group;
* `Statement.OneLine`, `oneLine_of_read?` — what every line, whatever it holds, makes of a
  statement;
* `oneLine_of_parse` — the nodes of a forest that a document makes.
-/

namespace CallDiagram

/-! ## Lasting properties -/

/-- A property of nodes that does not look at aliases, and that lets a group be replaced by another
one, as long as groups are names. -/
structure Lasting (P : Node → Prop) : Prop where
  named : ∀ {n}, P n → ∀ c, n.call? = some c → ∀ g ∈ c.group, IsName g
  withAlias : ∀ {n}, P n → ∀ name, P (n.withAlias name)
  withGroup : ∀ {n}, P n → ∀ group, (∀ g ∈ group, IsName g) → P (n.withGroup group)

namespace Lasting

variable {P : Node → Prop} (hP : Lasting P)

include hP

theorem number {counter : Counter} {nodes : List Node} (h : ∀ n ∈ nodes, P n) :
    ∀ n ∈ number counter nodes, P n := by
  induction nodes generalizing counter with
  | nil => simp [CallDiagram.number]
  | cons m rest ih =>
    rw [number_cons]
    intro n hn
    rcases List.mem_cons.1 hn with rfl | hn
    · exact hP.withAlias (h m List.mem_cons_self) _
    · exact ih (fun k hk => h k (List.mem_cons_of_mem _ hk)) n hn

/-- The group that a node hands down is a name, if there is one to inherit or the node has its
own. -/
theorem nearestGroup_known {group : Option Text} {n : Node} (hn : P n)
    (hgroup : ∀ g ∈ group, IsName g) (hroot : group = none → rootFault? n = none) :
    (∀ g ∈ n.nearestGroup group, IsName g) ∧ n.nearestGroup group ≠ none := by
  -- without an own group the inherited one is there, or the node would be faulty at the top
  have hinherited : (∀ c g, n.call? = some c → Text.nonempty? c.group ≠ some g) → group ≠ none := by
    intro hown hnone
    obtain ⟨c, g, hc, hg⟩ := rootFault?_eq_none_iff.1 (hroot hnone)
    exact hown c g hc hg
  cases hc : n.call? with
  | none =>
    rw [Node.nearestGroup_of_no_call hc]
    exact ⟨hgroup, hinherited (by simp [hc])⟩
  | some c =>
    rw [Node.nearestGroup_of_call hc]
    cases hown : Text.nonempty? c.group with
    | none =>
      refine ⟨hgroup, hinherited fun d g hd => ?_⟩
      rw [← Option.some.inj (hc.symm.trans hd), hown]
      simp
    | some g =>
      obtain ⟨heq, -⟩ := Text.nonempty?_eq_some_iff.1 hown
      exact ⟨fun g' hg' => hP.named hn c hc g' (by rw [heq]; exact hg'), by simp⟩

/-- Inheriting gives every call a group, as soon as there is one to inherit or the top nodes have
their own. -/
theorem inherit {group : Option Text} {f : Forest Node} (hf : ∀ n ∈ f.walk, P n)
    (hgroup : ∀ g ∈ group, IsName g)
    (hroots : group = none → ∀ n ∈ f.tops, rootFault? n = none) :
    ∀ n ∈ (inherit group f).walk, P n ∧ ∀ c, n.call? = some c → c.group ≠ none := by
  induction f generalizing group with
  | nil => simp [CallDiagram.inherit, Forest.walk]
  | node m below after ihb iha =>
    have hm := hf m (by simp [Forest.walk])
    obtain ⟨hname, hknown⟩ := hP.nearestGroup_known hm hgroup
      fun hnone => hroots hnone m (by simp [Forest.tops])
    rw [inherit_node, Forest.walk]
    intro n hn
    rcases List.mem_cons.1 hn with rfl | hn
    · refine ⟨hP.withGroup hm _ hname, fun c hc => ?_⟩
      rw [Node.withGroup, Node.call?_mapCall] at hc
      obtain ⟨d, -, rfl⟩ := Option.map_eq_some_iff.1 hc
      exact hknown
    · rcases List.mem_append.1 hn with hn | hn
      · exact ihb (fun k hk => hf k (by simp [Forest.walk, hk])) hname
          (fun hnone => absurd hnone hknown) n hn
      · exact iha (fun k hk => hf k (by simp [Forest.walk, hk])) hgroup
          (fun hnone k hk => hroots hnone k (List.mem_cons_of_mem _ hk)) n hn

/-- What holds of the nodes of the lines of a document holds of the nodes of its forest, before
links are looked up, and every call of the forest has a group. -/
theorem arrange {counter : Counter} {nodes : List Node} {f : Forest Node}
    (h : ∀ n ∈ nodes, P n) (hf : arrange (CallDiagram.number counter nodes) = .ok f) :
    ∀ n ∈ f.walk, P n ∧ ∀ c, n.call? = some c → c.group ≠ none := by
  obtain ⟨hroots, rfl⟩ := arrange_eq_ok_iff.1 hf
  refine hP.inherit ?_ (by simp) fun _ => List.findSome?_eq_none_iff.1 hroots
  rw [Forest.walk_ofList]
  exact hP.number h

/-- Without links there is nothing else to keep. -/
theorem parse_without_links {counter : Counter} {document : List Text} {f : Forest Node}
    (h : ∀ n ∈ (scan 0 document).1, P n) (hf : (parse counter [] document).1 = .ok f) :
    ∀ n ∈ f.walk, P n ∧ ∀ c, n.call? = some c → c.group ≠ none := by
  obtain ⟨-, g, hg, rfl⟩ := parse_eq_ok_iff.1 hf
  exact hP.arrange h hg

/-- A property that does not look at links lasts through all passes. -/
theorem parse (hlink : ∀ {n}, P n → ∀ link : Call → Json,
      P (n.mapCall fun c => { c with link := link c }))
    {counter : Counter} {links : Links} {document : List Text} {f : Forest Node}
    (h : ∀ n ∈ (scan 0 document).1, P n) (hf : (parse counter links document).1 = .ok f) :
    ∀ n ∈ f.walk, P n ∧ ∀ c, n.call? = some c → c.group ≠ none := by
  obtain ⟨-, g, hg, rfl⟩ := parse_eq_ok_iff.1 hf
  have hg' := hP.arrange h hg
  unfold resolve
  split
  · exact hg'
  · rw [Forest.walk_map]
    intro n hn
    obtain ⟨m, hm, rfl⟩ := List.mem_map.1 hn
    obtain ⟨hkept, hgroup⟩ := hg' m hm
    refine ⟨hlink hkept _, fun c hc => ?_⟩
    rw [Node.call?_mapCall] at hc
    obtain ⟨d, hd, rfl⟩ := Option.map_eq_some_iff.1 hc
    exact hgroup d hd

/-- Before links are looked up, a call without a link stays one. -/
theorem unlinked : Lasting fun n => P n ∧ ∀ c, n.call? = some c → c.link = .null where
  named hn := hP.named hn.1
  withAlias hn name := ⟨hP.withAlias hn.1 name, fun c hc => by
    rw [Node.withAlias, Node.call?_mapCall] at hc
    obtain ⟨d, hd, rfl⟩ := Option.map_eq_some_iff.1 hc
    exact hn.2 d hd⟩
  withGroup hn group hgroup := ⟨hP.withGroup hn.1 group hgroup, fun c hc => by
    rw [Node.withGroup, Node.call?_mapCall] at hc
    obtain ⟨d, hd, rfl⟩ := Option.map_eq_some_iff.1 hc
    exact hn.2 d hd⟩

end Lasting

theorem statement_mapCall {Q : Statement → Prop} {f : Call → Call} {n : Node}
    (h : Q n.statement) (hf : ∀ c, Q (.call c) → Q (.call (f c))) :
    Q (n.mapCall f).statement := by
  obtain ⟨index, source, indent, statement⟩ := n
  cases statement with
  | call c => exact hf c h
  | _ => exact h

/-- A property of statements lasts if it does so for calls. -/
theorem lasting_of_statement {Q : Statement → Prop}
    (hnamed : ∀ c, Q (.call c) → ∀ g ∈ c.group, IsName g)
    (halias : ∀ c name, Q (.call c) → Q (.call { c with aliasName := name }))
    (hgroup : ∀ c group, (∀ g ∈ group, IsName g) → Q (.call c) →
      Q (.call { c with group := group })) : Lasting fun n => Q n.statement where
  named hn c hc := hnamed c (Node.statement_of_call? hc ▸ hn)
  withAlias hn name := statement_mapCall hn fun c => halias c name
  withGroup hn group hg := statement_mapCall hn fun c => hgroup c group hg

/-- Every node of a document comes from one of its lines. -/
theorem exists_read?_of_mem_scan {document : List Text} {n : Node}
    (hn : n ∈ (scan 0 document).1) :
    ∃ line ∈ document, ∃ r, Statement.read? line = some r ∧ n.statement = r.2 := by
  rw [scan_nodes] at hn
  obtain ⟨l, hl, hnode⟩ := List.mem_filterMap.1 hn
  have hmem : l.1 ∈ document :=
    (List.takeWhile_sublist _).mem (List.fst_mem_of_mem_zipIdx hl)
  unfold nodeOfLine? at hnode
  split at hnode
  · simp at hnode
  · obtain ⟨r, hr, rfl⟩ := Option.map_eq_some_iff.1 hnode
    exact ⟨l.1, hmem, r, hr, rfl⟩

theorem link_of_read? {line : Text} {r : Nat × Statement} (hr : Statement.read? line = some r)
    {c : Call} (hc : r.2.call? = some c) : c.link = .null := by
  obtain ⟨body, hbody⟩ := exists_callOf?_of_read? hr hc
  obtain ⟨group, method, tail, comments, -, -, -, -, rfl⟩ := callOf?_eq_some_iff.1 hbody
  rfl

theorem link_of_mem_scan {document : List Text} {n : Node} (hn : n ∈ (scan 0 document).1)
    {c : Call} (hc : n.call? = some c) : c.link = .null := by
  obtain ⟨line, -, r, hr, hstatement⟩ := exists_read?_of_mem_scan hn
  exact link_of_read? hr (hstatement ▸ hc)

/-! ## Statements of any line -/

/-- The form of the statements that the reader makes from any lines: names are names, comments and
notes hold no line break, and comments hold a character. -/
def Statement.OneLine : Statement → Prop
  | .call c =>
      (∀ g ∈ c.group, IsName g) ∧ IsName c.method ∧
        (∀ t ∈ c.comment, t ≠ [] ∧ '\n' ∉ t) ∧ ∀ t ∈ c.answer, t ≠ [] ∧ '\n' ∉ t
  | .loop note => '\n' ∉ note
  | .condition note => '\n' ∉ note
  | .alternative note => ∀ t ∈ note, t ≠ [] ∧ '\n' ∉ t
  | .bare => False

theorem not_mem_break_of_note? {t note : Text} (h : note? t = some note) : '\n' ∉ note := by
  unfold note? at h
  split at h
  · simp at h
  · rename_i hbreak
    rwa [← Option.some.inj h]

theorem not_mem_break_of_nonempty? {o : Option Text} (ho : ∀ t ∈ o, '\n' ∉ t) {t : Text}
    (ht : t ∈ Text.nonempty? o) : t ≠ [] ∧ '\n' ∉ t := by
  obtain ⟨heq, hne⟩ := Text.nonempty?_eq_some_iff.1 (Option.mem_def.1 ht)
  exact ⟨hne, ho t heq⟩

theorem not_mem_break_of_commentEnd? {t : Text} {answer : Option Text}
    (h : commentEnd? t = some answer) : ∀ a ∈ answer, '\n' ∉ a := by
  unfold commentEnd? at h
  split at h
  · obtain rfl := Option.some.inj h
    simp
  · obtain ⟨a, ha, rfl⟩ := Option.map_eq_some_iff.1 h
    simpa using not_mem_break_of_note? ha
  · simp at h

theorem not_mem_break_of_commentAndAnswer? {t : Text} {r : Text × Option Text}
    (h : commentAndAnswer? t = some r) : '\n' ∉ r.1 ∧ ∀ a ∈ r.2, '\n' ∉ a := by
  induction t generalizing r with
  | nil =>
    obtain rfl := Option.some.inj h
    simp
  | cons c rest ih =>
    unfold commentAndAnswer? at h
    split at h
    · rename_i answer hanswer
      obtain rfl := Option.some.inj h
      exact ⟨by simp, not_mem_break_of_commentEnd? hanswer⟩
    · split at h
      · simp at h
      · rename_i hc
        obtain ⟨r', hr', rfl⟩ := Option.map_eq_some_iff.1 h
        obtain ⟨hcomment, hanswer⟩ := ih hr'
        exact ⟨by simp [Ne.symm hc, hcomment], hanswer⟩

theorem not_mem_break_of_comments? {tail : Text} {r : Option Text × Option Text}
    (h : comments? tail = some r) :
    (∀ t ∈ r.1, t ≠ [] ∧ '\n' ∉ t) ∧ ∀ t ∈ r.2, t ≠ [] ∧ '\n' ∉ t := by
  unfold comments? at h
  split at h
  · obtain rfl := Option.some.inj h
    simp
  · obtain ⟨r', hr', rfl⟩ := Option.map_eq_some_iff.1 h
    obtain ⟨hcomment, hanswer⟩ := not_mem_break_of_commentAndAnswer? hr'
    exact ⟨fun t => not_mem_break_of_nonempty? (by simpa using hcomment),
      fun t => not_mem_break_of_nonempty? hanswer⟩
  · obtain ⟨a, ha, rfl⟩ := Option.map_eq_some_iff.1 h
    exact ⟨by simp, fun t => not_mem_break_of_nonempty? (by simpa using not_mem_break_of_note? ha)⟩
  · simp at h

theorem not_mem_break_of_keyword? {word body note : Text} (h : keyword? word body = some note) :
    '\n' ∉ note := by
  obtain ⟨c, rest, -, -, hnote⟩ := keyword?_eq_some_iff.1 h
  exact not_mem_break_of_note? hnote

/-- Whatever a line holds, its statement holds no line break. -/
theorem oneLine_of_read? {line : Text} {r : Nat × Statement}
    (hr : Statement.read? line = some r) : r.2.OneLine := by
  obtain ⟨s, hs, rfl⟩ := Option.map_eq_some_iff.1 hr
  rcases ofBody?_eq_some hs with ⟨c, hc, rfl⟩ | ⟨note, hn, rfl⟩ | ⟨note, hn, rfl⟩ | ⟨note, hn, rfl⟩
  · obtain ⟨group, method, tail, r, hg, hm, -, hcomments, rfl⟩ := callOf?_eq_some_iff.1 hc
    exact ⟨hg, hm, not_mem_break_of_comments? hcomments⟩
  · exact not_mem_break_of_keyword? hn
  · exact not_mem_break_of_keyword? hn
  · unfold alternative? at hn
    split at hn
    · obtain rfl := Option.some.inj hn
      simp [Statement.OneLine]
    · obtain ⟨t, ht, rfl⟩ := Option.map_eq_some_iff.1 hn
      exact fun u => not_mem_break_of_nonempty? (by simpa using not_mem_break_of_keyword? ht)

theorem lasting_oneLine : Lasting fun n => n.statement.OneLine :=
  lasting_of_statement (fun _ hc => hc.1) (fun _ _ hc => hc) fun _ _ hgroup hc => ⟨hgroup, hc.2⟩

theorem oneLine_of_mem_scan {document : List Text} {n : Node} (hn : n ∈ (scan 0 document).1) :
    n.statement.OneLine := by
  obtain ⟨line, -, r, hr, hstatement⟩ := exists_read?_of_mem_scan hn
  rw [hstatement]
  exact oneLine_of_read? hr

/-- In a forest that a document makes, names are names, comments and notes hold no line break, and
every call has a group. -/
theorem oneLine_of_parse {counter : Counter} {links : Links} {document : List Text}
    {f : Forest Node} (h : (parse counter links document).1 = .ok f) :
    ∀ n ∈ f.walk, n.statement.OneLine ∧ ∀ c, n.call? = some c → c.group ≠ none :=
  lasting_oneLine.parse (fun hn _ => statement_mapCall hn fun _ hc => hc)
    (fun _ hn => oneLine_of_mem_scan hn) h

/-- Every call of a forest that a document makes has a group with a name, and a method. -/
theorem exists_group_of_parse {counter : Counter} {links : Links} {document : List Text}
    {f : Forest Node} (h : (parse counter links document).1 = .ok f) {n : Node} (hn : n ∈ f.walk)
    {c : Call} (hc : n.call? = some c) : ∃ g, c.group = some g ∧ IsName g ∧ IsName c.method := by
  obtain ⟨hline, hgroup⟩ := oneLine_of_parse h n hn
  rw [Node.statement_of_call? hc] at hline
  obtain ⟨g, hg⟩ := Option.ne_none_iff_exists'.1 (hgroup c hc)
  exact ⟨g, hg, hline.1 g hg, hline.2.1⟩

/-- Without links, no call of a document is linked. -/
theorem link_of_parse {counter : Counter} {document : List Text} {f : Forest Node}
    (h : (parse counter [] document).1 = .ok f) {n : Node} (hn : n ∈ f.walk) {c : Call}
    (hc : n.call? = some c) : c.link = .null :=
  (lasting_oneLine.unlinked.parse_without_links
    (fun _ hm => ⟨oneLine_of_mem_scan hm, fun _ hd => link_of_mem_scan hm hd⟩) h n hn).1.2 c hc

end CallDiagram
