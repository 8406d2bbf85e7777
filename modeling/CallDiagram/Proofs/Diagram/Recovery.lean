import CallDiagram.Proofs.Diagram.Sections

/-!
# Trees recovered from sections

The directives of the sections of some trees determine the trees, but for what no directive shows:
lines, indents, and what is said on the way back from a root.

* `chainsWhole` — every alternative follows a branch at its level;
* `Alike` — statements that start with the same directives;
* `map_shown_eq_of_callGraph_eq` — call graphs in front of other directives, by induction on the
  forest;
* `ShownTree`, `map_shownTree_eq_of_sections_eq` — sections, one after the other.
-/

namespace CallDiagram

/-- Whether every alternative of a forest follows a branch at its level; `before` is the statement
in front of the forest. -/
def chainsWhole (before : Option Statement) : Forest Node → Bool
  | .nil => true
  | .node n below after =>
      (!n.statement.isAlternative || before.any Statement.isBranch) && chainsWhole none below
        && chainsWhole (some n.statement) after

/-- What is shown of a node that is not a root: its statement, without alias and link. -/
def Node.shown (n : Node) : Statement := n.statement.asWritten

/-- Calls of two lists that are known under one alias are of one component. -/
def OneMeaning (p p' : Participants) (calls calls' : List Call) : Prop :=
  ∀ c ∈ calls, ∀ c' ∈ calls', p.aliasOf c = p'.aliasOf c' → c.component = c'.component

/-! ## The starts of statements -/

/-- Whether a directive opens an activity, a loop or a region of alternatives, or leads to what
does. -/
def Line.isOpening : Line → Bool
  | .arrow _ _ _ => true
  | .activate _ => true
  | .loop _ => true
  | .alt _ => true
  | _ => false

/-- Whether the first of some directives opens nothing. -/
def OpensNothing (lines : List Line) : Prop := ∀ l ∈ lines.head?, l.isOpening = false

/-- Whether a forest starts with an alternative. -/
def startsAlternative (f : Forest Node) : Bool :=
  (f.first?.map Node.statement).any Statement.isAlternative

/-- Statements that start with the same directives, with the aliases of two sections. -/
inductive Alike (p p' : Participants) : Statement → Statement → Prop where
  | call {c c' : Call} : p.aliasOf c = p'.aliasOf c' → c.comment = c'.comment →
      Alike p p' (.call c) (.call c')
  | loop (note : Text) : Alike p p' (.loop note) (.loop note)
  | condition (note : Text) : Alike p p' (.condition note) (.condition note)
  | alternative (note : Option Text) : Alike p p' (.alternative note) (.alternative note)

theorem nonempty?_of_oneLine {o : Option Text} (h : ∀ t ∈ o, t ≠ [] ∧ '\n' ∉ t) :
    Text.nonempty? o = o :=
  Text.nonempty?_of_ne_some_nil fun hnil => (h [] hnil).1 rfl

section Statements

variable {p p' : Participants} {caller caller' : Call} {before before' : Option Statement}
  {s s' : Statement}

/-- The directives at the start of an alternative that follows a branch. -/
theorem enter_alternative {note : Option Text} (hs : (Statement.alternative note).OneLine)
    (hbefore : before.any Statement.isBranch = true) (caller : Option Call) :
    enter p caller before (.alternative note) = [.otherwise note] := by
  rw [enter, if_pos hbefore, nonempty?_of_oneLine hs]

/-- Every other statement opens something. -/
theorem exists_enter_eq_cons (hs : s.OneLine) (halternative : s.isAlternative = false)
    (p : Participants) (caller : Call) (before : Option Statement) : ∃ l lines,
      enter p (some caller) before s = l :: lines ∧ l.isOpening = true := by
  cases s with
  | call c => exact ⟨_, _, rfl, rfl⟩
  | loop note => exact ⟨_, _, rfl, rfl⟩
  | condition note => exact ⟨_, _, rfl, rfl⟩
  | alternative note => simp [Statement.isAlternative] at halternative
  | bare => exact absurd hs id

/-- Statements whose first directives agree are alike. -/
theorem alike_of_enter_eq (hs : s.OneLine) (hs' : s'.OneLine)
    (hwhole : s.isAlternative = true → before.any Statement.isBranch = true)
    (hwhole' : s'.isAlternative = true → before'.any Statement.isBranch = true)
    {rest rest' : List Line}
    (h : enter p (some caller) before s ++ rest = enter p' (some caller') before' s' ++ rest') :
    Alike p p' s s' ∧ rest = rest' := by
  have hotherwise : ∀ {note}, s = .alternative note →
      enter p (some caller) before s = [.otherwise note] := by
    rintro note rfl
    exact enter_alternative hs (hwhole rfl) _
  have hotherwise' : ∀ {note}, s' = .alternative note →
      enter p' (some caller') before' s' = [.otherwise note] := by
    rintro note rfl
    exact enter_alternative hs' (hwhole' rfl) _
  cases s with
  | call c =>
    cases s' with
    | call c' =>
      obtain ⟨harrow, hrest⟩ := List.cons.inj h
      obtain ⟨hactivate, hrest⟩ := List.cons.inj hrest
      rw [Line.arrow.injEq, nonempty?_of_oneLine hs.2.2.1, nonempty?_of_oneLine hs'.2.2.1] at harrow
      exact ⟨.call harrow.2.1 harrow.2.2, hrest⟩
    | alternative note => rw [hotherwise' rfl] at h; simp [enter] at h
    | bare => exact absurd hs' id
    | _ => simp [enter] at h
  | loop note =>
    cases s' with
    | loop note' =>
      obtain ⟨hloop, hrest⟩ := List.cons.inj h
      rw [Line.loop.inj hloop]
      exact ⟨.loop note', hrest⟩
    | alternative note => rw [hotherwise' rfl] at h; simp [enter] at h
    | bare => exact absurd hs' id
    | _ => simp [enter] at h
  | condition note =>
    cases s' with
    | condition note' =>
      obtain ⟨halt, hrest⟩ := List.cons.inj h
      rw [List.append_cancel_left (Line.alt.inj halt)]
      exact ⟨.condition note', hrest⟩
    | alternative note => rw [hotherwise' rfl] at h; simp [enter] at h
    | bare => exact absurd hs' id
    | _ => simp [enter] at h
  | alternative note =>
    rw [hotherwise rfl] at h
    cases s' with
    | alternative note' =>
      rw [hotherwise' rfl] at h
      obtain ⟨hguard, hrest⟩ := List.cons.inj h
      rw [Line.otherwise.inj hguard]
      exact ⟨.alternative note', hrest⟩
    | bare => exact absurd hs' id
    | _ => simp [enter] at h
  | bare => exact absurd hs id

/-! ## The ends of statements -/

/-- The callers below statements that are alike are known under one alias. -/
theorem Alike.exists_caller (h : Alike p p' s s') (hcaller : p.aliasOf caller = p'.aliasOf caller') :
    ∃ d d', (s.call? <|> some caller) = some d ∧ (s'.call? <|> some caller') = some d' ∧
      p.aliasOf d = p'.aliasOf d' := by
  cases h with
  | @call c c' halias _ => exact ⟨c, c', rfl, rfl, halias⟩
  | loop note => exact ⟨caller, caller', rfl, rfl, hcaller⟩
  | condition note => exact ⟨caller, caller', rfl, rfl, hcaller⟩
  | alternative note => exact ⟨caller, caller', rfl, rfl, hcaller⟩

/-- The end of a branch shows whether its chain goes on. -/
theorem endAlt_eq {b b' : Bool} {rest rest' : List Line}
    (hrest : b = true → ∃ guard lines, rest = .otherwise guard :: lines)
    (hrest' : b' = true → ∃ guard lines, rest' = .otherwise guard :: lines)
    (h : (if b then [] else [Line.endAlt]) ++ rest = (if b' then [] else [Line.endAlt]) ++ rest') :
    b = b' ∧ rest = rest' := by
  cases b with
  | true =>
    cases b' with
    | true => exact ⟨rfl, h⟩
    | false =>
      obtain ⟨guard, lines, rfl⟩ := hrest rfl
      simp at h
  | false =>
    cases b' with
    | true =>
      obtain ⟨guard, lines, rfl⟩ := hrest' rfl
      simp at h
    | false => exact ⟨rfl, by simpa using h⟩

/-- Statements that start alike and whose last directives agree are the same, and their chains go on
alike. -/
theorem asWritten_eq_of_leave_eq (hs : s.OneLine) (hs' : s'.OneLine) (halike : Alike p p' s s')
    (hmeaning : OneMeaning p p' s.call?.toList s'.call?.toList)
    {next next' : Option Statement} {rest rest' : List Line}
    (hrest : next.any Statement.isAlternative = true →
      ∃ guard lines, rest = .otherwise guard :: lines)
    (hrest' : next'.any Statement.isAlternative = true →
      ∃ guard lines, rest' = .otherwise guard :: lines)
    (h : leave p (some caller) next s ++ rest = leave p' (some caller') next' s' ++ rest') :
    s.asWritten = s'.asWritten ∧
      (s.isBranch = true → next.any Statement.isAlternative = next'.any Statement.isAlternative) ∧
        rest = rest' := by
  cases halike with
  | @call c c' halias hcomment =>
    obtain ⟨hanswer, hrest⟩ := List.cons.inj h
    obtain ⟨-, hrest⟩ := List.cons.inj hrest
    rw [Line.answer.injEq, nonempty?_of_oneLine hs.2.2.2, nonempty?_of_oneLine hs'.2.2.2] at hanswer
    obtain ⟨hgroup, hmethod⟩ := Prod.mk.inj
      (hmeaning c List.mem_cons_self c' List.mem_cons_self halias)
    refine ⟨?_, by simp [Statement.isBranch], hrest⟩
    simp [Statement.asWritten, Call.asWritten, hgroup, hmethod, hcomment, hanswer]
  | loop note => exact ⟨rfl, by simp [Statement.isBranch], (List.cons.inj h).2⟩
  | condition note =>
    obtain ⟨hnext, hrest⟩ := endAlt_eq hrest hrest' h
    exact ⟨rfl, fun _ => hnext, hrest⟩
  | alternative note =>
    obtain ⟨hnext, hrest⟩ := endAlt_eq hrest hrest' h
    exact ⟨rfl, fun _ => hnext, hrest⟩

/-- The last directives of a statement open nothing, nor does what follows a branch whose chain
goes on. -/
theorem opensNothing_leave (hs : s.OneLine) {next : Option Statement} {rest : List Line}
    (hrest : next.any Statement.isAlternative = true →
      ∃ guard lines, rest = .otherwise guard :: lines) :
    OpensNothing (leave p (some caller) next s ++ rest) := by
  have hbranch : OpensNothing
      ((if next.any Statement.isAlternative then [] else [Line.endAlt]) ++ rest) := by
    cases hnext : next.any Statement.isAlternative with
    | true =>
      obtain ⟨guard, lines, rfl⟩ := hrest hnext
      simp [OpensNothing, Line.isOpening]
    | false => simp [OpensNothing, Line.isOpening]
  cases s with
  | call c => simp [leave, OpensNothing, Line.isOpening]
  | loop note => simp [leave, OpensNothing, Line.isOpening]
  | condition note => exact hbranch
  | alternative note => exact hbranch
  | bare => exact absurd hs id

end Statements

/-! ## Call graphs -/

section CallGraph

variable {p p' : Participants}

theorem chainsWhole_node {before : Option Statement} {n : Node} {below after : Forest Node} :
    chainsWhole before (.node n below after) = true ↔
      (n.statement.isAlternative = true → before.any Statement.isBranch = true) ∧
        chainsWhole none below = true ∧ chainsWhole (some n.statement) after = true := by
  rw [chainsWhole, Bool.and_eq_true, Bool.and_eq_true, Bool.or_eq_true, Bool.not_eq_true',
    and_assoc]
  cases n.statement.isAlternative <;> simp

/-- Without a branch in front, no forest whose chains are whole starts with an alternative. -/
theorem startsAlternative_eq_false {before : Option Statement} {f : Forest Node}
    (h : chainsWhole before f = true) (hbefore : before.any Statement.isBranch = false) :
    startsAlternative f = false := by
  cases f with
  | nil => rfl
  | node n below after =>
    obtain ⟨hn, -, -⟩ := chainsWhole_node.1 h
    show n.statement.isAlternative = false
    by_contra hne
    rw [hn (by simpa using hne)] at hbefore
    exact Bool.noConfusion hbefore

theorem callGraph_node {n : Node} (hn : n.statement.OneLine) (caller : Option Call)
    (before : Option Statement) (below after : Forest Node) (rest : List Line) :
    callGraph p caller before (.node n below after) ++ rest
      = enter p caller before n.statement
        ++ (callGraph p (n.call? <|> caller) none below
          ++ (leave p caller (after.first?.map Node.statement) n.statement
            ++ (callGraph p caller (some n.statement) after ++ rest))) := by
  have hblock : n.statement.isBlock = true := by
    cases hs : n.statement with
    | bare =>
      rw [hs] at hn
      exact absurd hn id
    | _ => rfl
  rw [callGraph, if_pos hblock]
  simp only [List.append_assoc]

/-- A forest that starts with an alternative shows it. -/
theorem exists_callGraph_eq_otherwise {f : Forest Node} (hf : ∀ n ∈ f.walk, n.statement.OneLine)
    {before : Option Statement} (hwhole : chainsWhole before f = true)
    (h : startsAlternative f = true) (caller : Option Call) (rest : List Line) :
    ∃ guard lines, callGraph p caller before f ++ rest = .otherwise guard :: lines := by
  cases f with
  | nil => simp [startsAlternative, Forest.first?] at h
  | node n below after =>
    have hn := hf n (by simp [Forest.walk])
    rw [callGraph_node hn]
    obtain ⟨hbefore, -, -⟩ := chainsWhole_node.1 hwhole
    have halternative : n.statement.isAlternative = true := h
    cases hs : n.statement with
    | alternative note =>
      rw [enter_alternative (hs ▸ hn) (hbefore halternative)]
      exact ⟨note, _, rfl⟩
    | _ => simp [hs, Statement.isAlternative] at halternative

/-- A forest that does not start with an alternative opens something, if there is a tree. -/
theorem not_opensNothing_callGraph {n : Node} (hn : n.statement.OneLine)
    (h : n.statement.isAlternative = false) (caller : Call) (before : Option Statement)
    (below after : Forest Node) (rest : List Line) :
    ¬ OpensNothing (callGraph p (some caller) before (.node n below after) ++ rest) := by
  obtain ⟨l, lines, henter, hopening⟩ := exists_enter_eq_cons hn h p caller before
  rw [callGraph_node hn, henter]
  intro hnothing
  rw [hnothing l (by simp)] at hopening
  exact Bool.noConfusion hopening

theorem OneMeaning.node {n m : Node} {below after below' after' : Forest Node}
    (h : OneMeaning p p' (callsOf (.node n below after)) (callsOf (.node m below' after'))) :
    OneMeaning p p' n.call?.toList m.call?.toList ∧
      OneMeaning p p' (callsOf below) (callsOf below') ∧
        OneMeaning p p' (callsOf after) (callsOf after') := by
  rw [callsOf_node, callsOf_node] at h
  refine ⟨fun c hc c' hc' => ?_, fun c hc c' hc' => ?_, fun c hc c' hc' => ?_⟩
  · exact h c (List.mem_append_left _ hc) c' (List.mem_append_left _ hc')
  · exact h c (by simp [hc]) c' (by simp [hc'])
  · exact h c (by simp [hc]) c' (by simp [hc'])

/-- Statements that are alike are branches both or neither. -/
theorem Alike.isBranch_eq {s s' : Statement} (h : Alike p p' s s') : s.isBranch = s'.isBranch := by
  cases h <;> rfl

/-- Call graphs below callers that are known under one alias, in front of directives that open
nothing, determine what is shown of the forests. -/
theorem map_shown_eq_of_callGraph_eq {f g : Forest Node}
    (hf : ∀ n ∈ f.walk, n.statement.OneLine) (hg : ∀ n ∈ g.walk, n.statement.OneLine)
    (hmeaning : OneMeaning p p' (callsOf f) (callsOf g))
    {caller caller' : Call} (hcaller : p.aliasOf caller = p'.aliasOf caller')
    {before before' : Option Statement} (hwhole : chainsWhole before f = true)
    (hwhole' : chainsWhole before' g = true)
    (hstart : startsAlternative f = startsAlternative g) {rest rest' : List Line}
    (hrest : OpensNothing rest) (hrest' : OpensNothing rest')
    (h : callGraph p (some caller) before f ++ rest
      = callGraph p' (some caller') before' g ++ rest') :
    f.map Node.shown = g.map Node.shown ∧ rest = rest' := by
  induction f generalizing g caller caller' before before' rest rest' with
  | nil =>
    cases g with
    | nil => exact ⟨rfl, h⟩
    | node m below' after' =>
      rw [callGraph, List.nil_append] at h
      rw [h] at hrest
      exact absurd hrest (not_opensNothing_callGraph (hg m List.mem_cons_self) hstart.symm _ _ _ _ _)
  | node n below after ihb iha =>
    cases g with
    | nil =>
      rw [callGraph, List.nil_append] at h
      rw [← h] at hrest'
      exact absurd hrest' (not_opensNothing_callGraph (hf n List.mem_cons_self) hstart _ _ _ _ _)
    | node m below' after' =>
      obtain ⟨hn, hbelow, hafter⟩ := Forest.forall_mem_walk_node.1 hf
      obtain ⟨hm, hbelow', hafter'⟩ := Forest.forall_mem_walk_node.1 hg
      obtain ⟨hchain, hwb, hwa⟩ := chainsWhole_node.1 hwhole
      obtain ⟨hchain', hwb', hwa'⟩ := chainsWhole_node.1 hwhole'
      obtain ⟨hself, hinside, houtside⟩ := hmeaning.node
      have hnext := exists_callGraph_eq_otherwise (p := p) hafter hwa
      have hnext' := exists_callGraph_eq_otherwise (p := p') hafter' hwa'
      rw [callGraph_node hn, callGraph_node hm] at h
      -- the first directives, then the forests below, then the last directives, then the rest
      obtain ⟨halike, h⟩ := alike_of_enter_eq hn hm hchain hchain' h
      obtain ⟨d, d', hd, hd', hinner⟩ := halike.exists_caller hcaller
      rw [Node.call?, hd, Node.call?, hd'] at h
      obtain ⟨hshown, h⟩ := ihb hbelow hbelow' hinside hinner hwb hwb'
        ((startsAlternative_eq_false hwb rfl).trans (startsAlternative_eq_false hwb' rfl).symm)
        (opensNothing_leave hn fun hopen => hnext hopen _ _)
        (opensNothing_leave hm fun hopen => hnext' hopen _ _) h
      obtain ⟨hsame, hgoes, h⟩ := asWritten_eq_of_leave_eq hn hm halike hself
        (fun hopen => hnext hopen _ _) (fun hopen => hnext' hopen _ _) h
      have hstarts : startsAlternative after = startsAlternative after' := by
        cases hbranch : n.statement.isBranch with
        | true => exact hgoes hbranch
        | false =>
          exact (startsAlternative_eq_false hwa hbranch).trans
            (startsAlternative_eq_false hwa' (halike.isBranch_eq.symm.trans hbranch)).symm
      obtain ⟨hshown', h⟩ := iha hafter hafter' houtside hcaller hwa hwa' hstarts hrest hrest' h
      rw [Forest.map, Forest.map, hshown, hshown', Node.shown, Node.shown, hsame]
      exact ⟨rfl, h⟩

end CallGraph

/-! ## Sections -/

/-- What is shown of a tree: the component and the title of its root, and the nodes below it. -/
structure ShownTree where
  component : Option Text × Text
  title : Text
  below : Forest Statement

/-- What is shown of a tree whose top node is a call. -/
def shownTree (t : Node × Forest Node) : Option ShownTree :=
  t.1.call?.map fun c => ⟨c.component, headingOf c, t.2.map Node.shown⟩

/-- The trees that their sections tell: below a call, statements of single lines, chains that are
whole, and calls with names and aliases of their own. -/
structure Recoverable (t : Node × Forest Node) : Prop where
  root : ∃ c, t.1.call? = some c
  oneLine : ∀ n ∈ t.2.walk, n.statement.OneLine
  distinct : Distinct (callsOf (Forest.single t))
  whole : chainsWhole none t.2 = true

/-- The call graph of a tree is the activity of its root. -/
theorem callGraph_single {p : Participants} {t : Node × Forest Node} {c : Call}
    (hc : t.1.call? = some c) (rest : List Line) :
    callGraph p none none (Forest.single t) ++ rest
      = .activate (p.aliasOf c) ::
          (callGraph p (some c) none t.2 ++ .deactivate (p.aliasOf c) :: rest) := by
  have hstatement := Node.statement_of_call? hc
  simp [Forest.single, callGraph, hstatement, Statement.isBlock, enter, leave, hc]

/-- The declarations at the start of some directives end at the first directive of another kind. -/
theorem declaring_append_inj {front front' : List Line} {l l' : Line} {rest rest' : List Line}
    (hfront : ∀ m ∈ front, m.isDeclaring = true) (hfront' : ∀ m ∈ front', m.isDeclaring = true)
    (hl : l.isDeclaring = false) (hl' : l'.isDeclaring = false)
    (h : front ++ l :: rest = front' ++ l' :: rest') : front = front' ∧ l :: rest = l' :: rest' := by
  have hsplit : ∀ {front : List Line} {l : Line} {rest : List Line},
      (∀ m ∈ front, m.isDeclaring = true) → l.isDeclaring = false →
        (front ++ l :: rest).takeWhile Line.isDeclaring = front := by
    intro front l rest hfront hl
    rw [List.takeWhile_append_of_pos hfront, List.takeWhile_cons_of_neg (by simp [hl]),
      List.append_nil]
  have hsame : front = front' := by rw [← hsplit hfront hl, h, hsplit hfront' hl']
  subst hsame
  exact ⟨rfl, List.append_cancel_left h⟩

/-- Participants with the same declarations declare the same. -/
theorem map_declared_eq_of_lines_eq {calls calls' : List Call}
    (h : (Participants.ofCalls calls).lines = (Participants.ofCalls calls').lines) :
    (Participants.ofCalls calls).declared.map Call.declared
      = (Participants.ofCalls calls').declared.map Call.declared := by
  have hread : ∀ calls, declarationsIn none ((Participants.ofCalls calls).lines ++ [])
      = (Participants.ofCalls calls).declared.map Call.declared := by
    intro calls
    rw [declarationsIn_lines (Participants.boxed_ofCalls calls), declarationsIn, List.append_nil]
  rw [← hread calls, h, hread]

/-- A section in front of other directives determines what is shown of its tree. -/
theorem shownTree_eq_of_treeSection_eq {t t' : Node × Forest Node} (ht : Recoverable t)
    (ht' : Recoverable t') {rest rest' : List Line}
    (h : treeSection t ++ rest = treeSection t' ++ rest') :
    shownTree t = shownTree t' ∧ rest = rest' := by
  obtain ⟨c, hc⟩ := ht.root
  obtain ⟨c', hc'⟩ := ht'.root
  have hmem : ∀ {t : Node × Forest Node} {c : Call}, t.1.call? = some c →
      c ∈ callsOf (Forest.single t) := fun hc =>
    mem_callsOf_of_mem_walk List.mem_cons_self hc
  rw [treeSection_of_call hc, treeSection_of_call hc', List.cons_append, List.cons_append,
    List.append_assoc, List.append_assoc, callGraph_single hc, callGraph_single hc'] at h
  obtain ⟨hheading, h⟩ := List.cons.inj h
  obtain ⟨hlines, h⟩ := declaring_append_inj (isDeclaring_lines _) (isDeclaring_lines _) rfl rfl h
  obtain ⟨hactivate, h⟩ := List.cons.inj h
  -- with the same declarations an alias means the same in both sections
  have hmeaning : OneMeaning (Participants.ofForest (Forest.single t))
      (Participants.ofForest (Forest.single t')) (callsOf (Forest.single t))
      (callsOf (Forest.single t')) := fun d hd d' hd' =>
    component_eq_of_aliasOf_eq ht.distinct ht'.distinct (map_declared_eq_of_lines_eq hlines) hd hd'
  have hcomponent := hmeaning c (hmem hc) c' (hmem hc') (Line.activate.inj hactivate)
  obtain ⟨-, hbelow, -⟩ := hmeaning.node
  obtain ⟨hshown, h⟩ := map_shown_eq_of_callGraph_eq ht.oneLine ht'.oneLine hbelow
    (Line.activate.inj hactivate) ht.whole ht'.whole
    ((startsAlternative_eq_false ht.whole rfl).trans
      (startsAlternative_eq_false ht'.whole rfl).symm)
    (by simp [OpensNothing, Line.isOpening]) (by simp [OpensNothing, Line.isOpening]) h
  refine ⟨?_, (List.cons.inj h).2⟩
  rw [shownTree, shownTree, hc, hc', Option.map_some, Option.map_some, hcomponent,
    Line.heading.inj hheading, hshown]

/-- The sections of some trees determine what is shown of the trees. -/
theorem map_shownTree_eq_of_sections_eq {ts ts' : List (Node × Forest Node)}
    (hts : ∀ t ∈ ts, Recoverable t) (hts' : ∀ t ∈ ts', Recoverable t)
    (h : ts.flatMap treeSection = ts'.flatMap treeSection) :
    ts.map shownTree = ts'.map shownTree := by
  have hnonempty : ∀ {t : Node × Forest Node}, Recoverable t → ∀ rest,
      treeSection t ++ rest ≠ [] := by
    intro t ht rest
    obtain ⟨c, hc⟩ := ht.root
    rw [treeSection_of_call hc]
    exact List.cons_ne_nil _ _
  induction ts generalizing ts' with
  | nil =>
    cases ts' with
    | nil => rfl
    | cons t' ts' => exact absurd h.symm (hnonempty (hts' t' List.mem_cons_self) _)
  | cons t ts ih =>
    cases ts' with
    | nil => exact absurd h (hnonempty (hts t List.mem_cons_self) _)
    | cons t' ts' =>
      obtain ⟨ht, hrest⟩ := List.forall_mem_cons.1 hts
      obtain ⟨ht', hrest'⟩ := List.forall_mem_cons.1 hts'
      rw [List.flatMap_cons, List.flatMap_cons] at h
      obtain ⟨hshown, h⟩ := shownTree_eq_of_treeSection_eq ht ht' h
      rw [List.map_cons, List.map_cons, hshown, ih hrest hrest' h]

end CallDiagram
