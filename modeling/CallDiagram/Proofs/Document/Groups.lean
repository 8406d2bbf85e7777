import CallDiagram.Proofs.Document.Inheritance
import CallDiagram.Proofs.Document.Reading
import CallDiagram.Proofs.Forest.Ancestry

/-!
# Where groups come from

Nodes of any kind, with any groups and indents, are hung one after the other.  A call without a
group takes that of the nearest call above it at the moment when it is hung, and that call may have
taken its own from further up.

* `hangAll` — the one pass, with a stack of open nodes and with a failure for a call that is not
  there;
* `Covered` — above every node that hangs from another one, some node was given a group;
* `hangAll_openings` — as long as that is so, the pass finds every call that it asks for;
* `Inherited`, `inheritance_total` — what becomes of the groups of any list of nodes.
-/

namespace CallDiagram

/-! ## Given groups -/

namespace Node

/-- The group that a node was given, if it is a call and the group holds a character. -/
def ownGroup? (n : Node) : Option Text := n.call?.bind fun c => Text.nonempty? c.group

theorem nearestGroup_eq (group : Option Text) (n : Node) :
    n.nearestGroup group = n.ownGroup?.or group := by
  cases hc : n.call? with
  | none => simp [nearestGroup, ownGroup?, hc]
  | some c => simp [nearestGroup, ownGroup?, hc]

/-- A given group holds a character. -/
theorem ne_nil_of_ownGroup? {n : Node} {g : Text} (h : n.ownGroup? = some g) : g ≠ [] := by
  obtain ⟨c, -, hg⟩ := Option.bind_eq_some_iff.1 h
  exact (Text.nonempty?_eq_some_iff.1 hg).2

/-- A node with a group of its own stays as it is when it gets that group. -/
theorem withGroup_ownGroup? {n : Node} {g : Text} (h : n.ownGroup? = some g) :
    n.withGroup (some g) = n := by
  obtain ⟨c, hc, hg⟩ := Option.bind_eq_some_iff.1 h
  refine mapCall_eq_self ?_
  intro d hd
  obtain rfl : c = d := Option.some.inj (hc.symm.trans hd)
  rw [← (Text.nonempty?_eq_some_iff.1 hg).1]

theorem withGroup_of_no_call {n : Node} (h : n.call? = none) (group : Option Text) :
    n.withGroup group = n := by
  refine mapCall_eq_self ?_
  intro c hc
  simp [h] at hc

theorem withGroup_withGroup (group other : Option Text) (n : Node) :
    (n.withGroup other).withGroup group = n.withGroup group :=
  mapCall_mapCall _ _ n

theorem indent_withGroup (group : Option Text) (n : Node) : (n.withGroup group).indent = n.indent :=
  congrArg (fun p => p.2.2) (place_mapCall _ n)

end Node

/-- A node of the first level is in order if it was given a group. -/
theorem rootFault?_eq_none_iff_ownGroup? {n : Node} :
    rootFault? n = none ↔ ∃ g, n.ownGroup? = some g := by
  rw [rootFault?_eq_none_iff, exists_comm]
  simp only [Node.ownGroup?, Option.bind_eq_some_iff]

theorem complaint_of_rootFault? {n : Node} {e : ParseError} (h : rootFault? n = some e) :
    e.complaint = .rootNotComponent ∨ e.complaint = .rootWithoutGroup := by
  rw [rootFault?_eq_map] at h
  obtain ⟨complaint, hcomplaint, rfl⟩ := Option.map_eq_some_iff.1 h
  unfold Statement.rootComplaint? at hcomplaint
  split at hcomplaint
  · split at hcomplaint
    · simp at hcomplaint
    · exact Or.inr (Option.some.inj hcomplaint).symm
  · exact Or.inl (Option.some.inj hcomplaint).symm

/-! ## Settled groups -/

/-- The group that was given to the nearest of some nodes to which one was given. -/
def groupAbove (above : List Node) : Option Text := above.findSome? Node.ownGroup?

/-- A node below some nodes, with its own group or else with the one from above. -/
def settled (n : Node) (above : List Node) : Node :=
  n.withGroup (n.nearestGroup (groupAbove above))

/-- The nodes of a chain, each as it is below those behind it. -/
def settleChain : List Node → List Node
  | [] => []
  | n :: above => settled n above :: settleChain above

theorem groupAbove_cons (n : Node) (above : List Node) :
    groupAbove (n :: above) = n.nearestGroup (groupAbove above) := by
  rw [Node.nearestGroup_eq, groupAbove, List.findSome?_cons]
  cases n.ownGroup? <;> rfl

theorem call?_settled (n : Node) (above : List Node) :
    (settled n above).call?
      = n.call?.map fun c => { c with group := n.nearestGroup (groupAbove above) } :=
  Node.call?_mapCall _ n

theorem settled_of_no_call {n : Node} (h : n.call? = none) (above : List Node) :
    settled n above = n :=
  Node.withGroup_of_no_call h _

theorem settled_of_ownGroup? {n : Node} {g : Text} (h : n.ownGroup? = some g)
    (above : List Node) : settled n above = n := by
  rw [settled, Node.nearestGroup_eq, h, Option.some_or, Node.withGroup_ownGroup? h]

theorem settled_of_ownGroup?_eq_none {n : Node} (h : n.ownGroup? = none) (above : List Node) :
    settled n above = n.withGroup (groupAbove above) := by
  rw [settled, Node.nearestGroup_eq, h, Option.none_or]

/-- Inheriting settles every node below those above it. -/
theorem ancestriesBelow_inherit (above : List Node) (f : Forest Node) :
    (inherit (groupAbove above) f).ancestriesBelow (settleChain above)
      = (f.ancestriesBelow above).map fun e => (settled e.1 e.2, settleChain e.2) := by
  induction f generalizing above with
  | nil => rfl
  | node n below after ihb iha =>
    rw [inherit_node, ← groupAbove_cons, Forest.ancestriesBelow, Forest.ancestriesBelow,
      List.map_cons, List.map_append, ← ihb (n :: above), ← iha above, groupAbove_cons]
    rfl

theorem ancestries_inherit (f : Forest Node) :
    (inherit none f).ancestries = f.ancestries.map fun e => (settled e.1 e.2, settleChain e.2) :=
  ancestriesBelow_inherit [] f

/-- The lineage of a node below some nodes: the nearest of them, and the nearest that is a call. -/
def Lineage.ofAncestry (e : Node × List Node) : Lineage :=
  ⟨e.1, e.2.head?, e.2.findSome? Node.call?⟩

theorem lineagesBelow_eq_map (above : List Node) (f : Forest Node) :
    lineagesBelow above.head? (above.findSome? Node.call?) f
      = (f.ancestriesBelow above).map Lineage.ofAncestry := by
  induction f generalizing above with
  | nil => rfl
  | node n below after ihb iha =>
    have hcaller : (n.call? <|> above.findSome? Node.call?)
        = (n :: above).findSome? Node.call? := by
      rw [List.findSome?_cons]
      cases n.call? <;> rfl
    have hbelow := ihb (n :: above)
    rw [List.head?_cons, ← hcaller] at hbelow
    rw [lineagesBelow, hbelow, iha, Forest.ancestriesBelow, List.map_cons, List.map_append]
    rfl

theorem lineages_eq_map (f : Forest Node) :
    lineages f = f.ancestries.map Lineage.ofAncestry :=
  lineagesBelow_eq_map [] f

/-! ## One pass -/

/-- Why a node is not hung. -/
inductive HangingFault where
  /-- It may not stand at the first level. -/
  | top (e : ParseError)
  /-- It is a call without a group, and no call is above it. -/
  | noCaller (n : Node)

/-- A node hung below some nodes, nearest first.  A call that was given no group takes the group
that the nearest call has by now. -/
def attach (above : List Node) (n : Node) : Except HangingFault Node :=
  match n.call?, n.ownGroup? with
  | some _, none =>
      match above.findSome? Node.call? with
      | some caller => .ok (n.withGroup caller.group)
      | none => .error (.noCaller n)
  | _, _ => .ok n

/-- One pass over a list of nodes with the stack of open ones, each with the nodes that following
parents from it meets.  The open nodes that are not indented less than the next one are closed, and
it hangs from the one then on top. -/
def hangAll (opened : List (Node × List Node)) : List Node → Except HangingFault (List Lineage)
  | [] => .ok []
  | n :: rest =>
      match opened.dropWhile fun e => n.indent ≤ e.1.indent with
      | [] =>
          match rootFault? n with
          | some e => .error (.top e)
          | none => (hangAll [(n, [])] rest).map (Lineage.ofAncestry (n, []) :: ·)
      | parent :: more =>
          match attach (parent.1 :: parent.2) n with
          | .error e => .error e
          | .ok m =>
              (hangAll ((m, parent.1 :: parent.2) :: parent :: more) rest).map
                (Lineage.ofAncestry (m, parent.1 :: parent.2) :: ·)

/-- A chain as a stack of open nodes. -/
def openings : List Node → List (Node × List Node)
  | [] => []
  | n :: above => (n, above) :: openings above

theorem dropWhile_openings_settleChain (d : Int) (chain : List Node) :
    (openings (settleChain chain)).dropWhile (fun e => d ≤ e.1.indent)
      = openings (settleChain (chain.dropWhile fun n => d ≤ n.indent)) := by
  induction chain with
  | nil => rfl
  | cons n above ih =>
    have hindent : (settled n above).indent = n.indent := Node.indent_withGroup _ n
    by_cases h : d ≤ n.indent
    · simp [settleChain, openings, hindent, h, ih]
    · simp [settleChain, openings, hindent, h]

/-! ## Every call that is asked for is there -/

/-- Above every node that hangs from one of some nodes, one was given a group. -/
def Covered (before : List Node) : Prop :=
  ∀ n : Node, Forest.chain Node.indent n before ≠ [] →
    ∃ g, groupAbove (Forest.chain Node.indent n before) = some g

theorem covered_nil : Covered [] := by
  intro n h
  exact absurd rfl h

theorem exists_groupAbove_cons {n : Node} {above : List Node}
    (h : (∃ g, n.ownGroup? = some g) ∨ ∃ g, groupAbove above = some g) :
    ∃ g, groupAbove (n :: above) = some g := by
  rw [groupAbove_cons, Node.nearestGroup_eq]
  rcases h with ⟨g, hg⟩ | ⟨g, hg⟩
  · exact ⟨g, by simp [hg]⟩
  · cases hown : n.ownGroup? with
    | none => exact ⟨g, by simp [hg]⟩
    | some g' => exact ⟨g', by simp⟩

/-- A node that nothing lies above must be in order at the first level. -/
def topFault? (e : Node × List Node) : Option ParseError :=
  if e.2.isEmpty then rootFault? e.1 else none

theorem place_of_topFault? {a : Node × List Node} {e : ParseError} (h : topFault? a = some e) :
    e.index = a.1.index ∧ e.content = a.1.source := by
  unfold topFault? at h
  split at h
  · exact place_of_rootFault? h
  · simp at h

namespace Covered

variable {before : List Node} (h : Covered before)

include h

/-- A node behind covered nodes was given a group itself or lies below one that was, if it is in
order or hangs from one of them. -/
theorem exists_groupAbove {n : Node}
    (hn : topFault? (n, Forest.chain Node.indent n before) = none) :
    ∃ g, groupAbove (n :: Forest.chain Node.indent n before) = some g := by
  apply exists_groupAbove_cons
  by_cases htop : Forest.chain Node.indent n before = []
  · rw [topFault?, htop] at hn
    exact Or.inl (rootFault?_eq_none_iff_ownGroup?.1 hn)
  · exact Or.inr (h n htop)

/-- One more such node keeps the nodes covered. -/
theorem cons {n : Node} (hn : topFault? (n, Forest.chain Node.indent n before) = none) :
    Covered (n :: before) := by
  intro m hm
  rw [Forest.chain] at hm ⊢
  split
  · exact h.exists_groupAbove hn
  · rename_i hle
    rw [if_neg hle] at hm
    exact h m hm

/-- As long as the first level is in order, every node was given a group or lies below one that
was. -/
theorem exists_groupAbove_of_mem_chained {nodes : List Node}
    (hnodes : ∀ e ∈ Forest.chained Node.indent before nodes, topFault? e = none) :
    ∀ e ∈ Forest.chained Node.indent before nodes, ∃ g, groupAbove (e.1 :: e.2) = some g := by
  induction nodes generalizing before with
  | nil => simp [Forest.chained]
  | cons n rest ih =>
    rw [Forest.chained, List.forall_mem_cons] at hnodes ⊢
    exact ⟨h.exists_groupAbove hnodes.1, ih (h.cons hnodes.1) hnodes.2⟩

end Covered

/-- The nearest call of a settled chain has the group that was given to the nearest node. -/
theorem exists_caller_settleChain {chain : List Node} {g : Text} (h : groupAbove chain = some g) :
    ∃ c, (settleChain chain).findSome? Node.call? = some c ∧ c.group = some g := by
  induction chain with
  | nil => simp [groupAbove] at h
  | cons n above ih =>
    rw [settleChain, List.findSome?_cons, call?_settled]
    rw [groupAbove_cons] at h
    cases hc : n.call? with
    | none =>
      rw [Node.nearestGroup_of_no_call hc] at h
      exact ih h
    | some c => exact ⟨{ c with group := n.nearestGroup (groupAbove above) }, rfl, h⟩

/-- Hanging a node below a settled chain settles it, if one of the chain was given a group. -/
theorem attach_settleChain {chain : List Node} {g : Text} (h : groupAbove chain = some g) (n : Node) :
    attach (settleChain chain) n = .ok (settled n chain) := by
  unfold attach
  split
  · rename_i c _ hown
    obtain ⟨caller, hcaller, hgroup⟩ := exists_caller_settleChain h
    rw [hcaller, settled_of_ownGroup?_eq_none hown, h, ← hgroup]
  · rename_i hnot
    cases hown : n.ownGroup? with
    | some g' => rw [settled_of_ownGroup? hown]
    | none =>
      cases hc : n.call? with
      | none => rw [settled_of_no_call hc]
      | some c => exact absurd hown (hnot c hc)

/-- The pass over some nodes ends with the first fault at the first level, or with all nodes
settled.  The stack holds the settled chain of the nodes in front. -/
theorem hangAll_openings {before : List Node} (h : Covered before) (nodes : List Node) :
    hangAll (openings (settleChain (Forest.spine Node.indent before))) nodes =
      match (Forest.chained Node.indent before nodes).findSome? topFault? with
      | some e => .error (.top e)
      | none => .ok ((Forest.chained Node.indent before nodes).map fun e =>
          Lineage.ofAncestry (settled e.1 e.2, settleChain e.2)) := by
  induction nodes generalizing before with
  | nil => rfl
  | cons n rest ih =>
    rw [hangAll, dropWhile_openings_settleChain, Forest.dropWhile_spine, Forest.chained,
      List.findSome?_cons, List.map_cons]
    cases hchain : Forest.chain Node.indent n before with
    | nil =>
      have htop : topFault? (n, []) = rootFault? n := rfl
      simp only [settleChain, openings, htop]
      cases hfault : rootFault? n with
      | some e => rfl
      | none =>
        obtain ⟨g, hg⟩ := rootFault?_eq_none_iff_ownGroup?.1 hfault
        have hrest := ih (h.cons (n := n) (by rw [hchain, htop, hfault]))
        rw [Forest.spine, hchain] at hrest
        simp only [settleChain, openings, settled_of_ownGroup? hg] at hrest ⊢
        rw [hrest]
        cases (Forest.chained Node.indent (n :: before) rest).findSome? topFault? <;> rfl
    | cons parent above =>
      obtain ⟨g, hg⟩ := h n (by rw [hchain]; simp)
      rw [hchain] at hg
      have htop : topFault? (n, parent :: above) = none := rfl
      have hattach : attach (settled parent above :: settleChain above) n
          = .ok (settled n (parent :: above)) := attach_settleChain hg n
      have hrest := ih (h.cons (n := n) (by rw [hchain, htop]))
      rw [Forest.spine, hchain] at hrest
      simp only [settleChain, openings, htop, hattach] at hrest ⊢
      rw [hrest]
      cases (Forest.chained Node.indent (n :: before) rest).findSome? topFault? <;> rfl

/-! ## The law -/

theorem findSome?_topFault? (nodes : List Node) :
    (Forest.chained Node.indent [] nodes).findSome? topFault?
      = (Forest.ofList Node.indent nodes).tops.findSome? rootFault? := by
  rw [Forest.findSome?_tops, Forest.ancestries_ofList]
  rfl

/-- The one pass ends as arranging does: it never misses a call. -/
theorem hangAll_eq (nodes : List Node) :
    hangAll [] nodes = ((arrange nodes).mapError .top).map lineages := by
  have hpass := hangAll_openings covered_nil nodes
  rw [findSome?_topFault?] at hpass
  refine hpass.trans ?_
  cases hfault : (Forest.ofList Node.indent nodes).tops.findSome? rootFault? with
  | some e => rw [arrange_eq_error_iff.2 hfault]; rfl
  | none =>
    rw [arrange_eq_ok_iff.2 ⟨hfault, rfl⟩]
    simp only [Except.mapError, Except.map, lineages_eq_map, ancestries_inherit,
      Forest.ancestries_ofList, List.map_map]
    rfl

/-- The forest is that of the given nodes, with exactly the missing groups filled in. -/
structure Inherited (nodes : List Node) (f : Forest Node) : Prop where
  /-- Without groups it is the forest that the indents of the nodes determine. -/
  ungrouped : f.map (Node.withGroup none)
    = (Forest.ofList Node.indent nodes).map (Node.withGroup none)
  /-- Every call has a group that holds a character. -/
  grouped : ∀ n ∈ f.walk, ∀ c, n.call? = some c → ∃ g, c.group = some g ∧ g ≠ []
  /-- A node that was given a group, or is no call, is as it was. -/
  kept : ∀ (i : Nat) (n : Node), nodes[i]? = some n → (n.call? = none ∨ ∃ g, n.ownGroup? = some g) →
    f.walk[i]? = some n
  /-- A call that was given none has the group that was given to the nearest node above it that was
  given one. -/
  taken : ∀ (i : Nat) (n : Node) (above : List Node),
    (Forest.ofList Node.indent nodes).ancestries[i]? = some (n, above) →
    n.call? ≠ none → n.ownGroup? = none →
    ∃ (skipped : List Node) (a : Node) (rest : List Node) (g : Text),
      above = skipped ++ a :: rest ∧ (∀ b ∈ skipped, b.ownGroup? = none) ∧
      a.ownGroup? = some g ∧ f.walk[i]? = some (n.withGroup (some g))

/-- The nodes of the forest are the given ones, each settled below those above it. -/
theorem walk_inherit_ofList (nodes : List Node) :
    (inherit none (Forest.ofList Node.indent nodes)).walk
      = (Forest.ofList Node.indent nodes).ancestries.map fun e => settled e.1 e.2 := by
  rw [← Forest.map_fst_ancestries, ancestries_inherit, List.map_map]
  rfl

theorem getElem?_ancestries_ofList {nodes : List Node} {i : Nat} {n : Node}
    (h : nodes[i]? = some n) :
    ∃ above, (Forest.ofList Node.indent nodes).ancestries[i]? = some (n, above) := by
  rw [Forest.ancestries_ofList]
  rw [← Forest.map_fst_chained Node.indent [] nodes, List.getElem?_map] at h
  obtain ⟨⟨m, above⟩, he, rfl⟩ := Option.map_eq_some_iff.1 h
  exact ⟨above, he⟩

theorem inherited_of_arrange {nodes : List Node} {f : Forest Node} (h : arrange nodes = .ok f) :
    Inherited nodes f := by
  obtain ⟨hroots, rfl⟩ := arrange_eq_ok_iff.1 h
  rw [← findSome?_topFault?, List.findSome?_eq_none_iff] at hroots
  have hwalk := walk_inherit_ofList nodes
  have hcovered : ∀ e ∈ (Forest.ofList Node.indent nodes).ancestries,
      ∃ g, groupAbove (e.1 :: e.2) = some g := by
    rw [Forest.ancestries_ofList]
    exact covered_nil.exists_groupAbove_of_mem_chained hroots
  refine ⟨?ungrouped, ?grouped, ?kept, ?taken⟩
  case ungrouped => exact map_inherit (fun group n => Node.withGroup_withGroup none group n) _ _
  case grouped =>
    intro n hn c hc
    rw [hwalk] at hn
    obtain ⟨e, he, rfl⟩ := List.mem_map.1 hn
    obtain ⟨g, hg⟩ := hcovered e he
    rw [call?_settled, ← groupAbove_cons, hg] at hc
    obtain ⟨d, -, rfl⟩ := Option.map_eq_some_iff.1 hc
    obtain ⟨m, -, hown⟩ := List.exists_of_findSome?_eq_some hg
    exact ⟨g, rfl, Node.ne_nil_of_ownGroup? hown⟩
  case kept =>
    intro i n hn hown
    obtain ⟨above, he⟩ := getElem?_ancestries_ofList hn
    rw [hwalk, List.getElem?_map, he, Option.map_some]
    rcases hown with hnone | ⟨g, hg⟩
    · rw [settled_of_no_call hnone]
    · rw [settled_of_ownGroup? hg]
  case taken =>
    intro i n above he _ hown
    obtain ⟨g, hg⟩ := hcovered _ (List.mem_of_getElem? he)
    rw [groupAbove_cons, Node.nearestGroup_eq, hown, Option.none_or] at hg
    obtain ⟨skipped, a, rest, habove, ha, hskipped⟩ := List.findSome?_eq_some_iff.1 hg
    refine ⟨skipped, a, rest, g, habove, hskipped, ha, ?_⟩
    rw [hwalk, List.getElem?_map, he, Option.map_some, settled_of_ownGroup?_eq_none hown, hg]

/-- Every list of nodes is refused for a node of the first level or becomes a forest in which every
call has its group, and the pass never misses a call that it asks for a group. -/
theorem inheritance_total (nodes : List Node) :
    (∃ e, arrange nodes = .error e ∧ hangAll [] nodes = .error (.top e) ∧
        (e.complaint = .rootNotComponent ∨ e.complaint = .rootWithoutGroup)) ∨
      ∃ f, arrange nodes = .ok f ∧ hangAll [] nodes = .ok (lineages f) ∧ Inherited nodes f := by
  have hpass := hangAll_eq nodes
  cases h : arrange nodes with
  | error e =>
    rw [h] at hpass
    obtain ⟨n, -, hn⟩ := List.exists_of_findSome?_eq_some (arrange_eq_error_iff.1 h)
    exact Or.inl ⟨e, rfl, hpass, complaint_of_rootFault? hn⟩
  | ok f =>
    rw [h] at hpass
    exact Or.inr ⟨f, rfl, hpass, inherited_of_arrange h⟩

end CallDiagram
