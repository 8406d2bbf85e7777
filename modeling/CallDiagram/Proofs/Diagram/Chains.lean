import CallDiagram.Proofs.Diagram.Machine
import CallDiagram.Proofs.Diagram.Recovery
import CallDiagram.Proofs.Forest.Hanging
import Mathlib

/-!
# Chains of branches

The call graph looks at the statement before and the statement after each branch only.  It shows
the same as a rendering that first groups the statements of every level into chains, and makes one
region of each chain.

* `Passage`, `passages` — a level in passages: chains of branches, and the statements between;
* `firsts_passages` — the branches that start chains;
* `siblings`, `regions` — the rendering by passages;
* `callGraph_eq_regions` — it is the call graph, by induction on the forest;
* `levels`, `countP_regions` — what is counted over all levels;
* `ChainLaw`, `chainLaw` — call graphs of statements that all say something.
-/

namespace CallDiagram

/-! ## Levels in passages -/

/-- A part of a level: a statement that is no branch, or a chain of branches. -/
inductive Passage (α : Type) where
  | single (item : α)
  | chain (first : α) (others : List α)

namespace Passage

variable {α β : Type}

/-- The items of a passage. -/
def items : Passage α → List α
  | .single a => [a]
  | .chain first others => first :: others

/-- The branch that starts the passage, if it is a chain. -/
def first? : Passage α → Option α
  | .single _ => none
  | .chain first _ => some first

/-- The number of branches behind the first one. -/
def further : Passage α → Nat
  | .single _ => 0
  | .chain _ others => others.length

def map (f : α → β) : Passage α → Passage β
  | .single a => .single (f a)
  | .chain first others => .chain (f first) (others.map f)

end Passage

section Passages

variable {α β : Type} (key : α → Statement)

/-- Items with statements in passages: a branch starts a chain, which takes all alternatives that
directly follow. -/
def passages : List α → List (Passage α)
  | [] => []
  | a :: rest =>
      if (key a).isBranch then
        .chain a (rest.takeWhile fun b => (key b).isAlternative)
          :: passages (rest.dropWhile fun b => (key b).isAlternative)
      else .single a :: passages rest
termination_by items => items.length
decreasing_by
  · exact Nat.lt_succ_of_le (List.dropWhile_sublist _).length_le
  · exact Nat.lt_succ_self _

/-- The branches that start chains: every condition, and every alternative that does not directly
follow a branch; `before` is the statement in front of the items. -/
def chainStarts (before : Option Statement) : List α → List α
  | [] => []
  | a :: rest =>
      (if (key a).isBranch && !((key a).isAlternative && before.any Statement.isBranch) then [a]
        else [])
        ++ chainStarts (some (key a)) rest

theorem Statement.isBranch_of_isAlternative {s : Statement} (h : s.isAlternative = true) :
    s.isBranch = true := by
  cases s <;> simp_all [isAlternative, isBranch]

theorem passages_branch {a : α} (h : (key a).isBranch = true) (rest : List α) :
    passages key (a :: rest)
      = .chain a (rest.takeWhile fun b => (key b).isAlternative)
        :: passages key (rest.dropWhile fun b => (key b).isAlternative) := by
  rw [passages, if_pos h]

theorem passages_single {a : α} (h : (key a).isBranch = false) (rest : List α) :
    passages key (a :: rest) = .single a :: passages key rest := by
  rw [passages, if_neg (by simp [h])]

/-- No item is lost, doubled or moved. -/
theorem flatMap_items_passages (items : List α) :
    (passages key items).flatMap Passage.items = items := by
  fun_induction passages key items with
  | case1 => rfl
  | case2 a rest h ih =>
    rw [List.flatMap_cons, ih, Passage.items, List.cons_append, List.takeWhile_append_dropWhile]
  | case3 a rest h ih => rw [List.flatMap_cons, ih, Passage.items, List.singleton_append]

theorem passages_map (f : β → α) (items : List β) :
    passages key (items.map f) = (passages (key ∘ f) items).map (Passage.map f) := by
  fun_induction passages (key ∘ f) items with
  | case1 => simp [passages]
  | case2 b rest h ih =>
    rw [List.map_cons, passages_branch key h, List.takeWhile_map, List.dropWhile_map,
      List.map_cons, Passage.map]
    exact congrArg (_ :: ·) ih
  | case3 b rest h ih =>
    rw [List.map_cons, passages_single key (by simpa using h), ih, List.map_cons, Passage.map]

/-- Alternatives behind a branch start nothing. -/
theorem chainStarts_dropWhile {s : Statement} (hs : s.isBranch = true) (items : List α) :
    ∃ before, chainStarts key (some s) items
      = chainStarts key before (items.dropWhile fun b => (key b).isAlternative) := by
  induction items generalizing s with
  | nil => exact ⟨none, rfl⟩
  | cons b rest ih =>
    rw [List.dropWhile_cons]
    split
    · rename_i hb
      obtain ⟨before, h⟩ := ih (Statement.isBranch_of_isAlternative hb)
      exact ⟨before, by rw [chainStarts, h]; simp [hb, hs]⟩
    · exact ⟨some s, rfl⟩

theorem head?_dropWhile_isAlternative (items : List α) :
    ((items.dropWhile fun b => (key b).isAlternative).head?.map key).any Statement.isAlternative
      = false := by
  cases hrest : items.dropWhile fun b => (key b).isAlternative with
  | nil => rfl
  | cons b rest =>
    have hb := List.head_dropWhile_not (p := fun b => (key b).isAlternative) (l := items)
      (by simp [hrest])
    simpa [hrest] using hb

/-- The chains of a level start at every condition, and at every alternative that does not directly
follow a branch. -/
theorem firsts_passages (items : List α) {before : Option Statement}
    (h : (items.head?.map key).any Statement.isAlternative = true →
      before.any Statement.isBranch = false) :
    (passages key items).filterMap Passage.first? = chainStarts key before items := by
  fun_induction passages key items generalizing before with
  | case1 => rfl
  | case2 a rest hbranch ih =>
    obtain ⟨between, hrest⟩ := chainStarts_dropWhile key hbranch rest
    have hstart : ((key a).isAlternative && before.any Statement.isBranch) = false := by
      cases halternative : (key a).isAlternative with
      | false => rfl
      | true => exact h (by simpa using halternative)
    have hnone := head?_dropWhile_isAlternative key rest
    have hbehind := @ih between fun hsome => absurd hsome (by simp [hnone])
    rw [chainStarts, hrest, hbranch, hstart, ← hbehind]
    rfl
  | case3 a rest hbranch ih =>
    have hsingle : (key a).isBranch = false := by simpa using hbranch
    have hbehind := @ih (some (key a)) fun _ => hsingle
    rw [chainStarts, hsingle, ← hbehind]
    rfl

end Passages

/-! ## Rendering by passages -/

/-- A statement of a level and the directives of what is below it. -/
structure Sibling where
  statement : Statement
  inside : List Line

/-- The guard of a branch that starts a chain. -/
def Statement.firstGuard : Statement → Text
  | .condition note => "if " ++ note
  | .alternative note => (Text.nonempty? note).getD "else"
  | _ => []

/-- The guard of a branch that continues a chain. -/
def Statement.furtherGuard? : Statement → Option Text
  | .alternative note => Text.nonempty? note
  | _ => none

/-- The directives of a branch that continues a chain. -/
def Sibling.further (s : Sibling) : List Line :=
  .otherwise s.statement.furtherGuard? :: s.inside

/-- The directives of a passage.  A chain is one region; a statement that is no branch has its own
directives around what is below it. -/
def Passage.lines (p : Participants) (caller : Option Call) : Passage Sibling → List Line
  | .single s =>
      if s.statement.isBlock then
        enter p caller none s.statement ++ s.inside ++ leave p caller none s.statement
      else []
  | .chain first others =>
      .alt first.statement.firstGuard
        :: (first.inside ++ (others.flatMap Sibling.further ++ [.endAlt]))

/-- The level at the top of a forest, with the directives below each statement. -/
def siblings (p : Participants) (caller : Option Call) : Forest Node → List Sibling
  | .nil => []
  | .node n below after =>
      ⟨n.statement, (passages Sibling.statement (siblings p (n.call? <|> caller) below)).flatMap
          (Passage.lines p (n.call? <|> caller))⟩
        :: siblings p caller after

/-- The directives of a forest, chain by chain. -/
def regions (p : Participants) (caller : Option Call) (f : Forest Node) : List Line :=
  (passages Sibling.statement (siblings p caller f)).flatMap (Passage.lines p caller)

/-- What comes behind a branch: the rest of its chain, the end of the region, the passages that
follow. -/
def behind (p : Participants) (caller : Option Call) (rest : List Sibling) : List Line :=
  (rest.takeWhile fun s => s.statement.isAlternative).flatMap Sibling.further
    ++ .endAlt :: (passages Sibling.statement
      (rest.dropWhile fun s => s.statement.isAlternative)).flatMap (Passage.lines p caller)

section Rendering

variable {p : Participants} {caller : Option Call}

theorem siblings_node (n : Node) (below after : Forest Node) :
    siblings p caller (.node n below after)
      = ⟨n.statement, regions p (n.call? <|> caller) below⟩ :: siblings p caller after := rfl

theorem regions_node (n : Node) (below after : Forest Node) :
    regions p caller (.node n below after)
      = (passages Sibling.statement (⟨n.statement, regions p (n.call? <|> caller) below⟩
          :: siblings p caller after)).flatMap (Passage.lines p caller) := rfl

theorem map_statement_siblings (p : Participants) (caller : Option Call) (f : Forest Node) :
    (siblings p caller f).map Sibling.statement = f.tops.map Node.statement := by
  induction f with
  | nil => rfl
  | node n below after _ ih => rw [siblings_node, List.map_cons, ih, Forest.tops, List.map_cons]

/-! ## The call graph is the rendering by passages -/

/-- A branch ends its region unless an alternative follows. -/
theorem leave_of_isBranch {s : Statement} (h : s.isBranch = true) (next : Option Statement) :
    leave p caller next s = if next.any Statement.isAlternative then [] else [.endAlt] := by
  cases s <;> simp_all [Statement.isBranch, leave]

/-- A branch that continues nothing opens a region. -/
theorem enter_of_isBranch {s : Statement} (h : s.isBranch = true) {before : Option Statement}
    (hbefore : s.isAlternative = true → before.any Statement.isBranch = false) :
    enter p caller before s = [.alt s.firstGuard] := by
  cases s <;> simp_all [Statement.isBranch, Statement.isAlternative, enter, Statement.firstGuard]

/-- An alternative behind a branch continues its region. -/
theorem enter_of_isAlternative {s t : Statement} (h : s.isAlternative = true)
    (ht : t.isBranch = true) :
    enter p caller (some t) s = [.otherwise s.furtherGuard?] := by
  cases s <;> simp_all [Statement.isAlternative, enter, Statement.furtherGuard?]

/-- The statements beside a statement that is no branch do not matter to it. -/
theorem enter_leave_of_not_isBranch (p : Participants) (caller : Option Call) {s : Statement}
    (h : s.isBranch = false) (before next : Option Statement) :
    enter p caller before s = enter p caller none s ∧
      leave p caller next s = leave p caller none s := by
  cases s <;> simp_all [Statement.isBranch, enter, leave]

theorem isBlock_of_isBranch {s : Statement} (h : s.isBranch = true) : s.isBlock = true := by
  cases s <;> simp_all [Statement.isBranch, Statement.isBlock]

/-- A tree in front of a level is the first passage with what follows: a chain takes the
alternatives behind it. -/
theorem callGraph_eq_of_passages {before : Option Statement} {n : Node} {below after : Forest Node}
    (hbefore : n.statement.isAlternative = true → before.any Statement.isBranch = false)
    (hbelow : callGraph p (n.call? <|> caller) none below = regions p (n.call? <|> caller) below)
    (hafter : n.statement.isBranch = false →
      callGraph p caller (some n.statement) after = regions p caller after)
    (hbehind : n.statement.isBranch = true →
      leave p caller (after.first?.map Node.statement) n.statement
          ++ callGraph p caller (some n.statement) after
        = behind p caller (siblings p caller after)) :
    callGraph p caller before (.node n below after) = regions p caller (.node n below after) := by
  rw [callGraph, hbelow, regions_node]
  cases hbranch : n.statement.isBranch with
  | true =>
    rw [passages_branch Sibling.statement hbranch, if_pos (isBlock_of_isBranch hbranch),
      enter_of_isBranch hbranch hbefore, List.append_assoc, List.append_assoc, hbehind hbranch]
    simp [Passage.lines, behind]
  | false =>
    obtain ⟨henter, hleave⟩ := enter_leave_of_not_isBranch p caller hbranch
      before (after.first?.map Node.statement)
    rw [passages_single Sibling.statement hbranch, hafter hbranch, henter, hleave]
    rfl

/-- The call graph of a forest that does not start within a chain is the rendering by passages, and
behind a branch the rest of its chain comes first. -/
theorem callGraph_eq (f : Forest Node) (caller : Option Call) :
    (∀ before : Option Statement, (startsAlternative f = true →
        before.any Statement.isBranch = false) →
      callGraph p caller before f = regions p caller f) ∧
    ∀ s : Statement, s.isBranch = true →
      leave p caller (f.first?.map Node.statement) s ++ callGraph p caller (some s) f
        = behind p caller (siblings p caller f) := by
  induction f generalizing caller with
  | nil =>
    refine ⟨fun _ _ => by simp [callGraph, regions, siblings, passages], fun s hs => ?_⟩
    rw [leave_of_isBranch hs]
    simp [callGraph, behind, siblings, passages, Forest.first?]
  | node n below after ihb iha =>
    have hregions : ∀ before : Option Statement, (n.statement.isAlternative = true →
        before.any Statement.isBranch = false) →
          callGraph p caller before (.node n below after)
            = regions p caller (.node n below after) := by
      intro before hbefore
      have hbelow := (ihb (n.call? <|> caller)).1 none fun _ => rfl
      exact callGraph_eq_of_passages hbefore hbelow
        (fun hbranch => (iha caller).1 (some n.statement) fun _ => hbranch)
        ((iha caller).2 n.statement)
    refine ⟨hregions, fun s hs => ?behind⟩
    case behind =>
      have hbelow := (ihb (n.call? <|> caller)).1 none fun _ => rfl
      rw [leave_of_isBranch hs]
      by_cases halternative : n.statement.isAlternative = true
      · have hbranch := Statement.isBranch_of_isAlternative halternative
        have hnext := (iha caller).2 n.statement hbranch
        rw [callGraph, hbelow, if_pos (isBlock_of_isBranch hbranch),
          enter_of_isAlternative halternative hs, List.append_assoc, List.append_assoc, hnext,
          siblings_node]
        simp [behind, halternative, Forest.first?, Sibling.further]
      · rw [hregions (some s) fun h => absurd h halternative, regions, siblings_node]
        simp [behind, halternative, Forest.first?]

/-- The call graph of a forest shows its chains as regions. -/
theorem callGraph_eq_regions (p : Participants) (caller : Option Call) (f : Forest Node) :
    callGraph p caller none f = regions p caller f :=
  (callGraph_eq f caller).1 none fun _ => rfl

end Rendering

/-! ## Counting over all levels -/

/-- The levels of a forest: the statements of its first level, and those directly below each
statement. -/
def levels (f : Forest Node) : List (List Statement) :=
  f.tops.map Node.statement :: f.subtrees.map fun t => t.2.tops.map Node.statement

/-- The passages of a level of statements. -/
def passagesOf (level : List Statement) : List (Passage Statement) := passages id level

section Counting

variable {p : Participants} {q : Line → Bool} {own : Passage Statement → Nat}

/-- Whether what is below the statements of a passage is shown: a statement that is no branch must
say something. -/
def Passage.Shown : Passage Sibling → Prop
  | .single s => s.statement.isBlock = true ∧ s.statement.isBranch = false
  | .chain _ _ => True

/-- Directives that passages have of their own or below their statements. -/
def CountsOwn (p : Participants) (q : Line → Bool) (own : Passage Statement → Nat) : Prop :=
  ∀ (caller : Option Call) (passage : Passage Sibling), passage.Shown →
    (passage.lines p caller).countP q
      = own (passage.map Sibling.statement) + (passage.items.map fun s => s.inside.countP q).sum

theorem shown_of_mem_passages {items : List Sibling}
    (h : ∀ s ∈ items, s.statement.isBlock = true) :
    ∀ passage ∈ passages Sibling.statement items, passage.Shown := by
  fun_induction passages Sibling.statement items with
  | case1 => simp
  | case2 s rest hbranch ih =>
    intro passage hpassage
    rcases List.mem_cons.1 hpassage with rfl | hpassage
    · trivial
    · exact ih (fun t ht => h t (List.mem_cons_of_mem _ ((List.dropWhile_sublist _).mem ht)))
        passage hpassage
  | case3 s rest hbranch ih =>
    intro passage hpassage
    rcases List.mem_cons.1 hpassage with rfl | hpassage
    · exact ⟨h s List.mem_cons_self, by simpa using hbranch⟩
    · exact ih (fun t ht => h t (List.mem_cons_of_mem _ ht)) passage hpassage

theorem isBlock_of_mem_siblings (p : Participants) (caller : Option Call) {f : Forest Node}
    (hf : isSpoken f = true) {s : Sibling} (hs : s ∈ siblings p caller f) :
    s.statement.isBlock = true := by
  induction f with
  | nil => simp [siblings] at hs
  | node n below after _ ih =>
    simp only [isSpoken, Forest.all, Bool.and_eq_true] at hf ih
    rcases List.mem_cons.1 hs with rfl | hs
    · exact hf.1.1
    · exact ih hf.2 hs

theorem countP_flatMap_lines (h : CountsOwn p q own) (caller : Option Call)
    {parts : List (Passage Sibling)} (hparts : ∀ passage ∈ parts, passage.Shown) :
    (parts.flatMap (Passage.lines p caller)).countP q
      = ((parts.map (Passage.map Sibling.statement)).map own).sum
        + ((parts.flatMap Passage.items).map fun s => s.inside.countP q).sum := by
  induction parts with
  | nil => rfl
  | cons passage rest ih =>
    obtain ⟨hpassage, hrest⟩ := List.forall_mem_cons.1 hparts
    rw [List.flatMap_cons, List.countP_append, h caller passage hpassage, ih hrest]
    simp only [List.map_cons, List.sum_cons, List.flatMap_cons, List.map_append, List.sum_append]
    omega

/-- At one level, what is counted is that of its passages, and what is below its statements. -/
theorem countP_level (h : CountsOwn p q own) (caller : Option Call) {f : Forest Node}
    (hf : isSpoken f = true) :
    (regions p caller f).countP q
      = ((passagesOf (f.tops.map Node.statement)).map own).sum
        + ((siblings p caller f).map fun s => s.inside.countP q).sum := by
  have hshown := shown_of_mem_passages fun s hs => isBlock_of_mem_siblings p caller hf hs
  rw [regions, countP_flatMap_lines h caller hshown, flatMap_items_passages, passagesOf,
    ← map_statement_siblings p caller, passages_map]
  rfl

/-- What is counted below the statements of the first level is that of the levels below. -/
theorem countP_below (h : CountsOwn p q own) (caller : Option Call) {f : Forest Node}
    (hf : isSpoken f = true) :
    ((siblings p caller f).map fun s => s.inside.countP q).sum
      = (f.subtrees.map fun t => ((passagesOf (t.2.tops.map Node.statement)).map own).sum).sum := by
  induction f generalizing caller with
  | nil => rfl
  | node n below after ihb iha =>
    obtain ⟨⟨-, hbelow⟩, hafter⟩ :
        (n.statement.isBlock = true ∧ isSpoken below = true) ∧ isSpoken after = true := by
      simpa [isSpoken, Forest.all] using hf
    rw [siblings_node, List.map_cons, List.sum_cons, countP_level h _ hbelow, ihb _ hbelow,
      iha _ hafter, Forest.subtrees]
    simp only [List.map_cons, List.map_append, List.sum_cons, List.sum_append]
    omega

/-- What is counted in a forest is that of the passages of all levels. -/
theorem countP_regions (h : CountsOwn p q own) (caller : Option Call) {f : Forest Node}
    (hf : isSpoken f = true) :
    (regions p caller f).countP q
      = ((levels f).map fun level => ((passagesOf level).map own).sum).sum := by
  rw [countP_level h caller hf, countP_below h caller hf, levels, List.map_cons, List.sum_cons,
    List.map_map]
  rfl

end Counting

/-! ## Ends and separators -/

/-- Whether a directive starts the next alternative of a region. -/
def Line.isOtherwise : Line → Bool
  | .otherwise _ => true
  | _ => false

/-- The line `end` ends a region of alternatives, and no other directive is written so. -/
theorem Line.text_eq_end_iff {l : Line} : l.text = ['e', 'n', 'd'] ↔ l = .endAlt := by
  refine ⟨fun h => ?_, by rintro rfl; rfl⟩
  have hsecond : l.text[1]? = some 'n' := by rw [h]; rfl
  have hshaft : '>' ∉ l.text := by rw [h]; decide
  cases l with
  | arrow caller callee comment => exact absurd (by simp [Line.text_arrow]) hshaft
  | answer callee caller comment => exact absurd (by simp [Line.text_answer]) hshaft
  | endBox => exact absurd h (by decide)
  | endLoop => exact absurd h (by decide)
  | endAlt => rfl
  | otherwise guard => cases guard <;> exact absurd (Option.some.inj hsecond) (by decide)
  | _ => exact absurd (Option.some.inj hsecond) (by decide)

/-- Whether a directive is written `end`. -/
def Line.isEnd (l : Line) : Bool := l.text = ['e', 'n', 'd']

@[simp] theorem Line.isEnd_eq (l : Line) : l.isEnd = decide (l = .endAlt) := by
  rw [Line.isEnd]
  exact decide_eq_decide.2 Line.text_eq_end_iff

/-- The directives around a statement that is no branch are neither ends nor separators. -/
theorem plain_of_not_isBranch (p : Participants) (caller : Option Call) {s : Statement}
    (h : s.isBranch = false) :
    ∀ l ∈ enter p caller none s ++ leave p caller none s,
      l.isEnd = false ∧ l.isOtherwise = false := by
  cases s with
  | call c => cases caller <;> simp [enter, leave, Line.isOtherwise]
  | loop note => simp [enter, leave, Line.isOtherwise]
  | condition note => simp [Statement.isBranch] at h
  | alternative note => simp [Statement.isBranch] at h
  | bare => simp [enter, leave]

/-- Of a statement that is no branch, only what is below it is counted. -/
theorem countP_single {p : Participants} {caller : Option Call} {q : Line → Bool} {s : Sibling}
    (hblock : s.statement.isBlock = true)
    (h : ∀ l ∈ enter p caller none s.statement ++ leave p caller none s.statement, q l = false) :
    ((Passage.single s).lines p caller).countP q = s.inside.countP q := by
  simp only [List.mem_append] at h
  have henter : (enter p caller none s.statement).countP q = 0 :=
    List.countP_eq_zero.2 fun l hl => by simp [h l (Or.inl hl)]
  have hleave : (leave p caller none s.statement).countP q = 0 :=
    List.countP_eq_zero.2 fun l hl => by simp [h l (Or.inr hl)]
  rw [Passage.lines, if_pos hblock, List.countP_append, List.countP_append, henter, hleave]
  omega

/-- Of a chain, its own directives are counted and what is below its branches. -/
theorem countP_chain {p : Participants} {caller : Option Call} {q : Line → Bool} {n : Nat}
    (hopening : ∀ guard, q (.alt guard) = false)
    (hfurther : ∀ guard, [Line.otherwise guard].countP q = n) (first : Sibling)
    (others : List Sibling) :
    ((Passage.chain first others).lines p caller).countP q
      = n * others.length + [Line.endAlt].countP q
        + ((first :: others).map fun s => s.inside.countP q).sum := by
  have hothers : (others.flatMap Sibling.further).countP q
      = n * others.length + (others.map fun s => s.inside.countP q).sum := by
    induction others with
    | nil => rfl
    | cons s rest ih =>
      rw [List.flatMap_cons, List.countP_append, ih, Sibling.further, ← List.singleton_append,
        List.countP_append, hfurther]
      simp only [List.length_cons, List.map_cons, List.sum_cons, Nat.mul_succ]
      omega
  rw [Passage.lines, List.countP_cons_of_neg (by simp [hopening]), List.countP_append,
    List.countP_append, hothers, List.map_cons, List.sum_cons]
  omega

/-- A chain ends once. -/
theorem countsOwn_end (p : Participants) :
    CountsOwn p Line.isEnd fun passage => passage.first?.toList.length := by
  intro caller passage hshown
  cases passage with
  | single s =>
    have hplain := plain_of_not_isBranch p caller hshown.2
    rw [countP_single hshown.1 fun l hl => (hplain l hl).1]
    simp [Passage.map, Passage.first?, Passage.items]
  | chain first others =>
    rw [countP_chain (n := 0) (by simp) (by simp)]
    simp [Passage.map, Passage.first?, Passage.items]

/-- A chain has a separator for each further branch. -/
theorem countsOwn_otherwise (p : Participants) :
    CountsOwn p Line.isOtherwise Passage.further := by
  intro caller passage hshown
  cases passage with
  | single s =>
    have hplain := plain_of_not_isBranch p caller hshown.2
    rw [countP_single hshown.1 fun l hl => (hplain l hl).2]
    simp [Passage.map, Passage.further, Passage.items]
  | chain first others =>
    rw [countP_chain (n := 1) (by simp [Line.isOtherwise]) (by simp [Line.isOtherwise])]
    simp [Passage.map, Passage.further, Passage.items, Line.isOtherwise]

/-- The call graph of a forest shows the chains of all levels. -/
structure ChainLaw (p : Participants) (caller : Option Call) (f : Forest Node) : Prop where
  /-- Each chain is one region. -/
  grouped : callGraph p caller none f = regions p caller f
  /-- A chain starts at each condition, and at each alternative that does not directly follow a
  branch. -/
  starts : ∀ level ∈ levels f,
    (passagesOf level).filterMap Passage.first? = chainStarts id none level
  /-- There is a line `end` for each chain. -/
  ends : ((callGraph p caller none f).map Line.text).count ['e', 'n', 'd']
    = ((levels f).map fun level => (chainStarts id none level).length).sum
  /-- There is a separator for each further branch. -/
  separators : (callGraph p caller none f).countP Line.isOtherwise
    = ((levels f).map fun level => ((passagesOf level).map Passage.further).sum).sum

theorem starts_passagesOf (level : List Statement) :
    (passagesOf level).filterMap Passage.first? = chainStarts id none level :=
  firsts_passages id level fun _ => rfl

/-- Whatever stands at the levels of a forest, its call graph shows their chains. -/
theorem chainLaw (p : Participants) (caller : Option Call) {f : Forest Node}
    (hf : isSpoken f = true) : ChainLaw p caller f := by
  have hgraph := callGraph_eq_regions p caller f
  refine ⟨hgraph, fun level _ => starts_passagesOf level, ?ends, ?separators⟩
  case ends =>
    have hend : ((regions p caller f).map Line.text).count ['e', 'n', 'd']
        = (regions p caller f).countP Line.isEnd := by
      rw [List.count, List.countP_map]
      exact List.countP_congr fun l _ => by simp [Line.text_eq_end_iff]
    rw [hgraph, hend, countP_regions (countsOwn_end p) caller hf]
    refine congrArg List.sum (List.map_congr_left fun level _ => ?_)
    rw [← starts_passagesOf, List.filterMap_eq_flatMap_toList, List.length_flatMap]
  case separators => rw [hgraph, countP_regions (countsOwn_otherwise p) caller hf]

/-- Alternatives without a condition, a chain within a branch, two conditions side by side, and an
alternative behind a loop. -/
theorem chainLaw_stray :
    ∃ f, (parseLimited {} [] ["A#f()", "  else", "  else b", "  if c", "    if d", "    else",
        "      g()", "  if e", "  loop h", "  else"]).1 = .ok f ∧
      isSpoken f = true ∧ ChainLaw (Participants.ofForest f) none f := by
  obtain ⟨f, hf, hspoken⟩ : ∃ f, (parseLimited {} [] ["A#f()", "  else", "  else b", "  if c",
        "    if d", "    else", "      g()", "  if e", "  loop h", "  else"]).1 = .ok f ∧
      isSpoken f = true :=
    ⟨_, by cbv, by cbv⟩
  exact ⟨f, hf, hspoken, chainLaw _ none hspoken⟩

end CallDiagram
