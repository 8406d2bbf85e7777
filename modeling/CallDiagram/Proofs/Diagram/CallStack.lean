import CallDiagram.Diagram.Basic
import CallDiagram.Proofs.Diagram.Machine
import CallDiagram.Proofs.Diagram.Participants
import CallDiagram.Proofs.Document.Reading
import CallDiagram.Proofs.Forest.Hanging
import Mathlib

/-!
# Call graphs keep to the stack

The machine follows the call graph of every tree that a document makes: activities, loops and
regions of alternatives nest, and arrows leave the activity that is innermost.

* `underChain` — what is open between two statements: the region of a chain that goes on;
* `follow?_enter`, `follow?_leave` — the two ends of a statement, for each kind of statement;
* `follow?_callGraph` — a whole forest leaves the stack as it found it;
* `keepsStack_of_parseLimited` — the trees of a document.
-/

namespace CallDiagram

/-- The machine behind some directives. -/
def Machine.follow? (m : Machine) (lines : List Line) : Option Machine :=
  m.run? (lines.map Line.text)

theorem follow?_cons {m m' : Machine} {l : Line} {v : Move} (hread : Move.read? l.text = some v)
    (hdue : m.due = none ∨ m.due = some v) (happly : v.effect? m.stack = some m')
    (rest : List Line) : m.follow? (l :: rest) = m'.follow? rest := by
  rw [Machine.follow?, List.map_cons]
  apply Machine.run?_cons
  rw [Machine.step?, hread, Option.bind_some, if_pos hdue, happly]

/-! ## Between two statements -/

/-- Whether the region of a chain of branches goes on from a statement to the next one. -/
def chainOpen (before next : Option Statement) : Bool :=
  before.any Statement.isBranch && next.any Statement.isAlternative

/-- What is open between two statements below a stack. -/
def underChain (before next : Option Statement) (stack : List Frame) : List Frame :=
  if chainOpen before next then .alt :: stack else stack

@[simp] theorem underChain_none (next : Option Statement) (stack : List Frame) :
    underChain none next stack = stack := rfl

theorem underChain_of_no_branch {s : Statement} (h : s.isBranch = false)
    (next : Option Statement) (stack : List Frame) : underChain (some s) next stack = stack := by
  simp [underChain, chainOpen, h]

theorem underChain_of_no_alternative {s : Statement} (h : s.isAlternative = false)
    (before : Option Statement) (stack : List Frame) :
    underChain before (some s) stack = stack := by
  simp [underChain, chainOpen, h]

/-! ## The ends of a statement -/

section Statements

variable (p : Participants)

/-- What a statement opens. -/
def framesOf : Statement → List Frame
  | .call c => [.act (p.aliasOf c)]
  | .loop _ => [.loop]
  | .condition _ => [.alt]
  | .alternative _ => [.alt]
  | .bare => []

theorem innermost_framesOf {caller : Option Call} {stack : List Frame}
    (h : innermost stack = caller.map p.aliasOf) (s : Statement) :
    innermost (framesOf p s ++ stack) = (s.call? <|> caller).map p.aliasOf := by
  cases s <;> simp [framesOf, innermost, Statement.call?, h]

/-- The caller below a statement is the statement itself or the caller above. -/
theorem isAlias_innerCaller {caller : Option Call} {s : Statement}
    (hcaller : ∀ d, caller = some d → IsAlias (p.aliasOf d))
    (hs : ∀ c, s.call? = some c → IsAlias (p.aliasOf c)) :
    ∀ d, (s.call? <|> caller) = some d → IsAlias (p.aliasOf d) := by
  cases s with
  | call c => exact hs
  | _ => exact hcaller

theorem follow?_enter_call {caller : Option Call} {c : Call} {stack : List Frame}
    (hcaller : ∀ d, caller = some d → IsAlias (p.aliasOf d)) (hc : IsAlias (p.aliasOf c))
    (hstack : innermost stack = caller.map p.aliasOf) (before : Option Statement)
    (rest : List Line) :
    Machine.follow? { stack := stack } (enter p caller before (.call c) ++ rest)
      = Machine.follow? { stack := .act (p.aliasOf c) :: stack } rest := by
  cases caller with
  | none => exact follow?_cons (read?_activate _) (Or.inl rfl) rfl rest
  | some d =>
    have harrow : (Move.call (p.aliasOf d) (p.aliasOf c)).effect? stack
        = some { stack := stack, due := some (.activate (p.aliasOf c)) } := if_pos hstack
    rw [enter, List.append_assoc]
    exact (follow?_cons (read?_arrow (hcaller d rfl) hc _) (Or.inl rfl) harrow _).trans
      (follow?_cons (read?_activate _) (Or.inr rfl) rfl rest)

theorem follow?_leave_call {caller : Option Call} {c : Call} {stack : List Frame}
    (hcaller : ∀ d, caller = some d → IsAlias (p.aliasOf d)) (hc : IsAlias (p.aliasOf c))
    (hstack : innermost stack = caller.map p.aliasOf) (next : Option Statement)
    (rest : List Line) :
    Machine.follow? { stack := .act (p.aliasOf c) :: stack } (leave p caller next (.call c) ++ rest)
      = Machine.follow? { stack := stack } rest := by
  have hpop : (Move.deactivate (p.aliasOf c)).effect? (.act (p.aliasOf c) :: stack)
      = some { stack := stack } := if_pos rfl
  cases caller with
  | none => exact follow?_cons (read?_deactivate _) (Or.inl rfl) hpop rest
  | some d =>
    have harrow : (Move.back (p.aliasOf c) (p.aliasOf d)).effect? (.act (p.aliasOf c) :: stack)
        = some { stack := .act (p.aliasOf c) :: stack,
                 due := some (.deactivate (p.aliasOf c)) } := if_pos ⟨rfl, hstack⟩
    rw [leave, List.append_assoc]
    exact (follow?_cons (read?_answer (hcaller d rfl) hc _) (Or.inl rfl) harrow _).trans
      (follow?_cons (read?_deactivate _) (Or.inr rfl) hpop rest)

/-- The directives at the start of a statement open what it opens, inside the region of its chain
if that is open already. -/
theorem follow?_enter {caller : Option Call} {s : Statement} {stack : List Frame}
    (hcaller : ∀ d, caller = some d → IsAlias (p.aliasOf d))
    (hs : ∀ c, s.call? = some c → IsAlias (p.aliasOf c))
    (hstack : innermost stack = caller.map p.aliasOf) (before : Option Statement)
    (rest : List Line) :
    Machine.follow? { stack := underChain before (some s) stack } (enter p caller before s ++ rest)
      = Machine.follow? { stack := framesOf p s ++ stack } rest := by
  cases s with
  | call c =>
    rw [underChain_of_no_alternative rfl]
    exact follow?_enter_call p hcaller (hs c rfl) hstack before rest
  | loop note =>
    rw [underChain_of_no_alternative rfl]
    exact follow?_cons (read?_loop note) (Or.inl rfl) rfl rest
  | condition note =>
    rw [underChain_of_no_alternative rfl]
    exact follow?_cons (read?_alt _) (Or.inl rfl) rfl rest
  | alternative note =>
    rw [underChain, chainOpen, enter]
    cases before.any Statement.isBranch with
    | true => exact follow?_cons (read?_otherwise _) (Or.inl rfl) rfl rest
    | false => exact follow?_cons (read?_alt _) (Or.inl rfl) rfl rest
  | bare => rw [underChain_of_no_alternative rfl]; rfl

/-- The directives at the end of a statement close what it opened, but for the region of a chain
that goes on. -/
theorem follow?_leave {caller : Option Call} {s : Statement} {stack : List Frame}
    (hcaller : ∀ d, caller = some d → IsAlias (p.aliasOf d))
    (hs : ∀ c, s.call? = some c → IsAlias (p.aliasOf c))
    (hstack : innermost stack = caller.map p.aliasOf) (next : Option Statement)
    (rest : List Line) :
    Machine.follow? { stack := framesOf p s ++ stack } (leave p caller next s ++ rest)
      = Machine.follow? { stack := underChain (some s) next stack } rest := by
  -- the last branch of a chain closes the region, the others leave it open
  have hbranch : ∀ last : Bool, Machine.follow? { stack := .alt :: stack }
      ((if last then [] else [Line.endAlt]) ++ rest)
        = Machine.follow? { stack := if last then .alt :: stack else stack } rest := by
    intro last
    cases last with
    | true => rfl
    | false => exact follow?_cons read?_endAlt (Or.inl rfl) rfl rest
  cases s with
  | call c =>
    rw [underChain_of_no_branch rfl]
    exact follow?_leave_call p hcaller (hs c rfl) hstack next rest
  | loop note =>
    rw [underChain_of_no_branch rfl]
    exact follow?_cons read?_endLoop (Or.inl rfl) rfl rest
  | condition note => exact hbranch (next.any Statement.isAlternative)
  | alternative note => exact hbranch (next.any Statement.isAlternative)
  | bare => rw [underChain_of_no_branch rfl]; rfl

/-! ## Forests -/

/-- The call graph of a forest leaves the stack as it found it, and closes the region of a chain
that was open in front of it. -/
theorem follow?_callGraph {f : Forest Node}
    (hf : ∀ n ∈ f.walk, ∀ c, n.call? = some c → IsAlias (p.aliasOf c)) {caller : Option Call}
    {stack : List Frame} (hcaller : ∀ d, caller = some d → IsAlias (p.aliasOf d))
    (hstack : innermost stack = caller.map p.aliasOf) (before : Option Statement)
    (rest : List Line) :
    Machine.follow? { stack := underChain before (f.first?.map Node.statement) stack }
        (callGraph p caller before f ++ rest)
      = Machine.follow? { stack := stack } rest := by
  induction f generalizing caller stack before rest with
  | nil => simp [callGraph, Forest.first?, underChain, chainOpen]
  | node n below after ihb iha =>
    have hn : ∀ c, n.statement.call? = some c → IsAlias (p.aliasOf c) :=
      hf n (by simp [Forest.walk])
    have hafter := iha (fun m hm => hf m (by simp [Forest.walk, hm])) hcaller hstack
      (some n.statement) rest
    rw [callGraph, List.append_assoc, Forest.first?, Option.map_some]
    cases hblock : n.statement.isBlock with
    | false =>
      -- a bare node is left out with all that lies below it, and no chain goes through it
      have hbare : n.statement = .bare := by
        cases hs : n.statement <;> simp [hs, Statement.isBlock] at hblock ⊢
      rw [hbare, underChain_of_no_branch rfl] at hafter
      rw [hbare, underChain_of_no_alternative rfl]
      exact hafter
    | true =>
      have hbelow := ihb (fun m hm => hf m (by simp [Forest.walk, hm]))
        (isAlias_innerCaller p hcaller hn) (innermost_framesOf p hstack n.statement) none
      simp only [underChain_none] at hbelow
      rw [if_pos rfl, Node.call?, List.append_assoc, List.append_assoc,
        follow?_enter p hcaller hn hstack, hbelow, follow?_leave p hcaller hn hstack, hafter]

end Statements

/-! ## Documents -/

/-- The lines of the call graph of a tree, with the participants of its section. -/
def graphLines (n : Node) (below : Forest Node) : List Text :=
  (callGraph (Participants.ofForest (.node n below .nil)) none none (.node n below .nil)).map
    Line.text

/-- The lines drive the machine from the empty stack to the empty stack, from the activation of the
root to its deactivation. -/
structure KeepsStack (root : Call) (lines : List Text) : Prop where
  accepted : Machine.run? {} lines = some {}
  first : lines.head? = some (Line.activate root.aliasName).text
  last : lines.getLast? = some (Line.deactivate root.aliasName).text

theorem isAlias_integer (n : Int) : IsAlias ('C' :: Text.integer n) := by
  refine ⟨rfl, fun hmem => ?_, fun hmem => ?_⟩
  · rcases List.mem_cons.1 hmem with heq | hmem
    · exact absurd heq (by decide)
    · exact absurd (isDigit_or_minus_of_mem_integer hmem) (by decide)
  · rcases List.mem_cons.1 hmem with heq | hmem
    · exact absurd heq (by decide)
    · exact absurd (isDigit_or_minus_of_mem_integer hmem) (by decide)

/-- The alias of a call of a document is the beginning of the aliases and a number. -/
theorem exists_number_of_parse {counter : Counter} {links : Links} {document : List Text}
    {f : Forest Node} (h : (parse counter links document).1 = .ok f) {n : Node} (hn : n ∈ f.walk)
    {c : Call} (hc : n.call? = some c) :
    ∃ k : Int, c.aliasName = counter.stem ++ Text.integer k := by
  obtain ⟨k, -, heq⟩ := exists_aliasName_of_parse h hn hc
  exact ⟨counter.next + k, heq⟩

/-- With the usual beginning, the alias of a call of a document is that beginning and a number. -/
theorem exists_alias_of_parse {counter : Counter} {links : Links} {document : List Text}
    {f : Forest Node} (hstem : counter.stem = ['C'])
    (h : (parse counter links document).1 = .ok f) {n : Node} (hn : n ∈ f.walk) {c : Call}
    (hc : n.call? = some c) : ∃ k : Int, c.aliasName = 'C' :: Text.integer k := by
  obtain ⟨k, heq⟩ := exists_number_of_parse h hn hc
  rw [hstem] at heq
  exact ⟨k, heq⟩

/-- With the usual beginning, every call of a document has an alias that the machine can tell. -/
theorem isAlias_of_parse {counter : Counter} {links : Links} {document : List Text}
    {f : Forest Node} (hstem : counter.stem = ['C'])
    (h : (parse counter links document).1 = .ok f) {n : Node} (hn : n ∈ f.walk) {c : Call}
    (hc : n.call? = some c) : IsAlias c.aliasName := by
  obtain ⟨k, hk⟩ := exists_alias_of_parse hstem h hn hc
  exact hk ▸ isAlias_integer k

/-- The call graph of a tree whose top node is a call keeps to the stack, if its aliases can be
told. -/
theorem keepsStack_graphLines {n : Node} {below : Forest Node} {c : Call} (hc : n.call? = some c)
    (halias : ∀ m ∈ (Forest.node n below .nil).walk, ∀ d, m.call? = some d →
      IsAlias d.aliasName) : KeepsStack c (graphLines n below) := by
  have hcalls : (Forest.node n below .nil).walk.filterMap Node.call?
      = c :: below.walk.filterMap Node.call? := by
    simp [Forest.walk, List.filterMap_cons_some hc]
  have hroot : (Participants.ofForest (.node n below .nil)).aliasOf c = c.aliasName := by
    rw [Participants.ofForest, hcalls, Participants.aliasOf_first]
  have hdeclared : ∀ m ∈ (Forest.node n below .nil).walk, ∀ d, m.call? = some d →
      IsAlias ((Participants.ofForest (.node n below .nil)).aliasOf d) := by
    intro m hm d hd
    obtain ⟨e, he, -, heq⟩ := Participants.exists_aliasOf (List.mem_filterMap.2 ⟨m, hm, hd⟩)
    obtain ⟨k, hk, hek⟩ := List.mem_filterMap.1 he
    rw [Participants.ofForest, heq]
    exact halias k hk e hek
  have hstatement : n.statement = .call c := Node.statement_of_call? hc
  refine ⟨?accepted, ?first, ?last⟩
  case accepted =>
    have hstack : innermost [] = (none : Option Call).map
      (Participants.ofForest (.node n below .nil)).aliasOf := rfl
    have hrun := follow?_callGraph _ hdeclared (by simp) hstack none []
    rwa [underChain_none, List.append_nil] at hrun
  case first =>
    simp [graphLines, callGraph, hstatement, Statement.isBlock, enter, hroot]
  case last =>
    simp [graphLines, callGraph, hstatement, Statement.isBlock, leave, hroot]

/-- The call graph of every tree that a document makes keeps to the stack. -/
theorem keepsStack_of_parseLimited {counter : Counter} {links : Links} {document : List Text}
    {f : Forest Node} (hstem : counter.stem = ['C'])
    (h : (parseLimited counter links document).1 = .ok f) :
    ∀ t ∈ f.trees, ∃ c, t.1.call? = some c ∧ KeepsStack c (graphLines t.1 t.2) := by
  obtain ⟨-, hparse⟩ := parseLimited_eq_ok_iff.1 h
  intro t ht
  have htop : t.1 ∈ f.tops := Forest.map_fst_trees f ▸ List.mem_map_of_mem ht
  obtain ⟨c, hc⟩ := exists_call?_of_mem_tops hparse htop
  refine ⟨c, hc, keepsStack_graphLines hc fun m hm d hd => ?_⟩
  have hwalk : m ∈ f.walk := by
    rw [← Forest.flatMap_trees]
    exact List.mem_flatMap.2 ⟨t, ht, hm⟩
  exact isAlias_of_parse hstem hparse hwalk hd

/-- A document with a loop, a chain of branches, a second chain that an alternative starts, a call
that comes back to its caller, and a second root. -/
theorem keepsStack_nested :
    ∃ f, (parseLimited {} [] ["A#f()", "  loop x", "    f(): again < done", "      if a",
        "        B#g()", "      else b", "      else", "    else", "C#h()"]).1 = .ok f ∧
      ∀ t ∈ f.trees, ∃ c, t.1.call? = some c ∧ KeepsStack c (graphLines t.1 t.2) := by
  obtain ⟨f, hf⟩ : ∃ f, (parseLimited {} [] ["A#f()", "  loop x", "    f(): again < done",
      "      if a", "        B#g()", "      else b", "      else", "    else", "C#h()"]).1 = .ok f :=
    ⟨_, by cbv⟩
  exact ⟨f, hf, keepsStack_of_parseLimited rfl hf⟩

end CallDiagram
