import CallDiagram.Proofs.Document.Classification
import CallDiagram.Proofs.Document.Reading

/-!
# One pass over a document

Lines are classified one after the other, and every call draws its alias as soon as it is met.  A
ledger records each draw when it is made.

* `Counter.attempt`, `Counter.attempts`, `Counter.tries` — draws that may fail;
* `Ledger`, `Ledger.nextAlias` — a counter with the record of its draws, and the source of aliases
  that keeps it;
* `readNodes`, `readDocument` — one pass with any source of aliases;
* `readDocument_nextAlias` — with the ledger it makes what `parseLimited` makes, and the record shows
  the draws of the calls that were met.
-/

namespace CallDiagram

/-! ## Draws -/

namespace Counter

/-- The outcome of one draw. -/
def attempt (c : Counter) : Except Number.WritingError Text :=
  (Number.write c.next).map (c.stem ++ ·)

/-- The outcomes of the next `n` draws. -/
def attempts (c : Counter) (n : Nat) : List (Except Number.WritingError Text) :=
  (List.range n).map fun k => (c.advance k).attempt

/-- How many draws are made for `n` aliases: the first that fails is the last. -/
def tries (c : Counter) : Nat → Nat
  | 0 => 0
  | n + 1 => if Number.isWritable c.next then (c.advance 1).tries n + 1 else 1

theorem attempt_of_writable {c : Counter} (h : Number.isWritable c.next = true) :
    c.attempt = .ok c.aliasName := by
  simp [attempt, Number.write, h, aliasName, Except.map]

theorem attempt_of_not_writable {c : Counter} (h : Number.isWritable c.next = false) :
    c.attempt = .error .tooManyDigits := by
  simp [attempt, Number.write, h, Except.map]

theorem attempts_add (c : Counter) (m n : Nat) :
    c.attempts (m + n) = c.attempts m ++ (c.advance m).attempts n := by
  simp [attempts, List.range_add, advance_advance, Function.comp_def]

theorem attempts_one (c : Counter) : c.attempts 1 = [c.attempt] := by
  simp [attempts, List.range_one, advance_zero]

theorem attempts_of_writable {c : Counter} {n : Nat}
    (h : ∀ k < n, Number.isWritable (c.next + k) = true) :
    c.attempts n = (c.draw n).map .ok := by
  rw [draw_eq_map_range, attempts, List.map_map]
  exact List.map_congr_left fun k hk => attempt_of_writable (h k (List.mem_range.1 hk))

theorem tries_of_writable {c : Counter} {n : Nat}
    (h : ∀ k < n, Number.isWritable (c.next + k) = true) : c.tries n = n := by
  induction n generalizing c with
  | zero => rfl
  | succ n ih =>
    have hfirst : Number.isWritable c.next = true := by simpa using h 0 (by omega)
    have hrest : ∀ k < n, Number.isWritable ((c.advance 1).next + k) = true := by
      intro k hk
      simpa [advance, Int.add_assoc, Int.add_comm 1] using h (k + 1) (by omega)
    rw [tries, if_pos hfirst, ih hrest]

/-- If a number among the next ones cannot be written, the draws end with the first such number. -/
theorem exists_tries {c : Counter} {n k : Nat} (hk : k < n)
    (h : Number.isWritable (c.next + k) = false) :
    ∃ j < n, (∀ i < j, Number.isWritable (c.next + i) = true) ∧
      Number.isWritable (c.next + j) = false ∧ c.tries n = j + 1 := by
  induction n generalizing c k with
  | zero => omega
  | succ n ih =>
    cases hfirst : Number.isWritable c.next with
    | false => exact ⟨0, by omega, by simp, by simpa using hfirst, by simp [tries, hfirst]⟩
    | true =>
      have hshift : ∀ i : Nat, (c.advance 1).next + i = c.next + (i + 1 : Nat) := by
        intro i
        simp only [advance]
        omega
      cases k with
      | zero => simp [hfirst] at h
      | succ k =>
        obtain ⟨j, hj, hbefore, hlong, htries⟩ := ih (c := c.advance 1) (k := k) (by omega)
          (by rwa [hshift])
        refine ⟨j + 1, by omega, fun i hi => ?_, by rwa [← hshift], by rw [tries, if_pos hfirst, htries]⟩
        cases i with
        | zero => simpa using hfirst
        | succ i => rw [← hshift]; exact hbefore i (by omega)

end Counter

/-! ## The ledger -/

/-- A counter and the outcomes of all draws from it so far. -/
structure Ledger where
  counter : Counter
  drawn : List (Except Number.WritingError Text) := []

namespace Ledger

/-- The ledger behind `n` more draws. -/
def behind (l : Ledger) (n : Nat) : Ledger :=
  ⟨l.counter.advance n, l.drawn ++ l.counter.attempts n⟩

/-- The next alias.  Its number is used up whether it can be written or not. -/
def nextAlias : EStateM DocumentError Ledger Text := fun l =>
  match l.counter.attempt with
  | .ok name => .ok name ⟨l.counter.advance 1, l.drawn ++ [.ok name]⟩
  | .error e => .error (.number e) ⟨l.counter.advance 1, l.drawn ++ [.error e]⟩

@[simp] theorem counter_behind (l : Ledger) (n : Nat) :
    (l.behind n).counter = l.counter.advance n := rfl

@[simp] theorem behind_zero (l : Ledger) : l.behind 0 = l := by
  simp [behind, Counter.attempts, Counter.advance_zero]

theorem behind_behind (l : Ledger) (m n : Nat) : (l.behind m).behind n = l.behind (m + n) := by
  simp [behind, Counter.advance_advance, Counter.attempts_add]

theorem nextAlias_of_writable {l : Ledger} (h : Number.isWritable l.counter.next = true) :
    nextAlias l = .ok l.counter.aliasName (l.behind 1) := by
  simp [nextAlias, behind, Counter.attempts_one, Counter.attempt_of_writable h]

theorem nextAlias_of_not_writable {l : Ledger} (h : Number.isWritable l.counter.next = false) :
    nextAlias l = .error (.number .tooManyDigits) (l.behind 1) := by
  simp [nextAlias, behind, Counter.attempts_one, Counter.attempt_of_not_writable h]

end Ledger

/-! ## One pass -/

/-- The end of a computation with its result changed; a failure stays. -/
def mapResult {ε σ α β : Type} (f : α → β) : EStateM.Result ε σ α → EStateM.Result ε σ β
  | .ok a st => .ok (f a) st
  | .error e st => .error e st

section OnePass

variable {σ : Type} (next : EStateM DocumentError σ Text)

/-- The nodes of some lines, `index` lines in front of them; the first unknown line stops. -/
def readNodes (index : Nat) : List Text → EStateM DocumentError σ (List Node)
  | [] => pure []
  | line :: rest =>
      if Text.isBlank line then readNodes (index + 1) rest
      else do
        match ← classify next index line with
        | none => throw (.line ⟨.unknownStatement, index, line⟩)
        | some n => do
            let nodes ← readNodes (index + 1) rest
            pure (n :: nodes)

/-- The forest of some lines, read in one pass and then arranged. -/
def readDocument (links : Links) (document : List Text) :
    EStateM DocumentError σ (Forest Node) := do
  let nodes ← readNodes next 0 document
  match arrange nodes with
  | .ok f => pure (resolve links f)
  | .error e => throw (.line e)

variable {next} {index : Nat} {line : Text} {rest : List Text} {st st' : σ}

theorem readNodes_of_blank (h : Text.isBlank line = true) :
    readNodes next index (line :: rest) = readNodes next (index + 1) rest := by
  rw [readNodes, if_pos h]

theorem readNodes_of_unknown (hb : Text.isBlank line = false)
    (h : classify next index line st = .ok none st') :
    readNodes next index (line :: rest) st
      = .error (.line ⟨.unknownStatement, index, line⟩) st' := by
  rw [readNodes, if_neg (by simp [hb])]
  show EStateM.bind _ _ st = _
  rw [EStateM.bind, h]
  rfl

theorem readNodes_of_error (hb : Text.isBlank line = false) {e : DocumentError}
    (h : classify next index line st = .error e st') :
    readNodes next index (line :: rest) st = .error e st' := by
  rw [readNodes, if_neg (by simp [hb])]
  show EStateM.bind _ _ st = _
  rw [EStateM.bind, h]

theorem readNodes_of_node (hb : Text.isBlank line = false) {n : Node}
    (h : classify next index line st = .ok (some n) st') :
    readNodes next index (line :: rest) st
      = mapResult (n :: ·) (readNodes next (index + 1) rest st') := by
  rw [readNodes, if_neg (by simp [hb])]
  show EStateM.bind _ _ st = _
  rw [EStateM.bind, h]
  show EStateM.bind _ _ st' = _
  unfold EStateM.bind
  cases readNodes next (index + 1) rest st' <;> rfl

theorem readDocument_eq (links : Links) (document : List Text) :
    readDocument next links document st =
      match readNodes next 0 document st with
      | .ok nodes st' =>
          match arrange nodes with
          | .ok f => .ok (resolve links f) st'
          | .error e => .error (.line e) st'
      | .error e st' => .error e st' := by
  show EStateM.bind _ _ st = _
  unfold EStateM.bind
  cases readNodes next 0 document st with
  | error e st' => rfl
  | ok nodes st' =>
    cases h : arrange nodes with
    | ok f => simp [h, pure, EStateM.pure]
    | error e => simp [h, throw, throwThe, MonadExceptOf.throw, EStateM.throw]

end OnePass

/-! ## One pass and many -/

namespace Ledger

/-- What one pass ends with when all nodes up to the first unknown line and the refusal of that line
are given. -/
def settle (l : Ledger) (nodes : List Node) (refusal : Option ParseError) :
    EStateM.Result DocumentError Ledger (List Node) :=
  let l' := l.behind (l.counter.tries (callCount nodes))
  match (l.counter.issue (callCount nodes)).1, refusal with
  | .error e, _ => .error (.number e) l'
  | .ok _, some e => .error (.line e) l'
  | .ok _, none => .ok (number l.counter nodes) l'

theorem settle_nil (l : Ledger) (refusal : Option ParseError) :
    l.settle [] refusal =
      match refusal with
      | some e => .error (.line e) l
      | none => .ok [] l := by
  have hzero : l.behind (l.counter.tries (callCount [])) = l := behind_zero l
  unfold settle
  rw [hzero]
  cases refusal <;> rfl

theorem settle_of_no_call (l : Ledger) {n : Node} (hn : n.call? = none) (nodes : List Node)
    (refusal : Option ParseError) :
    l.settle (n :: nodes) refusal = mapResult (n :: ·) (l.settle nodes refusal) := by
  have hcount : callCount (n :: nodes) = callCount nodes := by
    rw [callCount_cons]
    simp [callCount, hn]
  have hnumber : number l.counter (n :: nodes) = n :: number l.counter nodes := by
    rw [number_cons, Node.withAlias, Node.mapCall_eq_self (by simp [hn])]
    simp [callCount, hn, Counter.advance_zero]
  unfold settle
  rw [hcount, hnumber]
  cases (l.counter.issue (callCount nodes)).1 <;> cases refusal <;> rfl

theorem callCount_cons_of_call {n : Node} {c : Call} (hn : n.call? = some c) (nodes : List Node) :
    callCount (n :: nodes) = callCount nodes + 1 := by
  rw [callCount_cons, Nat.add_comm]
  simp [callCount, hn]

theorem settle_of_not_writable {l : Ledger} (hw : Number.isWritable l.counter.next = false)
    {n : Node} {c : Call} (hn : n.call? = some c) (nodes : List Node)
    (refusal : Option ParseError) :
    l.settle (n :: nodes) refusal = .error (.number .tooManyDigits) (l.behind 1) := by
  unfold settle
  rw [callCount_cons_of_call hn, Counter.issue, Counter.tries]
  simp [Number.write, hw]

theorem settle_of_writable {l : Ledger} (hw : Number.isWritable l.counter.next = true)
    {n : Node} {c : Call} (hn : n.call? = some c) (nodes : List Node)
    (refusal : Option ParseError) :
    l.settle (n :: nodes) refusal
      = mapResult (n.withAlias l.counter.aliasName :: ·) ((l.behind 1).settle nodes refusal) := by
  have hone : callCount [n] = 1 := by simp [callCount, hn]
  have hissue : (l.counter.issue (callCount nodes + 1)).1
      = ((l.counter.advance 1).issue (callCount nodes)).1.map (l.counter.aliasName :: ·) := by
    simp [Counter.issue, Number.write, hw, Counter.aliasName]
  unfold settle
  rw [callCount_cons_of_call hn, hissue, Counter.tries, if_pos hw, number_cons, hone,
    behind_behind, counter_behind, Nat.add_comm 1]
  cases ((l.counter.advance 1).issue (callCount nodes)).1 <;> cases refusal <;> rfl

end Ledger

open Ledger in
/-- Reading nodes in one pass gives what scanning first and numbering then gives. -/
theorem readNodes_nextAlias (index : Nat) (document : List Text) (l : Ledger) :
    readNodes nextAlias index document l
      = l.settle (scan index document).1 (scan index document).2 := by
  induction document generalizing index l with
  | nil => exact (settle_nil l none).symm
  | cons line rest ih =>
    cases hb : Text.isBlank line with
    | true => rw [readNodes_of_blank hb, ih, scan_of_blank hb]
    | false =>
      cases hr : Statement.read? line with
      | none =>
        rw [readNodes_of_unknown hb (classify_of_read?_eq_none hr nextAlias index l),
          scan_of_unknown hb hr, settle_nil]
      | some r =>
        obtain ⟨indent, s⟩ := r
        rw [scan_of_read hb hr]
        cases hs : s.call? with
        | none =>
          have hn : (⟨index, line, indent, s⟩ : Node).call? = none := hs
          rw [readNodes_of_node hb (classify_of_no_call hr hs nextAlias index l), ih]
          exact (settle_of_no_call l hn _ _).symm
        | some c =>
          have hn : (⟨index, line, indent, s⟩ : Node).call? = some c := hs
          obtain rfl : s = .call c := Node.statement_of_call? hn
          have hclassify := classify_of_call hr nextAlias index l
          cases hw : Number.isWritable l.counter.next with
          | false =>
            rw [nextAlias_of_not_writable hw] at hclassify
            rw [readNodes_of_error hb hclassify]
            exact (settle_of_not_writable hw hn _ _).symm
          | true =>
            rw [nextAlias_of_writable hw] at hclassify
            rw [readNodes_of_node hb hclassify, ih]
            exact (settle_of_writable hw hn _ _).symm

open Ledger in
/-- Reading a document in one pass makes what `parseLimited` makes. -/
theorem readDocument_nextAlias (links : Links) (document : List Text) (l : Ledger) :
    readDocument nextAlias links document l =
      match (parseLimited l.counter links document).1 with
      | .ok f => .ok f (l.behind (l.counter.tries (callCount (scan 0 document).1)))
      | .error e => .error e (l.behind (l.counter.tries (callCount (scan 0 document).1))) := by
  rw [readDocument_eq, readNodes_nextAlias]
  unfold settle
  by_cases h : ∀ k < callCount (scan 0 document).1, Number.isWritable (l.counter.next + k) = true
  · rw [issue_of_writable h, parseLimited_of_writable h]
    cases hscan : (scan 0 document).2 with
    | some e => rw [parse_of_failure hscan]; rfl
    | none =>
      rw [parse_of_no_failure hscan]
      cases h : arrange (number l.counter (scan 0 document).1) <;>
        simp [h, Except.map, Except.mapError]
  · obtain ⟨k, hk, hw⟩ : ∃ k, k < callCount (scan 0 document).1 ∧
        Number.isWritable (l.counter.next + k) = false := by simpa using h
    rw [issue_of_not_writable hk hw, parseLimited_of_not_writable hk hw]

end CallDiagram
