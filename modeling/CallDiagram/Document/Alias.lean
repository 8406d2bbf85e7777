import CallDiagram.Document.Node
import CallDiagram.Number.Limit

/-!
# Aliases

Every call gets an alias of its own: a fixed beginning and the next number.  A counter is a value,
so documents that share one are numbered by handing it from one to the next.

* `Counter`, `Counter.aliasName`, `Counter.advance` — the next alias, and the counter behind `n` of
  them;
* `Counter.draw` — the next `n` aliases;
* `Counter.issue` — the same as far as their numbers can be written (`issue_of_ok`);
* `number` — the nodes of a document with their calls numbered in document order.
-/

namespace CallDiagram

/-- Where the numbering of calls stands. -/
structure Counter where
  /-- The beginning of every alias. -/
  stem : Text := ['C']
  /-- The number of the next alias. -/
  next : Int := 1
  deriving DecidableEq, Repr

namespace Counter

/-- The next alias. -/
def aliasName (c : Counter) : Text := c.stem ++ Text.integer c.next

/-- The counter behind `n` aliases. -/
def advance (c : Counter) (n : Nat) : Counter := { c with next := c.next + n }

/-- The next `n` aliases. -/
def draw (c : Counter) : Nat → List Text
  | 0 => []
  | n + 1 => c.aliasName :: draw (c.advance 1) n

theorem advance_advance (c : Counter) (m n : Nat) :
    (c.advance m).advance n = c.advance (m + n) := by
  simp [advance, Int.add_assoc]

/-! ### Long numbers -/

/-- The next `n` aliases and the counter behind them.  A number that is too long to be written stops
the issue, and the counter goes on behind it. -/
def issue (c : Counter) : Nat → Except Number.WritingError (List Text) × Counter
  | 0 => (.ok [], c)
  | n + 1 =>
      match Number.write c.next with
      | .error e => (.error e, c.advance 1)
      | .ok digits =>
          let (aliases, behind) := issue (c.advance 1) n
          (aliases.map ((c.stem ++ digits) :: ·), behind)

/-- The aliases that are issued are those that are drawn, and none is passed over. -/
theorem issue_of_ok {c : Counter} {n : Nat} {aliases : List Text}
    (h : (c.issue n).1 = .ok aliases) : aliases = c.draw n ∧ (c.issue n).2 = c.advance n := by
  induction n generalizing c aliases with
  | zero => cases h; exact ⟨rfl, by simp [issue, advance]⟩
  | succ n ih =>
    by_cases hw : Number.isWritable c.next = true
    · cases hi : ((c.advance 1).issue n).1 with
      | error e => simp [issue, Number.write, hw, hi, Except.map] at h
      | ok rest =>
        simp only [issue, Number.write, hw, if_true, hi, Except.map, Except.ok.injEq] at h ⊢
        obtain ⟨hr, hb⟩ := ih hi
        subst h
        exact ⟨by simp [draw, aliasName, hr], by rw [hb, advance_advance, Nat.add_comm]⟩
    · simp [issue, Number.write, hw] at h

end Counter

/-- The number of calls among some nodes. -/
def callCount (nodes : List Node) : Nat := nodes.countP fun n => n.call?.isSome

/-- The nodes with an alias for each call, in document order. -/
def number (counter : Counter) : List Node → List Node
  | [] => []
  | n :: rest =>
      match n.statement with
      | .call c =>
          { n with statement := .call { c with aliasName := counter.aliasName } }
            :: number (counter.advance 1) rest
      | _ => n :: number counter rest

end CallDiagram
