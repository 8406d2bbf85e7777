import CallDiagram.Proofs.Document.OnePass
import CallDiagram.Proofs.Document.Refusal

/-!
# Sessions

A session works with one counter: each step takes a single alias or reads a document, and a step
that fails keeps what it has used.

* `withoutAliases_parse` — counters change nothing but aliases;
* `ReadLaw`, `readLaw` — what reading a document draws and results in;
* `SessionStep`, `session` — steps and their answers;
* `StepLaw`, `stepLaw_run` — what one step answers and draws;
* `SessionLaw`, `sessionLaw` — what a whole session draws and answers.
-/

namespace CallDiagram

/-! ## Aliases do not matter -/

/-- The result of reading a document, with the aliases left out. -/
def withoutAliases (result : Except DocumentError (Forest Node)) :
    Except DocumentError (Forest Node) :=
  result.map (Forest.map (Node.withAlias []))

theorem withAlias_withGroup (name : Text) (group : Option Text) (n : Node) :
    (n.withGroup group).withAlias name = (n.withAlias name).withGroup group := by
  rw [Node.withAlias, Node.withGroup, Node.withAlias, Node.withGroup, Node.mapCall_mapCall,
    Node.mapCall_mapCall]
  rfl

theorem nearestGroup_withAlias (name : Text) (n : Node) (group : Option Text) :
    (n.withAlias name).nearestGroup group = n.nearestGroup group := by
  obtain ⟨index, source, indent, statement⟩ := n
  cases statement <;> rfl

theorem map_withAlias_inherit (name : Text) (group : Option Text) (f : Forest Node) :
    (inherit group f).map (Node.withAlias name) = inherit group (f.map (Node.withAlias name)) :=
  (inherit_map (fun group n => nearestGroup_withAlias name n group)
    (fun group n => withAlias_withGroup name group n) group f).symm

theorem map_withAlias_resolve (name : Text) (links : Links) (f : Forest Node) :
    (resolve links f).map (Node.withAlias name) = resolve links (f.map (Node.withAlias name)) := by
  refine (resolve_map ?_ links f).symm
  intro link n
  rw [Node.withAlias, Node.mapCall_mapCall, Node.withAlias, Node.mapCall_mapCall]
  rfl

theorem arrange_map_withAlias (name : Text) (nodes : List Node) :
    arrange (nodes.map (Node.withAlias name))
      = (arrange nodes).map (Forest.map (Node.withAlias name)) := by
  have hdepth : Node.indent ∘ Node.withAlias name = Node.indent := by
    funext n
    exact congrArg (fun p => p.2.2) (Node.place_withAlias name n)
  have hforest : Forest.ofList Node.indent (nodes.map (Node.withAlias name))
      = (Forest.ofList Node.indent nodes).map (Node.withAlias name) := by
    rw [← Forest.map_ofList, hdepth]
  have hfault : rootFault? ∘ Node.withAlias name = rootFault? := by
    funext n
    obtain ⟨index, source, indent, statement⟩ := n
    cases statement <;> rfl
  simp only [arrange, hforest, Forest.tops_map, List.findSome?_map, hfault]
  rw [← map_withAlias_inherit]
  cases (Forest.ofList Node.indent nodes).tops.findSome? rootFault? <;> rfl

/-- Two counters make the same of a document, but for aliases. -/
theorem withoutAliases_parse (counter counter' : Counter) (links : Links) (document : List Text) :
    (parse counter links document).1.map (Forest.map (Node.withAlias []))
      = (parse counter' links document).1.map (Forest.map (Node.withAlias [])) := by
  cases hscan : (scan 0 document).2 with
  | some e => rw [parse_of_failure hscan, parse_of_failure hscan]
  | none =>
    have hcounter : ∀ c : Counter,
        (parse c links document).1.map (Forest.map (Node.withAlias []))
          = (arrange ((scan 0 document).1.map (Node.withAlias []))).map (resolve links) := by
      intro c
      have hnodes : (number c (scan 0 document).1).map (Node.withAlias [])
          = (scan 0 document).1.map (Node.withAlias []) :=
        map_number (fun name n => Node.mapCall_mapCall _ _ n) c _
      rw [parse_of_no_failure hscan, ← hnodes, arrange_map_withAlias]
      cases arrange (number c (scan 0 document).1) with
      | error e => rfl
      | ok f => exact congrArg Except.ok (map_withAlias_resolve [] links f)
    rw [hcounter counter, hcounter counter']

/-! ## Reading a document -/

/-- What reading a document with a ledger draws and results in. -/
structure ReadLaw (l : Ledger) (links : Links) (document : List Text)
    (result : Except DocumentError (Forest Node)) (l' : Ledger) : Prop where
  /-- One alias is drawn for each call that is read: those in front of the first unknown line, or
  all, whether there is a forest or not. -/
  drawn : AliasesWritable l.counter document →
    l'.drawn = l.drawn ++ (l.counter.draw (callsRead document)).map .ok
  /-- A number that cannot be written is the last that is drawn, and the result. -/
  cut : ¬ AliasesWritable l.counter document →
    result = .error (.number .tooManyDigits) ∧ ∃ k < callsRead document,
      Number.isWritable (l.counter.next + k) = false ∧
        l'.drawn = l.drawn ++ ((l.counter.draw k).map .ok ++ [.error .tooManyDigits])
  /-- The calls of a forest have the aliases that were drawn, in document order. -/
  order : ∀ f, result = .ok f →
    f.walk.filterMap Node.aliasName? = l.counter.draw (callsRead document)
  /-- But for aliases, the result is the one that any other counter gives, as far as both write
  their numbers. -/
  alone : ∀ fresh, AliasesWritable l.counter document → AliasesWritable fresh document →
    withoutAliases result = withoutAliases (parseLimited fresh links document).1

/-- Reading a document keeps to the law. -/
theorem readLaw (l : Ledger) (links : Links) (document : List Text) :
    ReadLaw l links document (parseLimited l.counter links document).1
      (l.behind (l.counter.tries (callsRead document))) := by
  have hplain : ∀ c, AliasesWritable c document → (parseLimited c links document).1
      = (parse c links document).1.mapError .line := fun c h =>
    parseLimited_of_writable (by rwa [callCount_scan]) links
  refine ⟨fun h => ?drawn, fun h => ?cut, fun f hf => ?order, fun fresh h hfresh => ?alone⟩
  case drawn =>
    rw [Counter.tries_of_writable h, Ledger.behind, Counter.attempts_of_writable h]
  case cut =>
    obtain ⟨k, hk, hlong⟩ : ∃ k, k < callsRead document ∧
        Number.isWritable (l.counter.next + k) = false := by simpa [AliasesWritable] using h
    obtain ⟨j, hj, hbefore, hfirst, htries⟩ := Counter.exists_tries hk hlong
    refine ⟨parseLimited_of_not_writable (by rwa [callCount_scan]) hlong links, j, hj, hfirst, ?_⟩
    rw [htries, Ledger.behind, Counter.attempts_add, Counter.attempts_one,
      Counter.attempts_of_writable hbefore, Counter.attempt_of_not_writable hfirst]
  case order =>
    obtain ⟨-, hparse⟩ := parseLimited_eq_ok_iff.1 hf
    obtain ⟨hself, hcount⟩ := number_walk_of_parse hparse
    have haliases := aliases_number l.counter f.walk
    rwa [hself, hcount, callCount_scan] at haliases
  case alone =>
    have hmap : ∀ r : Except ParseError (Forest Node), withoutAliases (r.mapError .line)
        = (r.map (Forest.map (Node.withAlias []))).mapError .line := by
      intro r
      cases r <;> rfl
    rw [hplain _ h, hplain _ hfresh, hmap, hmap, withoutAliases_parse l.counter fresh]

/-! ## Sessions -/

/-- A step of a session. -/
inductive SessionStep where
  /-- Take the next alias. -/
  | next
  /-- Read a document. -/
  | read (links : Links) (document : List Text)

/-- What a step gives if it does not fail. -/
inductive SessionAnswer where
  | aliasName (name : Text)
  | forest (f : Forest Node)

/-- A step as a computation on the ledger. -/
def SessionStep.act : SessionStep → EStateM DocumentError Ledger SessionAnswer
  | .next => fun l => mapResult SessionAnswer.aliasName (Ledger.nextAlias l)
  | .read links document => fun l =>
      mapResult SessionAnswer.forest (readDocument Ledger.nextAlias links document l)

/-- The answer of a step, and the ledger behind it: a failure is an answer, too. -/
def SessionStep.run (l : Ledger) (s : SessionStep) :
    Except DocumentError SessionAnswer × Ledger :=
  match s.act l with
  | .ok answer l' => (.ok answer, l')
  | .error e l' => (.error e, l')

/-- The answers of the steps of a session, and the ledger behind them. -/
def session (l : Ledger) : List SessionStep →
    List (Except DocumentError SessionAnswer) × Ledger
  | [] => ([], l)
  | s :: rest => ((s.run l).1 :: (session (s.run l).2 rest).1, (session (s.run l).2 rest).2)

/-- What a step answers and draws. -/
def StepLaw (l : Ledger) (answer : Except DocumentError SessionAnswer) (l' : Ledger) :
    SessionStep → Prop
  | .next =>
      answer = (l.counter.attempt.map .aliasName).mapError .number ∧
        l'.drawn = l.drawn ++ [l.counter.attempt]
  | .read links document =>
      ∃ result, answer = result.map .forest ∧ ReadLaw l links document result l'

/-- What a session draws and answers. -/
structure SessionLaw (start : Counter) (steps : List SessionStep) : Prop where
  /-- The draws have the numbers from the first one on, one after the other; each gives the
  beginning with its number, unless that cannot be written. -/
  numbered : (session ⟨start, []⟩ steps).2.drawn
    = start.attempts (session ⟨start, []⟩ steps).2.drawn.length
  /-- No alias is given twice. -/
  distinct : ((session ⟨start, []⟩ steps).2.drawn.filterMap Except.toOption).Nodup
  /-- Every step is answered, and draws, as its law says. -/
  step : ∀ front s rest, steps = front ++ s :: rest →
    ∃ answer, (session ⟨start, []⟩ steps).1[front.length]? = some answer ∧
      StepLaw (session ⟨start, []⟩ front).2 answer (session ⟨start, []⟩ (front ++ [s])).2 s

theorem run_next (l : Ledger) :
    SessionStep.run l .next
      = ((l.counter.attempt.map SessionAnswer.aliasName).mapError DocumentError.number,
        l.behind 1) := by
  unfold SessionStep.run SessionStep.act Ledger.nextAlias
  cases h : l.counter.attempt <;>
    simp [h, mapResult, Ledger.behind, Counter.attempts_one, Except.map, Except.mapError]

theorem run_read (l : Ledger) (links : Links) (document : List Text) :
    SessionStep.run l (.read links document)
      = ((parseLimited l.counter links document).1.map SessionAnswer.forest,
        l.behind (l.counter.tries (callsRead document))) := by
  have hact : SessionStep.act (.read links document) l
      = mapResult SessionAnswer.forest (readDocument Ledger.nextAlias links document l) := rfl
  rw [SessionStep.run, hact, readDocument_nextAlias, callCount_scan]
  cases (parseLimited l.counter links document).1 <;> rfl

/-- A step goes on from the ledger as its law says. -/
theorem stepLaw_run (l : Ledger) (s : SessionStep) :
    StepLaw l (s.run l).1 (s.run l).2 s := by
  cases s with
  | next =>
    rw [run_next]
    exact ⟨rfl, by rw [Ledger.behind, Counter.attempts_one]⟩
  | read links document =>
    rw [run_read]
    exact ⟨_, rfl, readLaw l links document⟩

/-- A step makes some more draws and does nothing else to the ledger. -/
theorem exists_run_eq_behind (l : Ledger) (s : SessionStep) : ∃ n, (s.run l).2 = l.behind n := by
  cases s with
  | next => exact ⟨1, by rw [run_next]⟩
  | read links document => exact ⟨_, by rw [run_read]⟩

/-- A session makes some more draws and does nothing else to the ledger. -/
theorem exists_session_eq_behind (l : Ledger) (steps : List SessionStep) :
    ∃ n, (session l steps).2 = l.behind n := by
  induction steps generalizing l with
  | nil => exact ⟨0, l.behind_zero.symm⟩
  | cons s rest ih =>
    obtain ⟨m, hm⟩ := exists_run_eq_behind l s
    obtain ⟨n, hn⟩ := ih (s.run l).2
    exact ⟨m + n, by rw [session, hn, hm, Ledger.behind_behind]⟩

theorem session_append (l : Ledger) (front rest : List SessionStep) :
    session l (front ++ rest)
      = ((session l front).1 ++ (session (session l front).2 rest).1,
        (session (session l front).2 rest).2) := by
  induction front generalizing l with
  | nil => rfl
  | cons s front ih => rw [List.cons_append, session, ih, session, List.cons_append]

theorem length_session (l : Ledger) (steps : List SessionStep) :
    (session l steps).1.length = steps.length := by
  induction steps generalizing l with
  | nil => rfl
  | cons s rest ih => rw [session, List.length_cons, ih, List.length_cons]

/-- The aliases that are given by some draws are among those that the counter draws. -/
theorem filterMap_toOption_attempts_sublist (c : Counter) (n : Nat) :
    ((c.attempts n).filterMap Except.toOption).Sublist (c.draw n) := by
  induction n generalizing c with
  | zero => exact List.Sublist.refl _
  | succ n ih =>
    have hsplit : c.attempts (n + 1) = c.attempt :: (c.advance 1).attempts n := by
      rw [Nat.add_comm, Counter.attempts_add, Counter.attempts_one]
      rfl
    rw [hsplit, Counter.draw]
    cases hw : Number.isWritable c.next with
    | true =>
      rw [Counter.attempt_of_writable hw]
      exact (ih (c.advance 1)).cons_cons c.aliasName
    | false =>
      rw [Counter.attempt_of_not_writable hw]
      exact (ih (c.advance 1)).cons c.aliasName

/-- Every session keeps to the law. -/
theorem sessionLaw (start : Counter) (steps : List SessionStep) : SessionLaw start steps := by
  obtain ⟨n, hn⟩ := exists_session_eq_behind ⟨start, []⟩ steps
  have hdrawn : (session ⟨start, []⟩ steps).2.drawn = start.attempts n := by
    rw [hn, Ledger.behind, List.nil_append]
  have hlength : (start.attempts n).length = n := by simp [Counter.attempts]
  refine ⟨?numbered, ?distinct, fun front s rest hsteps => ?step⟩
  case numbered => rw [hdrawn, hlength]
  case distinct =>
    rw [hdrawn]
    exact (nodup_draw start n).sublist (filterMap_toOption_attempts_sublist start n)
  case step =>
    have hlaw := stepLaw_run (session ⟨start, []⟩ front).2 s
    refine ⟨(s.run (session ⟨start, []⟩ front).2).1, ?_, ?_⟩
    · rw [hsteps, session_append, session, ← length_session ⟨start, []⟩ front,
        List.getElem?_append_right (Nat.le_refl _), Nat.sub_self, List.getElem?_cons_zero]
    · rwa [session_append, session, session]

/-- A draw gives nothing if its number cannot be written. -/
theorem drawn_ne_of_not_writable {start : Counter}
    (h : Number.isWritable (start.advance 1).next = false) :
    (session ⟨start, []⟩ [.next, .next]).2.drawn ≠ (start.draw 2).map .ok := by
  have hdrawn : (session ⟨start, []⟩ [.next, .next]).2.drawn
      = [start.attempt, (start.advance 1).attempt] := by
    simp [session, run_next, Ledger.behind, Counter.attempts_one]
  rw [hdrawn, Counter.attempt_of_not_writable h]
  simp [Counter.draw]

/-- The largest number that is written is followed by a draw that gives nothing. -/
theorem drawn_ne_behind_largest :
    (session ⟨{ next := ((Nat.pow 10 Number.digitLimit : Nat) : Int) - 1 }, []⟩
        [.next, .next]).2.drawn
      ≠ (Counter.draw { next := ((Nat.pow 10 Number.digitLimit : Nat) : Int) - 1 } 2).map .ok := by
  apply drawn_ne_of_not_writable
  rw [Bool.eq_false_iff, ne_eq, Number.isWritable_iff]
  generalize Nat.pow 10 Number.digitLimit = bound
  show ¬ ((bound : Int) - 1 + (1 : Nat)).natAbs < bound
  omega

end CallDiagram
