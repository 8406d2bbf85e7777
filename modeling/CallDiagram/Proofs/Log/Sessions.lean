import CallDiagram.Log
import Mathlib

/-!
# Sessions with the log

Whatever setups and records came before, a message is written at most once.  The last setup decides
on the stream, also if it was refused, and the last one that was accepted on the level.  What finds
no outlet, because there was no setup or because its logger does not stand below the program, is
written bare to the error stream of the process if it is a warning or graver.

* `Log.after`, `Log.written` — the log behind a session, and what is written in each of its steps;
* `Follows.step`, `follows_after` — the outlet and the threshold behind a session;
* `HoldsTo.step`, `holdsTo_after` — decisions that were made before hold to the threshold;
* `Stands`, `stands_of_isProgramLogger` — the loggers that stand below the program;
* `LoggingLaw`, `loggingLaw` — every session.
-/

namespace CallDiagram

/-! ## Sessions -/

/-- What is done with a log. -/
inductive LogStep (Stream : Type) where
  /-- A setup with a stream and the name of a level. -/
  | setup (stream : Stream) (name : Text)
  /-- The record of a message. -/
  | record (m : Message)

variable {Stream : Type}

namespace LogStep

/-- The stream of a setup. -/
def stream? : LogStep Stream → Option Stream
  | .setup stream _ => some stream
  | .record _ => none

/-- The level of a setup, if its name is that of one. -/
def level? : LogStep Stream → Option Level
  | .setup _ name => (LevelName.ofText? (Text.upper name)).map LevelName.level
  | .record _ => none

end LogStep

/-- The stream of the last setup. -/
def lastStream? (steps : List (LogStep Stream)) : Option Stream :=
  (steps.filterMap LogStep.stream?).getLast?

/-- The level of the last setup that named one. -/
def lastLevel? (steps : List (LogStep Stream)) : Option Level :=
  (steps.filterMap LogStep.level?).getLast?

/-- Without a setup no level was named. -/
theorem lastLevel?_eq_none {steps : List (LogStep Stream)} (h : lastStream? steps = none) :
    lastLevel? steps = none := by
  have hnone : ∀ s ∈ steps, s.stream? = none := by
    simpa [lastStream?, List.getLast?_eq_none_iff, List.filterMap_eq_nil_iff] using h
  rw [lastLevel?, List.getLast?_eq_none_iff, List.filterMap_eq_nil_iff]
  intro s hs
  cases s with
  | setup stream name => exact absurd (hnone _ hs) (by simp [LogStep.stream?])
  | record m => rfl

/-- The level in force: warnings, if no setup named one or the last one left it open. -/
def levelInForce (steps : List (LogStep Stream)) : Level :=
  match lastLevel? steps with
  | none | some .notset => .warning
  | some level => level

/-- What is written for a message that finds no outlet: warnings and what is graver, bare. -/
def bareLines (errors : Stream) (m : Message) : List (Stream × Text) :=
  if Level.warning.rank.value ≤ m.rank.value then [(errors, m.bare)] else []

/-- What is to be written for a message: its line, to the stream of the last setup, if it is grave
enough.  Before the first setup there is no outlet. -/
def dueLines (errors : Stream) (steps : List (LogStep Stream)) (m : Message) :
    List (Stream × Text) :=
  match lastStream? steps with
  | some stream =>
      if (levelInForce steps).rank.value ≤ m.rank.value then [(stream, m.text)] else []
  | none => bareLines errors m

namespace Log

/-- What is written in a step, and the log behind it. -/
def step (log : Log Stream) (errors : Stream) : LogStep Stream → List (Stream × Text) × Log Stream
  | .setup stream name => ([], (log.setup stream name).2)
  | .record m => log.record errors m

/-- The log behind a step.  It does not depend on the error stream of the process. -/
def next (log : Log Stream) : LogStep Stream → Log Stream
  | .setup stream name => (log.setup stream name).2
  | .record m => (log.decided m).enlist m.logger

theorem snd_step (log : Log Stream) (errors : Stream) (s : LogStep Stream) :
    (log.step errors s).2 = log.next s := by
  cases s <;> rfl

/-- The log behind a session. -/
def after (log : Log Stream) (steps : List (LogStep Stream)) : Log Stream := steps.foldl next log

/-- What is written in each step of a session. -/
def written (log : Log Stream) (errors : Stream) :
    List (LogStep Stream) → List (List (Stream × Text))
  | [] => []
  | s :: rest => (log.step errors s).1 :: written (log.step errors s).2 errors rest

theorem after_snoc (log : Log Stream) (steps : List (LogStep Stream)) (s : LogStep Stream) :
    log.after (steps ++ [s]) = (log.after steps).next s := by
  simp [after]

/-- What is written in a step depends on the steps in front of it only. -/
theorem getElem?_written (log : Log Stream) (errors : Stream) (steps : List (LogStep Stream))
    (i : Nat) : (log.written errors steps)[i]?
      = steps[i]?.map fun s => ((log.after (steps.take i)).step errors s).1 := by
  induction steps generalizing log i with
  | nil => rfl
  | cons s steps ih =>
    cases i with
    | zero => rfl
    | succ i =>
      rw [written, List.getElem?_cons_succ, ih, snd_step]
      rfl

/-- A setup reports the level that its name names, whatever was done before. -/
theorem toOption_setup (log : Log Stream) (stream : Stream) (name : Text) :
    (log.setup stream name).1.toOption = (LogStep.setup stream name).level? := by
  cases hname : LevelName.ofText? (Text.upper name) <;>
    simp [setup, LogStep.level?, hname, Except.toOption]

/-! ## The outlet and the threshold -/

/-- The log has the outlet and the threshold that a session leaves behind. -/
structure Follows (log : Log Stream) (steps : List (LogStep Stream)) : Prop where
  /-- The last outlet is the only one. -/
  single : log.outlets = log.current.toList
  /-- It leads to the stream of the last setup. -/
  stream : log.current.map Outlet.stream = lastStream? steps
  /-- The threshold is the level of the last setup that named one. -/
  threshold : log.threshold = (lastLevel? steps).getD .notset

section Setups

variable {log : Log Stream} (h : log.outlets = log.current.toList)

include h

/-- The outlet of the last setup was the only one. -/
theorem outlets_detach : log.detach.outlets = [] := by
  unfold detach
  cases hcurrent : log.current with
  | none => simpa [hcurrent] using h
  | some last => simp [h, hcurrent]

/-- Behind a setup the new outlet is the only one. -/
theorem outlets_redirect (stream : Stream) :
    (log.redirect stream).outlets = (log.redirect stream).current.toList := by
  simp [redirect, attach, outlets_detach h]

end Setups

@[simp] theorem threshold_redirect (log : Log Stream) (stream : Stream) :
    (log.redirect stream).threshold = log.threshold := by
  unfold redirect attach detach
  split <;> rfl

@[simp] theorem decisions_redirect (log : Log Stream) (stream : Stream) :
    (log.redirect stream).decisions = log.decisions := by
  unfold redirect attach detach
  split <;> rfl

/-- A step of a session is followed, whether a setup is accepted or not. -/
theorem Follows.step {log : Log Stream} {steps : List (LogStep Stream)} (h : log.Follows steps)
    (s : LogStep Stream) : (log.next s).Follows (steps ++ [s]) := by
  cases s with
  | record m =>
    have hlog : (log.next (.record m)).outlets = log.outlets ∧
        (log.next (.record m)).current = log.current ∧
        (log.next (.record m)).threshold = log.threshold := by
      simp only [next, enlist]
      split <;> exact ⟨rfl, rfl, rfl⟩
    obtain ⟨houtlets, hcurrent, hthreshold⟩ := hlog
    refine ⟨?_, ?_, ?_⟩
    · rw [houtlets, hcurrent, h.single]
    · rw [hcurrent, h.stream]
      simp [lastStream?, LogStep.stream?]
    · rw [hthreshold, h.threshold]
      simp [lastLevel?, LogStep.level?]
  | setup stream name =>
    have hstream : lastStream? (steps ++ [LogStep.setup stream name]) = some stream := by
      simp [lastStream?, LogStep.stream?]
    cases hname : LevelName.ofText? (Text.upper name) with
    | none =>
      have hstep : log.next (.setup stream name) = log.redirect stream := by
        simp [next, setup, hname]
      rw [hstep]
      refine ⟨outlets_redirect h.single stream, by rw [hstream]; rfl, ?_⟩
      rw [threshold_redirect, h.threshold]
      simp [lastLevel?, LogStep.level?, hname]
    | some known =>
      have hstep : log.next (.setup stream name)
          = { log.redirect stream with threshold := known.level, decisions := [] } := by
        simp [next, setup, hname]
      rw [hstep]
      refine ⟨outlets_redirect h.single stream, by rw [hstream]; rfl, ?_⟩
      simp [lastLevel?, LogStep.level?, hname]

theorem follows_after (steps : List (LogStep Stream)) :
    (after ({} : Log Stream) steps).Follows steps := by
  induction steps using List.reverseRecOn with
  | nil => exact ⟨rfl, rfl, rfl⟩
  | append_singleton steps s ih =>
    rw [after_snoc]
    exact ih.step s

theorem effective_after (steps : List (LogStep Stream)) :
    (after ({} : Log Stream) steps).effective = levelInForce steps := by
  rw [effective, (follows_after steps).threshold, levelInForce]
  rcases lastLevel? steps with - | level
  · rfl
  · cases level <;> rfl

/-! ## Decisions -/

/-- The decisions about a logger are those of its threshold. -/
def HoldsTo (log : Log Stream) (logger : Text) : Prop :=
  ∀ d ∈ log.decisions, d.logger = logger →
    d.passes = decide ((log.thresholdFor logger).rank.value ≤ d.rank.value)

/-- A message passes by the threshold for its logger, also if that was decided before. -/
theorem passes_eq {log : Log Stream} {m : Message} (h : log.HoldsTo m.logger) :
    log.passes m = decide ((log.thresholdFor m.logger).rank.value ≤ m.rank.value) := by
  rw [passes]
  cases hdecision : log.decision? m with
  | none => rfl
  | some d =>
    have hsame : d.logger = m.logger ∧ d.rank = m.rank := by
      simpa using List.find?_some hdecision
    rw [← hsame.2]
    exact h d (List.mem_of_find?_eq_some hdecision) hsame.1

/-- Decisions hold to the threshold, as long as the logger stands where it stood: an accepted setup
forgets them, a refused one leaves the threshold, and a record adds one that is made by it. -/
theorem HoldsTo.step {log : Log Stream} {logger : Text} {s : LogStep Stream}
    (hcovers : (log.next s).covers logger = log.covers logger) (h : log.HoldsTo logger) :
    (log.next s).HoldsTo logger := by
  cases s with
  | setup stream name =>
    cases hname : LevelName.ofText? (Text.upper name) with
    | some known =>
      have hnone : (log.next (.setup stream name)).decisions = [] := by
        simp [next, setup, hname]
      intro d hd
      simp [hnone] at hd
    | none =>
      have hstep : log.next (.setup stream name) = log.redirect stream := by
        simp [next, setup, hname]
      rw [hstep] at hcovers ⊢
      intro d hd hlogger
      rw [decisions_redirect] at hd
      rw [thresholdFor, hcovers, effective, threshold_redirect]
      exact h d hd hlogger
  | record m =>
    have hlog : (log.next (.record m)).decisions = (log.decided m).decisions ∧
        (log.next (.record m)).threshold = log.threshold := by
      simp only [next, enlist]
      split <;> exact ⟨rfl, rfl⟩
    intro d hd hlogger
    rw [hlog.1, decided] at hd
    rw [thresholdFor, hcovers, effective, hlog.2]
    rcases List.mem_cons.1 hd with rfl | hd
    · subst hlogger
      exact passes_eq h
    · exact h d hd hlogger

end Log

/-! ## Loggers below the program -/

/-- A logger that stands below the program, or does not, in every log on the way through a
session. -/
def Stands (below : Bool) (steps : List (LogStep Stream)) (logger : Text) : Prop :=
  ∀ front, front <+: steps → (Log.after ({} : Log Stream) front).covers logger = below

/-- The names of loggers that the program gives to its parts: its own name, perhaps with a dot
behind it and then anything that does not start with another one. -/
def IsProgramLogger (logger : Text) : Prop :=
  logger = Log.rootLogger ∨
    ∃ part : Text, logger = Log.rootLogger ++ '.' :: part ∧ part.head? ≠ some '.'

namespace Log

/-- The dot behind the name of the program is found, unless the one behind it hides it. -/
theorem isBelow_append (inUse : List Text) :
    ∀ {front : Text}, front.getLast? ≠ some '.' →
      isBelow inUse (front ++ '.' :: rootLogger.reverse) = true
  | [], _ => by
    have hname : rootLogger.reverse = 'e' :: "uqsedoc".toList := by decide
    rw [hname, List.nil_append, isBelow]
    rfl
  | [c], h => by
    have hc : c ≠ '.' := by simpa using h
    rw [List.singleton_append, isBelow, if_pos hc]
    have hnil : ([] : Text).getLast? ≠ some '.' := by simp
    exact isBelow_append inUse hnil
  | c :: d :: front, h => by
    have hbehind : (d :: front).getLast? ≠ some '.' := by
      rwa [List.getLast?_cons_cons] at h
    have hskipped : front.getLast? ≠ some '.' := by
      cases front with
      | nil => simp
      | cons e front => rwa [List.getLast?_cons_cons] at hbehind
    rw [List.cons_append, List.cons_append, isBelow]
    split
    · exact isBelow_append inUse hbehind
    · simp only []
      split
      · rfl
      · split
        · exact isBelow_append inUse hbehind
        · exact isBelow_append inUse hskipped

theorem covers_of_isProgramLogger (log : Log Stream) {logger : Text} (h : IsProgramLogger logger) :
    log.covers logger = true := by
  rcases h with rfl | ⟨part, rfl, hpart⟩
  · simp [covers]
  · have hlast : part.reverse.getLast? ≠ some '.' := by rwa [List.getLast?_reverse]
    have hbelow := isBelow_append log.loggers hlast
    simp only [covers, List.reverse_append, List.reverse_cons, List.append_assoc,
      List.singleton_append, hbelow, Bool.or_true]

theorem stands_of_isProgramLogger (steps : List (LogStep Stream)) {logger : Text}
    (h : IsProgramLogger logger) : Stands true steps logger :=
  fun front _ => covers_of_isProgramLogger (after {} front) h

theorem holdsTo_after {steps : List (LogStep Stream)} {logger : Text} {below : Bool}
    (h : Stands below steps logger) : (after ({} : Log Stream) steps).HoldsTo logger := by
  induction steps using List.reverseRecOn with
  | nil => exact fun d hd => absurd hd (by simp [after])
  | append_singleton steps s ih =>
    have hfront : steps <+: steps ++ [s] := List.prefix_append _ _
    have hcovers : ((after {} steps).next s).covers logger = (after {} steps).covers logger := by
      rw [← after_snoc, h _ (List.prefix_refl _), h _ hfront]
    rw [after_snoc]
    exact (ih fun front hle => h front (hle.trans hfront)).step hcovers

/-! ## What is written -/

section Written

variable (errors : Stream) (steps : List (LogStep Stream)) (m : Message)

/-- Behind a session a message that passes is written through the outlet of the last setup, or
bare. -/
theorem deliveries_after : (after {} steps).deliveries errors m
    = if (after {} steps).passes m then
        match (if (after {} steps).covers m.logger then lastStream? steps else none) with
        | some stream => [(stream, m.text)]
        | none => bareLines errors m
      else [] := by
  have hfollows := follows_after steps
  rw [deliveries, outletsFor, hfollows.single, ← hfollows.stream]
  cases (after {} steps).covers m.logger with
  | false => rfl
  | true => cases (after {} steps).current <;> rfl

/-- What is written for a message of a logger below the program is what is due. -/
theorem deliveries_of_below {steps : List (LogStep Stream)} {m : Message}
    (h : Stands true steps m.logger) :
    (after {} steps).deliveries errors m = dueLines errors steps m := by
  have hcovers := h steps (List.prefix_refl _)
  have hpasses : (after {} steps).passes m
      = decide ((levelInForce steps).rank.value ≤ m.rank.value) := by
    rw [passes_eq (holdsTo_after h), thresholdFor, hcovers, if_pos rfl, effective_after]
  rw [deliveries_after, hpasses, hcovers, if_pos rfl, dueLines]
  cases hstream : lastStream? steps with
  | some stream => simp
  | none =>
    -- without a setup the level in force is that of warnings
    have hlevel : levelInForce steps = .warning := by
      rw [levelInForce, lastLevel?_eq_none hstream]
    rw [hlevel, bareLines]
    simp

/-- What is written for a message of a logger that does not stand below the program is written
bare. -/
theorem deliveries_of_outside {steps : List (LogStep Stream)} {m : Message}
    (h : Stands false steps m.logger) :
    (after {} steps).deliveries errors m = bareLines errors m := by
  have hcovers := h steps (List.prefix_refl _)
  have hpasses : (after {} steps).passes m
      = decide (Level.warning.rank.value ≤ m.rank.value) := by
    rw [passes_eq (holdsTo_after h), thresholdFor, hcovers]
    rfl
  rw [deliveries_after, hpasses, hcovers, bareLines]
  simp

end Written

end Log

/-! ## The law -/

/-- What is written in the steps of a session, where the process has an error stream. -/
structure LoggingLaw (errors : Stream) (steps : List (LogStep Stream)) : Prop where
  /-- A setup writes nothing, and is accepted if its name is that of a level. -/
  setup : ∀ {i : Nat} {stream : Stream} {name : Text}, steps[i]? = some (.setup stream name) →
    (Log.written {} errors steps)[i]? = some [] ∧
      ((Log.after {} (steps.take i)).setup stream name).1.toOption
        = (LogStep.setup stream name).level?
  /-- A message of any logger is written at most once: as its line, to the stream of the last setup
  in front of it; or bare, to the error stream of the process, if it is a warning or graver. -/
  once : ∀ {i : Nat} {m : Message}, steps[i]? = some (.record m) →
    ∃ lines, (Log.written {} errors steps)[i]? = some lines ∧ lines.length ≤ 1 ∧
      ∀ d ∈ lines, (lastStream? (steps.take i) = some d.1 ∧ d.2 = m.text) ∨ d ∈ bareLines errors m
  /-- A message of a logger below the program is written as its line if there was a setup and the
  message is grave enough for the level in force. -/
  due : ∀ {i : Nat} {m : Message}, steps[i]? = some (.record m) →
    Stands true (steps.take i) m.logger →
      (Log.written {} errors steps)[i]? = some (dueLines errors (steps.take i) m)
  /-- A message of a logger that does not stand below the program is written bare at most, whatever
  setups there were. -/
  outside : ∀ {i : Nat} {m : Message}, steps[i]? = some (.record m) →
    Stands false (steps.take i) m.logger →
      (Log.written {} errors steps)[i]? = some (bareLines errors m)
  /-- The program and its parts stand below it, whatever is done. -/
  below : ∀ {logger : Text}, IsProgramLogger logger → ∀ i, Stands true (steps.take i) logger

theorem loggingLaw (errors : Stream) (steps : List (LogStep Stream)) : LoggingLaw errors steps := by
  have hwritten : ∀ {i : Nat} {m : Message}, steps[i]? = some (.record m) →
      (Log.written {} errors steps)[i]?
        = some ((Log.after {} (steps.take i)).deliveries errors m) := by
    intro i m hstep
    rw [Log.getElem?_written, hstep]
    rfl
  refine ⟨?setup, ?once, ?due, ?outside, ?below⟩
  case setup =>
    intro i stream name hstep
    refine ⟨?_, Log.toOption_setup _ stream name⟩
    rw [Log.getElem?_written, hstep]
    rfl
  case once =>
    intro i m hstep
    refine ⟨_, hwritten hstep, ?_⟩
    rw [Log.deliveries_after]
    have hbare : (bareLines errors m).length ≤ 1 := by
      unfold bareLines
      split <;> simp
    cases (Log.after {} (steps.take i)).passes m with
    | false => simp
    | true =>
      cases (Log.after {} (steps.take i)).covers m.logger with
      | false => exact ⟨hbare, fun d hd => Or.inr hd⟩
      | true =>
        cases lastStream? (steps.take i) with
        | none => exact ⟨hbare, fun d hd => Or.inr hd⟩
        | some stream => simp
  case due =>
    intro i m hstep hbelow
    rw [hwritten hstep, Log.deliveries_of_below errors hbelow]
  case outside =>
    intro i m hstep houtside
    rw [hwritten hstep, Log.deliveries_of_outside errors houtside]
  case below =>
    intro logger hlogger i
    exact Log.stands_of_isProgramLogger _ hlogger

/-- A refused setup moves the log to its stream, and messages between two levels have a rank.  Before
the first setup an error is written bare. -/
example : Log.written {} "errors"
    [.record ⟨"codesque", Level.error, "m"⟩, .setup "first" "info",
      .record ⟨"codesque.batch", ⟨25, by decide⟩, "m"⟩, .setup "second" "loud",
      .record ⟨"codesque.batch", Level.debug, "m"⟩, .record ⟨"codesque", Level.error, "m"⟩]
    = [[("errors", "m\n".toList)], [], [("first", "[codesque.batch] Level 25 m\n".toList)], [], [],
        [("second", "[codesque] ERROR m\n".toList)]] := by rfl

/-- A name whose part starts with a dot is not found below the program: its messages do not get to
the stream of the setup. -/
theorem not_due_emptyPart :
    ("codesque..y" : Text) = Log.rootLogger ++ '.' :: ".y" ∧
      dueLines "errors" [LogStep.setup "stream" "INFO"] ⟨"codesque..y", Level.error, "m"⟩
        = [("stream", "[codesque..y] ERROR m\n".toList)] ∧
      Log.written {} "errors"
          [.setup "stream" "INFO", .record ⟨"codesque..y", Level.error, "m"⟩]
        = [[], [("errors", "m\n".toList)]] :=
  ⟨by decide, by rfl, by rfl⟩

end CallDiagram
