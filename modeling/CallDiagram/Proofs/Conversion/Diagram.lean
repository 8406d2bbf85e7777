import CallDiagram.Conversion.Basic
import CallDiagram.Proofs.Action.Running

/-!
# The diagram of a text

However a text gets there, its diagram is made from its forest, and the documents behind it are
numbered on.  Besides that only the log is written to.

* `drawing` — the diagram of a text, or the refusal of it;
* `diagramOf_run`, `FileTree.Drawn` — the diagram of a source file is that of its text.
-/

namespace CallDiagram

/-- The diagram of a text, or its refusal. -/
def drawing (counter : Counter) (links : Links) (text : Text) : Except ParseError Text :=
  (parseText counter links text).1.bind diagramText

/-- A text has a diagram if it makes a forest that has one. -/
theorem drawing_eq_ok_iff {counter : Counter} {links : Links} {text diagram : Text} :
    drawing counter links text = .ok diagram ↔
      ∃ f, (parseText counter links text).1 = .ok f ∧ diagramText f = .ok diagram := by
  unfold drawing
  cases (parseText counter links text).1 <;> simp [Except.bind]

/-- The diagram of a source that is by itself. -/
def FileTree.Drawn (t : FileTree) (source : Path) (links : Links) (diagram : Text) : Prop :=
  ∃ text, t.text source.text = .ok text ∧ drawing {} links text = .ok diagram

namespace Action

/-- The forest of a text is reported, unless the text is refused. -/
theorem parseDocument_run (counter : Counter) (links : Links) (text : Text) (w : World) :
    ∃ lines, lines.IsWholeLines ∧ parseDocument counter links text w =
      match (parseText counter links text).1 with
      | .ok f => .ok (f, (parseText counter links text).2) (w.warned lines)
      | .error e => .error (.document e) w := by
  unfold parseDocument
  cases hparse : (parseText counter links text).1 with
  | error e =>
    refine ⟨[], Or.inl rfl, ?_⟩
    simp only [hparse]
    rfl
  | ok f =>
    obtain ⟨lines, hlines, hreport⟩ := report_run parseLogger .debug
      ("Parsed " ++ Text.natural f.walk.length ++ " node(s) into "
        ++ Text.natural f.tops.length ++ " root(s)") w
    refine ⟨lines, hlines, ?_⟩
    simp only [hparse]
    rw [bind_ofExcept_of_ok rfl]
    exact bind_of_ok hreport _

theorem diagramOfText_run (counter : Counter) (links : Links) (text : Text) (w : World) :
    ∃ lines, lines.IsWholeLines ∧ diagramOfText counter links text w =
      match drawing counter links text with
      | .ok diagram => .ok (diagram, (parseText counter links text).2) (w.warned lines)
      | .error e => .error (.document e) (w.warned lines) := by
  unfold diagramOfText drawing
  obtain ⟨lines, hlines, hrun⟩ := parseDocument_run counter links text w
  cases hparse : (parseText counter links text).1 with
  | error e =>
    rw [hparse] at hrun
    refine ⟨[], Or.inl rfl, ?_⟩
    rw [bind_of_error hrun, World.warned_nil]
    rfl
  | ok f =>
    rw [hparse] at hrun
    refine ⟨lines, hlines, ?_⟩
    rw [bind_of_ok hrun]
    show (ofExcept .document (diagramText f) >>= fun diagram =>
        pure (diagram, (parseText counter links text).2)) (w.warned lines)
      = match diagramText f with
        | .ok diagram => .ok (diagram, (parseText counter links text).2) (w.warned lines)
        | .error e => .error (.document e) (w.warned lines)
    cases diagramText f <;> rfl

/-- The diagram of a source file is that of its text.  Reports are written to the error stream. -/
theorem diagramOf_run {source : Path} {text : Text} {w : World}
    (hread : readText source.text w = .ok text w) (links : Links) (counter : Counter) :
    ∃ lines, lines.IsWholeLines ∧ diagramOf source links counter w =
      match drawing counter links text with
      | .ok diagram => .ok (diagram, (parseText counter links text).2) (w.warned lines)
      | .error e => .error (.document e) (w.warned lines) := by
  obtain ⟨lines, hlines, hrun⟩ := diagramOfText_run counter links text w
  unfold diagramOf
  rw [bind_of_ok hread]
  cases hdrawing : drawing counter links text with
  | ok diagram =>
    rw [hdrawing] at hrun
    have houtcome : outcome (diagramOfText counter links text) w
        = .ok (.ok (diagram, (parseText counter links text).2)) (w.warned lines) := by
      rw [outcome_run, hrun]
    exact ⟨lines, hlines, bind_of_ok houtcome _⟩
  | error e =>
    rw [hdrawing] at hrun
    have houtcome : outcome (diagramOfText counter links text) w
        = .ok (.error (.document e)) (w.warned lines) := by
      rw [outcome_run, hrun]
    obtain ⟨more, hmore, hreport⟩ := report_run batchLogger .error
      (source.text ++ ": " ++ (Fault.document e).message) (w.warned lines)
    refine ⟨lines ++ more, hlines.append hmore, ?_⟩
    rw [bind_of_ok houtcome, ← World.warned_warned]
    exact bind_of_ok hreport _

/-- If a source file has a diagram, its text was read before and nothing but the log was written. -/
theorem diagramOf_eq_ok {source : Path} {links : Links} {counter next : Counter} {diagram : Text}
    {w w' : World} (h : diagramOf source links counter w = .ok (diagram, next) w') :
    ∃ text lines, readText source.text w = .ok text w ∧ drawing counter links text = .ok diagram ∧
      next = (parseText counter links text).2 ∧ w' = w.warned lines := by
  obtain ⟨text, w₁, hread, -⟩ := bind_eq_ok_iff.1 h
  obtain ⟨rfl, -⟩ := readText_eq_ok_iff.1 hread
  obtain ⟨lines, -, hrun⟩ := diagramOf_run hread links counter
  rw [hrun] at h
  cases hdrawing : drawing counter links text with
  | error e => simp [hdrawing] at h
  | ok d =>
    rw [hdrawing] at h
    simp only [EStateM.Result.ok.injEq, Prod.mk.injEq] at h
    obtain ⟨⟨rfl, rfl⟩, rfl⟩ := h
    exact ⟨text, lines, hread, hdrawing, rfl, rfl⟩

end Action

end CallDiagram
