import CallDiagram.Proofs.Conversion.Places
import Mathlib.Logic.Relation

/-!
# Drawings that run beside each other

The images of a batch are drawn by runs of the drawing program, a limited number of them at the same
time.  A run starts when there is room for it and ends at any time; then its image is written.

* `startDrawing`, `endDrawing`, `drawOne_eq` — the two halves of a drawing;
* `Stage`, `DrawStep` — the drawings of a batch, and what may happen next to one of them;
* `NeverStuck`, `neverStuck` — the drawings come to an end;
* `drawSteps_of_drawEach` — drawing one after the other is one of the ways;
* `finishImages`, `EndsAs`, `endsAs_convertSources` — what the batch does behind the last of them.
-/

namespace CallDiagram

open CallDiagram.Action

/-! ## One drawing -/

/-- What a run of the drawing program comes to for a document. -/
def Renderer.drawn (renderer : Renderer) (settings : Settings) (f : Format) (document : Text) :
    Except RunFault Bytes :=
  (renderer.run .concurrent settings.timeout (settings.drawing f) document).2

/-- The attempt that a run is noted as.  A program that is missing is not offered the document. -/
def Renderer.attempt (renderer : Renderer) (settings : Settings) (f : Format) (document : Text) :
    Attempt :=
  ⟨settings.drawing f,
    match renderer with
    | .missing => none
    | .present _ => some document⟩

theorem Renderer.fst_run_concurrent (renderer : Renderer) (settings : Settings) (f : Format)
    (document : Text) :
    (renderer.run .concurrent settings.timeout (settings.drawing f) document).1
      = renderer.attempt settings f document := by
  cases renderer <;> rfl

section Render

variable {format : Text} {settings : Settings} {renderer : Renderer} {launch : Launch}
  {source : Option Text} {document : Text}

/-- A document is drawn in one run if the format is known. -/
theorem render_of_read {f : Format} (hread : Format.read format = .ok f) :
    render settings renderer launch (some format) source document
      = ([(renderer.run launch settings.timeout (settings.drawing f) document).1],
          (renderer.run launch settings.timeout (settings.drawing f) document).2.mapError
            (RunFault.forSource source)) := by
  have hrequested : (Text.nonempty? (some format)).getD settings.format.name = format := by
    cases format with
    | nil => exact absurd rfl (Format.plain_of_read hread).1
    | cons c rest => rfl
  rw [render, hrequested, Settings.drawingAs, hread]
  rfl

end Render

namespace Action

/-- Starts a run of the drawing program. -/
def startDrawing (settings : Settings) (format : Text) (c : Conversion) :
    Action (Except RenderFault Bytes) := do
  let (attempts, result) := render settings (← get).renderer .concurrent (some format)
    (some c.source.text) c.diagram
  modify fun w => { w with attempts := w.attempts ++ attempts }
  pure result

/-- Writes the image of a run that has ended. -/
def endDrawing (c : Conversion) (imagePath : Path) (result : Except RenderFault Bytes) :
    Action Unit := do
  let image ← ofExcept .rendering result
  report renderLogger .debug
    ("Rendered " ++ c.source.text ++ " (" ++ Text.natural image.length ++ " bytes)")
  writeBytes imagePath.text image
  reportImage c.source imagePath

/-- A drawing is a run that is started and ended. -/
theorem drawOne_eq (settings : Settings) (format : Text) (c : Conversion) (imagePath : Path) :
    drawOne settings format c imagePath
      = startDrawing settings format c >>= endDrawing c imagePath := by
  funext w
  cases hrender : render settings w.renderer .concurrent (some format) (some c.source.text)
      c.diagram with
  | mk attempts result =>
    have hstart : startDrawing settings format c w
        = .ok result { w with attempts := w.attempts ++ attempts } := by
      unfold startDrawing
      rw [get_bind_run, hrender]
      rfl
    have hdraw : draw settings .concurrent format c.source.text c.diagram w
        = (ofExcept .rendering result >>= fun image => report renderLogger .debug
            ("Rendered " ++ c.source.text ++ " (" ++ Text.natural image.length ++ " bytes)")
              >>= fun _ => pure image) { w with attempts := w.attempts ++ attempts } := by
      unfold draw
      rw [get_bind_run, hrender]
      rfl
    rw [bind_of_ok hstart, drawOne, bind_run, hdraw]
    cases result with
    | error e => rfl
    | ok image =>
      obtain ⟨lines, -, hreport⟩ := report_run renderLogger .debug
        ("Rendered " ++ c.source.text ++ " (" ++ Text.natural image.length ++ " bytes)")
        { w with attempts := w.attempts ++ attempts }
      unfold endDrawing
      rw [bind_ofExcept_of_ok rfl, bind_ofExcept_of_ok rfl, bind_of_ok hreport, bind_of_ok hreport]
      rfl

/-- A run is noted, and what it comes to is decided by the document. -/
theorem startDrawing_run {format : Text} {f : Format} (hread : Format.read format = .ok f)
    (settings : Settings) (c : Conversion) (w : World) :
    startDrawing settings format c w
      = .ok ((w.renderer.drawn settings f c.diagram).mapError
          (RunFault.forSource (some c.source.text)))
          (w.tried [w.renderer.attempt settings f c.diagram]) := by
  unfold startDrawing
  rw [get_bind_run, render_of_read hread, Renderer.fst_run_concurrent]
  rfl

/-- The end of a run writes its image, unless there is none or it has no place. -/
theorem endDrawing_run (c : Conversion) (imagePath : Path) (image : Bytes) (w : World) :
    ∃ lines, match w.files.write imagePath.text image with
      | .ok files => endDrawing c imagePath (.ok image) w = .ok () ((w.warned lines).holding files)
      | .error e => endDrawing c imagePath (.ok image) w = .error (.file e) (w.warned lines) := by
  obtain ⟨lines, -, hreport⟩ := report_run renderLogger .debug
    ("Rendered " ++ c.source.text ++ " (" ++ Text.natural image.length ++ " bytes)") w
  unfold endDrawing
  rw [bind_ofExcept_of_ok rfl, bind_of_ok hreport]
  cases hwrite : w.files.write imagePath.text image with
  | error e =>
    have hunwritten : writeBytes imagePath.text image (w.warned lines)
        = .error (.file e) (w.warned lines) := writeBytes_of_error hwrite
    exact ⟨lines, bind_of_error hunwritten _⟩
  | ok files =>
    have hwritten : writeBytes imagePath.text image (w.warned lines)
        = .ok () ((w.warned lines).holding files) :=
      writeBytes_eq_ok_iff.2 ⟨files, hwrite, rfl⟩
    obtain ⟨more, -, hdone⟩ := report_run batchLogger .info
      ("Rendered " ++ c.source.text ++ " -> " ++ imagePath.text) ((w.warned lines).holding files)
    refine ⟨lines ++ more, ?_⟩
    rw [bind_of_ok hwritten, reportImage, hdone, ← World.warned_warned]
    rfl

end Action

/-! ## All drawings -/

/-- How far a drawing has come. -/
inductive Stage where
  /-- It has not been started. -/
  | waiting
  /-- Its run is under way. -/
  | running (result : Except RenderFault Bytes)
  /-- It is done. -/
  | ended (result : Except Fault Unit)

namespace Stage

/-- Whether a run is under way. -/
def isRunning : Stage → Bool
  | running _ => true
  | _ => false

/-- Whether a drawing is done. -/
def isEnded : Stage → Bool
  | ended _ => true
  | _ => false

/-- The fault that has spoiled a drawing. -/
def fault? : Stage → Option Fault
  | ended (.error fault) => some fault
  | _ => none

/-- The number of steps to the end of a drawing. -/
def remaining : Stage → Nat
  | waiting => 2
  | running _ => 1
  | ended _ => 0

theorem isRunning_of_isEnded {stage : Stage} (h : stage.isEnded = true) :
    stage.isRunning = false := by
  cases stage with
  | waiting => rfl
  | running result => cases h
  | ended result => rfl

end Stage

/-- A conversion with the path for its image, and how far the drawing of that has come. -/
abbrev Job := (Conversion × Path) × Stage

/-- The number of runs under way. -/
def runningIn (jobs : List Job) : Nat := jobs.countP fun j => j.2.isRunning

theorem runningIn_eq_zero {jobs : List Job} (h : ∀ j ∈ jobs, j.2.isRunning = false) :
    runningIn jobs = 0 := by
  refine List.countP_eq_zero.2 fun j hj => ?_
  rw [h j hj]
  exact Bool.false_ne_true

/-- The faults that have spoiled drawings, in the order of these. -/
def faultsIn (jobs : List Job) : List Fault := jobs.filterMap fun j => j.2.fault?

/-- What may happen next: a run starts, if there are fewer than the limit, or a run ends. -/
inductive DrawStep (settings : Settings) (format : Text) (limit : Nat) :
    World × List Job → World × List Job → Prop
  | start {w w' : World} {front back : List Job} {r : Conversion × Path}
      {result : Except RenderFault Bytes} (room : runningIn (front ++ back) < limit)
      (run : startDrawing settings format r.1 w = .ok result w') :
      DrawStep settings format limit (w, front ++ (r, .waiting) :: back)
        (w', front ++ (r, .running result) :: back)
  | finish {w w' : World} {front back : List Job} {r : Conversion × Path}
      {result : Except RenderFault Bytes} {ending : Except Fault Unit}
      (run : outcome (endDrawing r.1 r.2 result) w = .ok ending w') :
      DrawStep settings format limit (w, front ++ (r, .running result) :: back)
        (w', front ++ (r, .ended ending) :: back)

/-- Any number of steps. -/
abbrev DrawSteps (settings : Settings) (format : Text) (limit : Nat) :
    World × List Job → World × List Job → Prop :=
  Relation.ReflTransGen (DrawStep settings format limit)

section Steps

variable {settings : Settings} {format : Text} {limit : Nat}

theorem exists_startDrawing (settings : Settings) (format : Text) (c : Conversion) (w : World) :
    ∃ result w', startDrawing settings format c w = .ok result w' := ⟨_, _, rfl⟩

theorem exists_outcome {α : Type} (x : Action α) (w : World) :
    ∃ result w', outcome x w = .ok result w' := by
  rw [outcome_run]
  cases x w with
  | ok a w' => exact ⟨_, _, rfl⟩
  | error e w' => exact ⟨_, _, rfl⟩

/-- As long as a drawing is not done, something may happen. -/
theorem exists_drawStep (hlimit : 0 < limit) {w : World} {jobs : List Job}
    (hopen : ∃ j ∈ jobs, j.2.isEnded = false) :
    ∃ s, DrawStep settings format limit (w, jobs) s := by
  by_cases hrunning : ∃ j ∈ jobs, j.2.isRunning = true
  · obtain ⟨⟨r, stage⟩, hmem, hstage⟩ := hrunning
    obtain ⟨front, back, rfl⟩ := List.append_of_mem hmem
    cases stage with
    | waiting => cases hstage
    | running result =>
      obtain ⟨ending, w', hrun⟩ := exists_outcome (endDrawing r.1 r.2 result) w
      exact ⟨_, .finish hrun⟩
    | ended result => cases hstage
  · obtain ⟨⟨r, stage⟩, hmem, hstage⟩ := hopen
    have hidle : ∀ j ∈ jobs, j.2.isRunning = false := by
      intro j hj
      by_contra hj'
      exact hrunning ⟨j, hj, by simpa using hj'⟩
    obtain ⟨front, back, rfl⟩ := List.append_of_mem hmem
    cases stage with
    | waiting =>
      obtain ⟨result, w', hrun⟩ := exists_startDrawing settings format r.1 w
      refine ⟨_, .start ?_ hrun⟩
      have hnone : runningIn (front ++ back) = 0 :=
        runningIn_eq_zero fun j hj => hidle j (by
          rcases List.mem_append.1 hj with hj | hj
          · exact List.mem_append_left _ hj
          · exact List.mem_append_right _ (List.mem_cons_of_mem _ hj))
      omega
    | running result => cases hidle _ hmem
    | ended result => cases hstage

/-- Every step brings the drawings nearer to their end. -/
theorem DrawStep.remaining_lt {s s' : World × List Job}
    (h : DrawStep settings format limit s s') :
    (s'.2.map fun j => j.2.remaining).sum < (s.2.map fun j => j.2.remaining).sum := by
  cases h with
  | start room run => simp [Stage.remaining]
  | finish run => simp [Stage.remaining]

/-- That drawings come to an end whatever happens: as long as one of them is not done something may
happen next, and nothing goes on for ever. -/
structure NeverStuck (settings : Settings) (format : Text) (limit : Nat)
    (results : List (Conversion × Path)) (w : World) : Prop where
  live : ∀ s, DrawSteps settings format limit (w, results.map fun r => (r, .waiting)) s →
    (∃ j ∈ s.2, j.2.isEnded = false) → ∃ s', DrawStep settings format limit s s'
  ends : Acc (fun s' s => DrawStep settings format limit s s')
    (w, results.map fun r => (r, .waiting))

theorem neverStuck (hlimit : 0 < limit) (results : List (Conversion × Path)) (w : World) :
    NeverStuck settings format limit results w where
  live _ _ hopen := exists_drawStep hlimit hopen
  ends := by
    have hwf : WellFounded (InvImage (· < ·) fun s : World × List Job =>
        (s.2.map fun j => j.2.remaining).sum) := InvImage.wf _ Nat.lt_wfRel.wf
    exact Subrelation.accessible (fun h => h.remaining_lt) (hwf.apply _)

/-! ## One after the other -/

theorem exists_drawEach (settings : Settings) (format : Text) (results : List (Conversion × Path))
    (w : World) : ∃ faults w', drawEach settings format results w = .ok faults w' := by
  induction results generalizing w with
  | nil => exact ⟨[], w, rfl⟩
  | cons r results ih =>
    obtain ⟨result, w₁, hresult⟩ := exists_outcome (drawOne settings format r.1 r.2) w
    obtain ⟨others, w₂, hothers⟩ := ih w₁
    rw [drawEach, bind_of_ok hresult, bind_of_ok hothers]
    cases result with
    | ok u => exact ⟨_, _, rfl⟩
    | error fault => exact ⟨_, _, rfl⟩

/-- Drawing one after the other is one of the ways to the end. -/
theorem drawSteps_of_drawEach (hlimit : 0 < limit) {results : List (Conversion × Path)}
    {front : List Job} {w w' : World} {faults : List Fault}
    (hfront : ∀ j ∈ front, j.2.isEnded = true)
    (h : drawEach settings format results w = .ok faults w') :
    ∃ ended : List Job,
      DrawSteps settings format limit (w, front ++ results.map fun r => (r, .waiting))
        (w', front ++ ended) ∧
      (∀ j ∈ ended, j.2.isEnded = true) ∧ faultsIn ended = faults := by
  induction results generalizing front w faults with
  | nil =>
    obtain ⟨rfl, rfl⟩ := EStateM.Result.ok.inj h
    exact ⟨[], .refl, by simp, rfl⟩
  | cons r results ih =>
    rw [drawEach] at h
    obtain ⟨result, w₁, hresult, h⟩ := bind_eq_ok_iff.1 h
    obtain ⟨others, w₂, hothers, h⟩ := bind_eq_ok_iff.1 h
    obtain ⟨run, w₀, hrun⟩ := exists_startDrawing settings format r.1 w
    have hend : outcome (endDrawing r.1 r.2 run) w₀ = .ok result w₁ := by
      rw [← hresult, outcome_run, outcome_run, drawOne_eq, bind_of_ok hrun]
    -- nothing else is under way
    have hroom : runningIn (front ++ results.map fun r => (r, .waiting)) < limit := by
      have hnone : runningIn (front ++ results.map fun r => (r, .waiting)) = 0 := by
        refine runningIn_eq_zero fun j hj => ?_
        rcases List.mem_append.1 hj with hj | hj
        · exact Stage.isRunning_of_isEnded (hfront j hj)
        · obtain ⟨r', -, rfl⟩ := List.mem_map.1 hj
          rfl
      omega
    have hfront' : ∀ j ∈ front ++ [(r, .ended result)], j.2.isEnded = true := by
      intro j hj
      rcases List.mem_append.1 hj with hj | hj
      · exact hfront j hj
      · obtain rfl := List.mem_singleton.1 hj
        rfl
    have hlast : w₂ = w' := by
      cases result with
      | ok u => exact (EStateM.Result.ok.inj h).2
      | error fault => exact (EStateM.Result.ok.inj h).2
    subst hlast
    obtain ⟨ended, hsteps, hended, hfaults⟩ := ih hfront' hothers
    rw [List.append_assoc, List.append_assoc] at hsteps
    refine ⟨(r, .ended result) :: ended, ?_, ?_, ?_⟩
    · exact (hsteps.head (.finish hend)).head (.start hroom hrun)
    · simpa [Stage.isEnded] using hended
    · cases result with
      | ok u =>
        obtain ⟨rfl, -⟩ := EStateM.Result.ok.inj h
        simpa [faultsIn, Stage.fault?] using hfaults
      | error fault =>
        obtain ⟨rfl, -⟩ := EStateM.Result.ok.inj h
        simpa [faultsIn, Stage.fault?] using hfaults

end Steps

/-! ## The end of a batch -/

/-- What a batch with images does behind its drawings. -/
def Action.finishImages (settings : Settings) (directory : Path)
    (results : List (Conversion × Path)) (faults : List Fault) : Action (List Conversion) := do
  if results.isEmpty then
    report batchLogger .warning ("No " ++ settings.suffix ++ " sources found in " ++ directory.text)
    pure []
  else
    raiseFirst faults
    pure (results.map fun (conversion, path) => { conversion with imagePath := some path })

/-- Behind its drawings a batch reports, and raises the first fault. -/
theorem finishImages_run {results : List (Conversion × Path)} {faults : List Fault}
    (hnone : results = [] → faults = []) (settings : Settings) (directory : Path) (w : World) :
    ∃ lines, finishImages settings directory results faults w =
      match faults with
      | [] => .ok (results.map fun r => { r.1 with imagePath := some r.2 }) (w.warned lines)
      | fault :: _ => .error fault (w.warned lines) := by
  unfold finishImages
  cases results with
  | nil =>
    obtain ⟨lines, -, hreport⟩ := report_run batchLogger .warning
      ("No " ++ settings.suffix ++ " sources found in " ++ directory.text) w
    rw [hnone rfl]
    exact ⟨lines, bind_of_ok hreport _⟩
  | cons r results =>
    obtain ⟨lines, hraise⟩ := raiseFirst_run faults w
    cases faults with
    | nil => exact ⟨[], by rw [World.warned_nil]; exact bind_of_ok hraise _⟩
    | cons fault faults => exact ⟨lines, bind_of_error hraise _⟩

/-- An end of a batch with images, in whatever order the drawings that are prepared have ended. -/
def EndsAs (settings : Settings) (format : Text) (limit : Nat) (directory : Path)
    (results : List (Conversion × Path)) (w : World)
    (result : EStateM.Result Fault World (List Conversion)) : Prop :=
  ∃ w' jobs, DrawSteps settings format limit (w, results.map fun r => (r, .waiting)) (w', jobs) ∧
    (∀ j ∈ jobs, j.2.isEnded = true) ∧
    result = finishImages settings directory results (faultsIn jobs) w'

/-- A batch that may draw, or has nothing to draw, comes to one of the ends by drawing one image
after the other. -/
theorem endsAs_convertSources {settings : Settings} {format : Text} {limit : Nat}
    {directory : Path} {links : Links} {sources : List Path} {results : List (Conversion × Path)}
    {w w₁ : World} (hjobs : results ≠ [] → 0 < settings.maxJobs) (hlimit : 0 < limit)
    (h : prepare settings format links {} sources w = .ok results w₁) :
    EndsAs settings format limit directory results w₁
      (convertSources settings directory format true links sources w) := by
  obtain ⟨faults, w₂, hdraw⟩ := exists_drawEach settings format results w₁
  have hnone : ∀ j ∈ ([] : List Job), j.2.isEnded = true := by simp
  obtain ⟨jobs, hsteps, hended, rfl⟩ := drawSteps_of_drawEach hlimit hnone hdraw
  refine ⟨w₂, jobs, hsteps, hended, ?_⟩
  unfold convertSources finishImages
  rw [bind_of_ok h]
  cases results with
  | nil =>
    obtain ⟨-, rfl⟩ := EStateM.Result.ok.inj hdraw
    rfl
  | cons r results =>
    have hall : drawAll settings format (r :: results) w₁ = raiseFirst (faultsIn jobs) w₂ :=
      drawAll_run (hjobs (List.cons_ne_nil r results)) hdraw
    show (drawAll settings format (r :: results) >>= fun _ => _) w₁
      = (raiseFirst (faultsIn jobs) >>= fun _ => _) w₂
    rw [bind_run, bind_run, hall]

end CallDiagram
