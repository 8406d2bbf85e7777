import CallDiagram.Proofs.Action.Attempts
import CallDiagram.Proofs.Conversion.Interleaving

/-!
# Drawings under way

A drawing changes its own image only, and what becomes of that is decided in front of the first of
them, whenever its run starts and ends.

* `imageFault?` — what spoils an image;
* `Apart` — images with a place for each;
* `Fits`, `Underway` — what holds of the drawings at any time;
* `Underway.step`, `underway_of_drawSteps` — one step, and any number of them;
* `Drawn`, `Underway.drawn` — what is left when all of them are done.
-/

namespace CallDiagram

open CallDiagram.Action

/-! ## One image -/

/-- What spoils the image of a conversion: a run that fails, or a path that takes no file. -/
def imageFault? (settings : Settings) (f : Format) (w : World) (r : Conversion × Path) :
    Option Fault :=
  match w.renderer.drawn settings f r.1.diagram with
  | .error fault => some (.rendering (fault.forSource (some r.1.source.text)))
  | .ok _ => (w.files.refusal? r.2.text).map .file

/-- Images that stand in one directory, each in a place of its own. -/
structure Apart (directory : Path) (results : List (Conversion × Path)) : Prop where
  child : ∀ r ∈ results, r.2 = directory.child r.2.name
  entry : ∀ r ∈ results, FileTree.IsEntryName r.2.name
  nodup : (results.map fun r => r.2.name).Nodup

/-- The images of different sources are apart. -/
theorem apart_of_beside {directory : Path} {suffix format : Text} {f : Format}
    {results : List (Conversion × Path)} (hread : Format.read format = .ok f)
    (hbeside : ∀ r ∈ results, ∃ front, Beside directory suffix format front r)
    (hnodup : (results.map fun r => r.1.source).Nodup) : Apart directory results := by
  refine ⟨?child, ?entry, ?nodup⟩
  case child =>
    intro r hr
    obtain ⟨front, h⟩ := hbeside r hr
    rw [h.image, Path.name_child]
  case entry =>
    intro r hr
    obtain ⟨front, h⟩ := hbeside r hr
    rw [h.image, Path.name_child]
    exact isEntryName_image h.entry h.named hread
  case nodup =>
    refine List.Nodup.map_on ?_ ?_
    · intro r hr r' hr' heq
      obtain ⟨front, h⟩ := hbeside r hr
      obtain ⟨front', h'⟩ := hbeside r' hr'
      rw [h.image, h'.image, Path.name_child, Path.name_child] at heq
      have hsource : r.1.source = r'.1.source := by
        rw [h.source, h'.source, List.append_cancel_right heq]
      exact List.inj_on_of_nodup_map hnodup hr hr' hsource
    · exact hnodup.of_map

/-! ## Drawings under way -/

/-- Whether a drawing has got as far as to its run. -/
def Stage.isStarted : Stage → Bool
  | .waiting => false
  | _ => true

/-- Whether a drawing has left an image. -/
def Stage.isWritten : Stage → Bool
  | .ended (.ok _) => true
  | _ => false

section Steps

variable {settings : Settings} {format : Text} {f : Format} {limit : Nat} {directory : Path}
  {a : Address} {results : List (Conversion × Path)} {w : World}

/-- A stage that a drawing can be in, given the world in front of the first of them and the files
now. -/
def Fits (settings : Settings) (f : Format) (w : World) (files : FileTree)
    (r : Conversion × Path) : Stage → Prop
  | .waiting => True
  | .running result => result = (w.renderer.drawn settings f r.1.diagram).mapError
      (RunFault.forSource (some r.1.source.text))
  | .ended (.ok _) => imageFault? settings f w r = none ∧
      ∃ image, w.renderer.drawn settings f r.1.diagram = .ok image ∧
        files.read r.2.text = .ok image
  | .ended (.error fault) => imageFault? settings f w r = some fault

theorem Fits.of_read {files files' : FileTree} {r : Conversion × Path} {stage : Stage}
    (h : Fits settings f w files r stage) (hread : files'.read r.2.text = files.read r.2.text) :
    Fits settings f w files' r stage := by
  match stage with
  | .waiting => trivial
  | .running result => exact h
  | .ended (.error fault) => exact h
  | .ended (.ok u) =>
    obtain ⟨hnone, image, hdrawn, himage⟩ := h
    exact ⟨hnone, image, hdrawn, hread.trans himage⟩

/-- The attempts of the drawings that have been started. -/
def triedIn (settings : Settings) (f : Format) (renderer : Renderer) (jobs : List Job) :
    List Attempt :=
  (jobs.filter fun j => j.2.isStarted).map fun j => renderer.attempt settings f j.1.1.diagram

/-- Where the images stand that have been written. -/
def writtenIn (a : Address) (jobs : List Job) : List Address :=
  (jobs.filter fun j => j.2.isWritten).map fun j => a ++ [j.1.2.name]

theorem triedIn_middle (renderer : Renderer) (front back : List Job) (r : Conversion × Path)
    (stage : Stage) :
    triedIn settings f renderer (front ++ (r, stage) :: back) = triedIn settings f renderer front ++
      ((if stage.isStarted then [renderer.attempt settings f r.1.diagram] else []) ++
        triedIn settings f renderer back) := by
  cases hstage : stage.isStarted <;> simp [triedIn, hstage]

theorem writtenIn_middle (a : Address) (front back : List Job) (r : Conversion × Path)
    (stage : Stage) :
    writtenIn a (front ++ (r, stage) :: back) = writtenIn a front ++
      ((if stage.isWritten then [a ++ [r.2.name]] else []) ++ writtenIn a back) := by
  cases hstage : stage.isWritten <;> simp [writtenIn, hstage]

/-- What holds of the drawings of a batch at any time: each has been tried once if it has been
started, and nothing is changed but the images that are written. -/
structure Underway (settings : Settings) (f : Format) (a : Address)
    (results : List (Conversion × Path)) (w : World) (s : World × List Job) : Prop where
  jobs : s.2.map Prod.fst = results
  renderer : s.1.renderer = w.renderer
  attempts : ∃ tried, s.1.attempts = w.attempts ++ tried ∧
    tried.Perm (triedIn settings f w.renderer s.2)
  changed : FileTree.ChangedAt w.files s.1.files (writtenIn a s.2)
  fits : ∀ j ∈ s.2, Fits settings f w s.1.files j.1 j.2

/-- What holds of a list with another item in one place. -/
theorem forall_mem_middle {α : Type} {P Q : α → Prop} {front back : List α} {x y : α}
    (h : ∀ z ∈ front ++ x :: back, P z) (hsame : ∀ z ∈ front ++ back, P z → Q z) (hy : Q y) :
    ∀ z ∈ front ++ y :: back, Q z := by
  intro z hz
  rcases List.mem_append.1 hz with hz | hz
  · exact hsame z (List.mem_append_left _ hz) (h z (List.mem_append_left _ hz))
  · rcases List.mem_cons.1 hz with rfl | hz
    · exact hy
    · refine hsame z (List.mem_append_right _ hz) (h z ?_)
      exact List.mem_append_right _ (List.mem_cons_of_mem _ hz)

/-- Before the first drawing. -/
theorem underway_waiting (settings : Settings) (f : Format) (a : Address)
    (results : List (Conversion × Path)) (w : World) :
    Underway settings f a results w (w, results.map fun r => (r, .waiting)) := by
  have hnone : ∀ p : Job → Bool, (∀ r, p (r, .waiting) = false) →
      (results.map fun r => (r, Stage.waiting)).filter p = [] := by
    intro p hp
    refine List.filter_eq_nil_iff.2 fun j hj => ?_
    obtain ⟨r, -, rfl⟩ := List.mem_map.1 hj
    simp [hp r]
  refine ⟨?_, rfl, ⟨[], by simp, ?_⟩, ?_, ?_⟩
  · simp [Function.comp_def]
  · rw [triedIn, hnone _ fun r => rfl]
    exact List.Perm.refl _
  · rw [writtenIn, hnone _ fun r => rfl]
    exact FileTree.ChangedAt.refl _
  · intro j hj
    obtain ⟨r, -, rfl⟩ := List.mem_map.1 hj
    trivial

/-- A run that starts adds an attempt. -/
theorem Underway.start (hread : Format.read format = .ok f) {v v' : World} {front back : List Job}
    {r : Conversion × Path} {result : Except RenderFault Bytes}
    (h : Underway settings f a results w (v, front ++ (r, .waiting) :: back))
    (run : startDrawing settings format r.1 v = .ok result v') :
    Underway settings f a results w (v', front ++ (r, .running result) :: back) := by
  rw [startDrawing_run hread] at run
  obtain ⟨rfl, rfl⟩ := EStateM.Result.ok.inj run
  have hrenderer : v.renderer = w.renderer := h.renderer
  refine ⟨by simpa using h.jobs, hrenderer, ?attempts, ?changed, ?fits⟩
  case attempts =>
    obtain ⟨tried, htried, hperm⟩ := h.attempts
    refine ⟨tried ++ [w.renderer.attempt settings f r.1.diagram], ?_, ?_⟩
    · show v.attempts ++ [v.renderer.attempt settings f r.1.diagram] = _
      rw [hrenderer, show v.attempts = w.attempts ++ tried from htried, List.append_assoc]
    · rw [triedIn_middle] at hperm ⊢
      refine (hperm.append_right _).trans ?_
      rw [List.append_assoc]
      exact List.perm_append_comm.append_left _
  case changed =>
    have hchanged := h.changed
    rw [writtenIn_middle] at hchanged ⊢
    exact hchanged
  case fits =>
    apply forall_mem_middle h.fits (fun j _ hj => hj)
    rw [hrenderer]
    rfl

/-- A run that ends leaves its image, or nothing. -/
theorem endDrawing_cases {v v' : World} {r : Conversion × Path}
    {result : Except RenderFault Bytes} {ending : Except Fault Unit}
    (hresult : Fits settings f w v.files r (.running result))
    (hrefusal : v.files.refusal? r.2.text = w.files.refusal? r.2.text)
    (run : outcome (endDrawing r.1 r.2 result) v = .ok ending v') :
    v.SameDrawing v' ∧
      ((∃ image, w.renderer.drawn settings f r.1.diagram = .ok image ∧
          imageFault? settings f w r = none ∧ ending = .ok () ∧
            v.files.write r.2.text image = .ok v'.files) ∨
        ∃ fault, imageFault? settings f w r = some fault ∧ ending = .error fault ∧
          v'.files = v.files) := by
  have hresult : result = (w.renderer.drawn settings f r.1.diagram).mapError
      (RunFault.forSource (some r.1.source.text)) := hresult
  rw [outcome_run] at run
  unfold imageFault?
  cases hdrawn : w.renderer.drawn settings f r.1.diagram with
  | error failure =>
    rw [hdrawn] at hresult
    obtain rfl := hresult
    obtain ⟨rfl, rfl⟩ := EStateM.Result.ok.inj run
    exact ⟨⟨rfl, rfl⟩, Or.inr ⟨_, rfl, rfl, rfl⟩⟩
  | ok image =>
    obtain rfl : result = .ok image := by rw [hresult, hdrawn]; rfl
    obtain ⟨lines, hend⟩ := endDrawing_run r.1 r.2 image v
    cases hwrite : v.files.write r.2.text image with
    | error e =>
      have hfull := hrefusal.symm.trans (FileTree.write_eq_error_iff.1 hwrite)
      rw [hwrite] at hend
      rw [hend] at run
      obtain ⟨rfl, rfl⟩ := EStateM.Result.ok.inj run
      exact ⟨⟨rfl, rfl⟩, Or.inr ⟨.file e, by simp [hfull], rfl, rfl⟩⟩
    | ok files =>
      have hfree := hrefusal.symm.trans (FileTree.exists_write_iff.1 ⟨files, hwrite⟩)
      rw [hwrite] at hend
      rw [hend] at run
      obtain ⟨rfl, rfl⟩ := EStateM.Result.ok.inj run
      exact ⟨⟨rfl, rfl⟩, Or.inl ⟨image, rfl, by simp [hfree], rfl, hwrite⟩⟩

/-- A run that ends changes its image, or nothing. -/
theorem Underway.finish (hplace : IsPlace w.files directory a) (hapart : Apart directory results)
    {v v' : World} {front back : List Job} {r : Conversion × Path}
    {result : Except RenderFault Bytes} {ending : Except Fault Unit}
    (h : Underway settings f a results w (v, front ++ (r, .running result) :: back))
    (run : outcome (endDrawing r.1 r.2 result) v = .ok ending v') :
    Underway settings f a results w (v', front ++ (r, .ended ending) :: back) := by
  have hjobs : (front ++ (r, .ended ending) :: back).map Prod.fst = results := by
    simpa using h.jobs
  have hmem : r ∈ results := by
    rw [← hjobs]
    simp
  have hchanged := h.changed
  have hplace' : IsPlace v.files directory a := hplace.of_changed hchanged
  have hrefusal : v.files.refusal? r.2.text = w.files.refusal? r.2.text := by
    rw [hapart.child r hmem]
    exact hplace.refusal?_of_changed hchanged (hapart.entry r hmem)
  obtain ⟨hsame, hend⟩ := endDrawing_cases (h.fits (r, .running result) (by simp)) hrefusal run
  have hattempts : ∃ tried, v'.attempts = w.attempts ++ tried ∧
      tried.Perm (triedIn settings f w.renderer (front ++ (r, .ended ending) :: back)) := by
    obtain ⟨tried, htried, hperm⟩ := h.attempts
    refine ⟨tried, hsame.attempts.trans htried, ?_⟩
    rw [triedIn_middle] at hperm ⊢
    exact hperm
  have hothers : ∀ j ∈ front ++ back, j.1 ∈ results ∧ j.1.2.name ≠ r.2.name := by
    intro j hj
    have hnames := hapart.nodup
    rw [← hjobs, List.map_map, List.map_append, List.map_cons, List.nodup_middle,
      List.nodup_cons, ← List.map_append] at hnames
    refine ⟨?_, fun heq => hnames.1 (List.mem_map.2 ⟨j, hj, heq⟩)⟩
    rw [← hjobs]
    apply List.mem_map_of_mem
    simp only [List.mem_append, List.mem_cons] at hj ⊢
    tauto
  refine ⟨hjobs, hsame.renderer.trans h.renderer, hattempts, ?changed, ?fits⟩
  case changed =>
    rw [writtenIn_middle] at hchanged ⊢
    obtain ⟨image, -, -, rfl, hwrite⟩ | ⟨fault, -, rfl, hfiles⟩ := hend
    · rw [hapart.child r hmem] at hwrite
      have hlast := (hplace'.changedAt_of_write (hapart.entry r hmem) hwrite).2
      refine (hchanged.trans hlast).mono fun b hb => ?_
      simp [Stage.isWritten] at hb ⊢
      tauto
    · show FileTree.ChangedAt w.files v'.files _
      rw [hfiles]
      exact hchanged
  case fits =>
    obtain ⟨image, hdrawn, hnone, rfl, hwrite⟩ | ⟨fault, hfault, rfl, hfiles⟩ := hend
    · refine forall_mem_middle h.fits (fun j hj hfits => ?_)
        ⟨hnone, image, hdrawn, FileTree.read_of_write hwrite⟩
      -- the other images stand elsewhere
      obtain ⟨hj', hne⟩ := hothers j hj
      rw [hapart.child r hmem] at hwrite
      have hlast := (hplace'.changedAt_of_write (hapart.entry r hmem) hwrite).2
      have hread : v'.files.read j.1.2.text = v.files.read j.1.2.text := by
        rw [hapart.child j.1 hj']
        exact hplace'.read_of_changed hlast (hapart.entry j.1 hj') (by simpa using hne)
      exact hfits.of_read hread
    · refine forall_mem_middle h.fits (fun j hj hfits => ?_) hfault
      show Fits settings f w v'.files j.1 j.2
      rw [hfiles]
      exact hfits

theorem Underway.step (hread : Format.read format = .ok f)
    (hplace : IsPlace w.files directory a) (hapart : Apart directory results)
    {s s' : World × List Job} (h : Underway settings f a results w s)
    (hstep : DrawStep settings format limit s s') : Underway settings f a results w s' := by
  cases hstep with
  | start room run => exact h.start hread run
  | finish run => exact h.finish hplace hapart run

/-- What holds of the drawings holds after any number of steps. -/
theorem underway_of_drawSteps (hread : Format.read format = .ok f)
    (hplace : IsPlace w.files directory a) (hapart : Apart directory results)
    {s : World × List Job}
    (hsteps : DrawSteps settings format limit (w, results.map fun r => (r, .waiting)) s) :
    Underway settings f a results w s := by
  induction hsteps with
  | refl => exact underway_waiting settings f a results w
  | tail _ hstep ih => exact ih.step hread hplace hapart hstep

/-! ## The end of the drawings -/

/-- A drawing that is done has left an image, or a fault. -/
theorem Fits.of_ended {files : FileTree} {r : Conversion × Path} {stage : Stage}
    (h : Fits settings f w files r stage) (hended : stage.isEnded = true) :
    stage.isStarted = true ∧ stage.fault? = imageFault? settings f w r ∧
      stage.isWritten = (imageFault? settings f w r).isNone := by
  match stage with
  | .ended (.ok u) =>
    have hnone : imageFault? settings f w r = none := h.1
    simp [Stage.isStarted, Stage.fault?, Stage.isWritten, hnone]
  | .ended (.error fault) =>
    have hsome : imageFault? settings f w r = some fault := h
    simp [Stage.isStarted, Stage.fault?, Stage.isWritten, hsome]

/-- What the drawings have left when all of them are done. -/
structure Drawn (settings : Settings) (f : Format) (a : Address)
    (results : List (Conversion × Path)) (w w' : World) : Prop where
  attempts : ∃ tried, w'.attempts = w.attempts ++ tried ∧
    tried.Perm (results.map fun r => w.renderer.attempt settings f r.1.diagram)
  changed : FileTree.ChangedAt w.files w'.files
    ((results.filter fun r => (imageFault? settings f w r).isNone).map fun r => a ++ [r.2.name])
  written : ∀ r ∈ results, imageFault? settings f w r = none →
    ∃ image, w.renderer.drawn settings f r.1.diagram = .ok image ∧
      w'.files.read r.2.text = .ok image

/-- When all drawings are done, each has left what its run has come to. -/
theorem Underway.drawn {w' : World} {jobs : List Job}
    (h : Underway settings f a results w (w', jobs)) (hended : ∀ j ∈ jobs, j.2.isEnded = true) :
    Drawn settings f a results w w' ∧
      faultsIn jobs = results.filterMap (imageFault? settings f w) := by
  have hjobs : jobs.map Prod.fst = results := h.jobs
  have hstages : ∀ j ∈ jobs, j.2.isStarted = true ∧ j.2.fault? = imageFault? settings f w j.1 ∧
      j.2.isWritten = (imageFault? settings f w j.1).isNone := fun j hj =>
    (h.fits j hj).of_ended (hended j hj)
  refine ⟨⟨?attempts, ?changed, ?written⟩, ?faults⟩
  case attempts =>
    obtain ⟨tried, htried, hperm⟩ := h.attempts
    refine ⟨tried, htried, ?_⟩
    have hall : jobs.filter (fun j => j.2.isStarted) = jobs :=
      List.filter_eq_self.2 fun j hj => (hstages j hj).1
    rw [triedIn, hall] at hperm
    rw [← hjobs, List.map_map]
    exact hperm
  case changed =>
    have hwritten : writtenIn a jobs
        = (results.filter fun r => (imageFault? settings f w r).isNone).map
          fun r => a ++ [r.2.name] := by
      rw [← hjobs, List.filter_map, List.map_map, writtenIn]
      refine congrArg _ (List.filter_congr fun j hj => ?_)
      exact (hstages j hj).2.2
    exact hwritten ▸ h.changed
  case written =>
    intro r hr hnone
    obtain ⟨⟨r', stage⟩, hj, rfl⟩ := List.mem_map.1 (hjobs ▸ hr)
    have hfits := h.fits _ hj
    have hstage := (hstages _ hj).2.2
    rw [hnone] at hstage
    match stage with
    | .ended (.ok u) => exact hfits.2
    | .ended (.error fault) => simp [Stage.isWritten] at hstage
    | .running result => simp [Stage.isWritten] at hstage
    | .waiting => simp [Stage.isWritten] at hstage
  case faults =>
    rw [← hjobs, List.filterMap_map, faultsIn]
    exact List.filterMap_congr fun j hj => (hstages j hj).2.1

end Steps

end CallDiagram
