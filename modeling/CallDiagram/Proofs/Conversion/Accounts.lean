import CallDiagram.Proofs.Conversion.Alone
import CallDiagram.Proofs.Conversion.Indexed
import CallDiagram.Proofs.Files.Obstacles
import CallDiagram.Proofs.Json.Room

/-!
# Actions that account for their faults

Whatever stops an action, it has written whole lines to the error stream until then.  If it is
stopped by something that the program does not deal with, the cause can be found: an obstacle stands
in the files that are left, an index is too deep for the room there is, or the drawing program could
not be run to its end.

* `World.MoreLines` — a world with more whole lines on its error stream;
* `World.Explains` — a world in which the cause of a fault can be found;
* `Accountable` — actions, `Accountable.bind`, `Accountable.access`;
* `Accountable.drawAll` — the faults of drawings are told last, and their causes are still there;
* `Accountable.convertFile`, `Accountable.convertDirectory` — the conversions.
-/

namespace CallDiagram

/-- A world with more whole lines on its error stream, and with the same drawing program. -/
structure World.MoreLines (w w' : World) : Prop where
  errors : ∃ lines : Text, lines.IsWholeLines ∧ w'.errors = w.errors ++ lines
  renderer : w'.renderer = w.renderer

theorem World.MoreLines.of_errors {w w' : World} (h : w'.errors = w.errors)
    (hrenderer : w'.renderer = w.renderer) : w.MoreLines w' :=
  ⟨⟨[], Or.inl rfl, by rw [h, List.append_nil]⟩, hrenderer⟩

theorem World.MoreLines.refl (w : World) : w.MoreLines w := .of_errors rfl rfl

theorem World.MoreLines.trans (w w' w'' : World) (h : w.MoreLines w') (h' : w'.MoreLines w'') :
    w.MoreLines w'' := by
  obtain ⟨⟨lines, hlines, herrors⟩, hrenderer⟩ := h
  obtain ⟨⟨more, hmore, herrors'⟩, hrenderer'⟩ := h'
  exact ⟨⟨lines ++ more, hlines.append hmore, by rw [herrors', herrors, List.append_assoc]⟩,
    hrenderer'.trans hrenderer⟩

/-- Some run of the drawing program is not brought to its end, with this error. -/
def Renderer.Raises (renderer : Renderer) (e : ForeignError) : Prop :=
  ∃ respond launch limit command document, renderer = .present respond ∧
    respond launch limit command document = .failed e

theorem Renderer.raises_of_run {renderer : Renderer} {launch : Launch} {limit : Binary64}
    {command : List Text} {document : Text} {e : ForeignError}
    (h : (renderer.run launch limit command document).2 = .error (.foreign e)) :
    renderer.Raises e := by
  cases renderer with
  | missing => simp [run] at h
  | present respond =>
    refine ⟨respond, launch, limit, command, document, rfl, ?_⟩
    cases houtcome : respond launch limit command document with
    | timeout => simp [run, houtcome, Outcome.image] at h
    | exited status image complaint =>
      simp only [run, houtcome, Outcome.image] at h
      split at h <;> cases h
    | failed e' =>
      simp only [run, houtcome, Outcome.image, Except.error.injEq, RunFault.foreign.injEq] at h
      rw [h]

/-- The cause of a fault that may be left to whoever runs the program can be found in a world. -/
def World.Explains (room : Option Nat) (w : World) : Fault → Prop
  | .file e => w.files.Obstructs e
  | .rendering (.foreign e) => w.renderer.Raises e
  | .json (.tooDeep bracket) => ∃ text levels place, room = some levels ∧
      Json.crowdedFrom? levels 0 0 false text = some (place, bracket)
  | .environment _ => False
  | .noJobs => False
  | _ => True

/-- A world in which everything that stood in the way still does, with the same drawing program. -/
structure World.Keeps (w w' : World) : Prop where
  renderer : w'.renderer = w.renderer
  obstacles : ∀ e, w.files.Obstructs e → w'.files.Obstructs e

theorem World.Keeps.refl (w : World) : w.Keeps w := ⟨rfl, fun _ he => he⟩

theorem World.Keeps.trans (w w' w'' : World) (h : w.Keeps w') (h' : w'.Keeps w'') : w.Keeps w'' :=
  ⟨h'.renderer.trans h.renderer, fun e he => h'.obstacles e (h.obstacles e he)⟩

theorem World.Keeps.explains {room : Option Nat} {w w' : World} {fault : Fault} (h : w.Keeps w')
    (hfault : w.Explains room fault) : w'.Explains room fault := by
  unfold Explains at hfault ⊢
  split at hfault
  · exact h.obstacles _ hfault
  · simpa only [h.renderer] using hfault
  all_goals exact hfault

namespace Action

variable {α β : Type} {room : Option Nat}

/-- An action that writes whole lines to the error stream, and whose faults have their causes in the
world that it leaves. -/
structure Accountable (room : Option Nat) (x : Action α) : Prop where
  lines : Leaves World.MoreLines x
  cause : ∀ w fault w', x w = .error fault w' → w'.Explains room fault

/-- A fault of which the user is told wherever it is from. -/
def Plain (fault : Fault) : Prop := ∀ room w, World.Explains room w fault

namespace Accountable

/-! ## Simple actions -/

/-- An action whose faults need no cause. -/
theorem of_lines {x : Action α} (hlines : Leaves World.MoreLines x)
    (hplain : ∀ w fault w', x w = .error fault w' → Plain fault) : Accountable room x :=
  ⟨hlines, fun w fault w' h => hplain w fault w' h room w'⟩

theorem pure (a : α) : Accountable room (pure a) :=
  of_lines (fun _ => .refl _) (by simp)

theorem throw {fault : Fault} (h : Plain fault) : Accountable room (throw fault : Action α) :=
  of_lines (fun _ => .refl _) fun w fault' w' hrun => by
    obtain ⟨rfl, -⟩ := EStateM.Result.error.inj hrun
    exact h

theorem modify {f : World → World} (h : ∀ w, (f w).errors = w.errors)
    (hrenderer : ∀ w, (f w).renderer = w.renderer) : Accountable room (modify f) :=
  of_lines (fun w => .of_errors (h w) (hrenderer w)) fun w fault w' h => by cases h

theorem warn {text : Text} (h : text.IsWholeLines) : Accountable room (warn text) :=
  of_lines (fun _ => ⟨⟨text, h, rfl⟩, rfl⟩) (by simp)

theorem print (text : Text) : Accountable room (print text) :=
  of_lines (fun _ => .of_errors rfl rfl) (by simp)

theorem ofExcept {ε : Type} {fault : ε → Fault} (h : ∀ x, Plain (fault x)) (x : Except ε α) :
    Accountable room (ofExcept fault x) := by
  cases x with
  | error x => exact throw (h x)
  | ok a => exact pure a

theorem report (logger : Text) (level : Level) (content : Text) :
    Accountable room (report logger level content) := by
  refine of_lines (fun w => ?_) (fun w fault w' => ?_)
  · obtain ⟨lines, hlines, hrun⟩ := report_run logger level content w
    rw [hrun]
    exact ⟨⟨lines, hlines, rfl⟩, rfl⟩
  · obtain ⟨lines, -, hrun⟩ := report_run logger level content w
    simp [hrun]

/-! ## Sequences -/

theorem bind {x : Action α} {f : α → Action β} (hx : Accountable room x)
    (hf : ∀ a, Accountable room (f a)) : Accountable room (x >>= f) := by
  refine ⟨hx.lines.bind _ World.MoreLines.trans fun a => (hf a).lines, fun w fault w' h => ?_⟩
  rcases bind_eq_error_iff.1 h with h | ⟨a, w₁, -, h⟩
  · exact hx.cause w fault w' h
  · exact (hf a).cause w₁ fault w' h

/-- An access to files, and what is done behind it. -/
theorem access (tool : FileTree → Except FileError α) {f : α → Action β}
    (hx : ∀ t e, tool t = .error e → t.Obstructs e) (hf : ∀ a, Accountable room (f a)) :
    Accountable room (get >>= fun w => Action.ofExcept .file (tool w.files) >>= f) := by
  refine ⟨fun w => ?_, fun w fault w' h => ?_⟩
  · rw [get_bind_run]
    cases htool : tool w.files with
    | error e => exact .refl _
    | ok a => exact (hf a).lines w
  · rw [get_bind_run] at h
    rcases bind_eq_error_iff.1 h with h | ⟨a, w₁, -, h⟩
    · obtain ⟨⟨e, htool, rfl⟩, rfl⟩ := ofExcept_eq_error_iff.1 h
      exact hx _ _ htool
    · exact (hf a).cause w₁ fault w' h

/-- A fault that is looked at later is no fault of the action. -/
theorem outcome {x : Action α} (hx : Accountable room x) : Accountable room (outcome x) := by
  refine of_lines (hx.lines.outcome _) fun w fault w' h => ?_
  rw [outcome_run] at h
  cases hrun : x w <;> simp [hrun] at h

/-! ## Files -/

theorem plain_encoding (d : Utf8.Damage) : Plain (.encoding d) := fun _ _ => trivial

theorem plain_document (e : ParseError) : Plain (.document e) := fun _ _ => trivial

theorem plain_name (e : NameError) : Plain (.name e) := fun _ _ => trivial

theorem readText (path : Text) : Accountable room (readText path) :=
  access (fun t => t.read path) (fun _ _ => FileTree.obstructs_of_read) fun _ =>
    (ofExcept plain_encoding _).bind fun _ => pure _

theorem writeBytes (path : Text) (content : Bytes) : Accountable room (writeBytes path content) :=
  access (fun t => t.write path content) (fun _ _ => FileTree.obstructs_of_write) fun _ =>
    modify (fun _ => rfl) fun _ => rfl

theorem ensureDirectory (path : Path) : Accountable room (ensureDirectory path) := by
  have hrun : ∀ w : World, Action.ensureDirectory path w =
      Action.ofExcept .file (w.files.ensureDirectory path).1
        (w.holding (w.files.ensureDirectory path).2) := fun _ => rfl
  refine ⟨fun w => ?_, fun w fault w' h => ?_⟩
  · rw [hrun]
    cases (w.files.ensureDirectory path).1 <;> exact .of_errors rfl rfl
  · rw [hrun] at h
    obtain ⟨⟨e, hmade, rfl⟩, rfl⟩ := ofExcept_eq_error_iff.1 h
    exact FileTree.obstructs_of_ensureDirectory (Prod.ext hmade rfl)

/-- An index is refused for what is written in it, or it is too deep. -/
theorem readWithin (text : Text) :
    Accountable room (Action.ofExcept .json (Json.readWithin room text)) := by
  refine ⟨Leaves.ofExcept _ World.MoreLines.refl _ _, fun w fault w' h => ?_⟩
  obtain ⟨⟨e, hread, rfl⟩, rfl⟩ := ofExcept_eq_error_iff.1 h
  cases e with
  | refused r => trivial
  | tooDeep bracket =>
    obtain ⟨levels, place, hroom, hcrowded⟩ := Json.crowded_of_readWithin hread
    exact ⟨text, levels, place, hroom, hcrowded⟩

theorem loadIndexWithin (path : Text) : Accountable room (loadIndexWithin room path) := by
  refine (readText path).bind fun text => (readWithin text).bind fun value => ?_
  cases value with
  | object fields => exact pure _
  | _ => exact throw fun _ _ => trivial

theorem saveIndex (index : Links) (path : Path) : Accountable room (saveIndex index path) :=
  (ensureDirectory _).bind fun _ => writeBytes _ _

/-! ## Conversions -/

/-- What a document is not rendered for that the program does not deal with is an error that a run
has raised. -/
theorem explains_of_render {settings : Settings} {w : World} {launch : Launch}
    {requested source : Option Text} {document : Text} {e : RenderFault} {tried : List Attempt}
    (h : render settings w.renderer launch requested source document = (tried, .error e)) :
    w.Explains room (.rendering e) := by
  unfold render at h
  cases hcommand : settings.drawingAs ((Text.nonempty? requested).getD settings.format.name) with
  | error e' =>
    simp only [hcommand, Prod.mk.injEq, Except.error.injEq] at h
    obtain ⟨-, rfl⟩ := h
    trivial
  | ok command =>
    simp only [hcommand, Prod.mk.injEq] at h
    cases hrun : (w.renderer.run launch settings.timeout command document).2 with
    | ok image => simp [hrun, Except.mapError] at h
    | error fault =>
      rw [hrun] at h
      obtain ⟨-, h⟩ := h
      obtain rfl := Except.error.inj h
      cases fault with
      | failed failure => trivial
      | foreign e => exact Renderer.raises_of_run hrun

theorem draw (settings : Settings) (launch : Launch) (format source document : Text) :
    Accountable room (draw settings launch format source document) := by
  constructor
  · refine Leaves.bind _ World.MoreLines.trans (fun _ => .refl _) fun w => ?_
    refine Leaves.bind _ World.MoreLines.trans (fun _ => .of_errors rfl rfl) fun _ =>
      Leaves.bind _ World.MoreLines.trans (Leaves.ofExcept _ World.MoreLines.refl _ _) fun image => ?_
    split
    · exact ((report _ _ _).bind fun _ => pure _ : Accountable room _).lines
    · exact fun _ => .refl _
  · intro w fault w' h
    obtain ⟨lines, hrun⟩ := draw_run settings launch format source document w
    rw [hrun] at h
    cases hrender : render settings w.renderer launch (some format) (some source) document with
    | mk tried result =>
      rw [hrender] at h
      cases result with
      | ok image => cases h
      | error e =>
        obtain ⟨rfl, rfl⟩ := EStateM.Result.error.inj h
        exact explains_of_render (w := w) hrender

theorem parseDocument (counter : Counter) (links : Links) (text : Text) :
    Accountable room (parseDocument counter links text) :=
  (ofExcept plain_document _).bind fun _ => (report _ _ _).bind fun _ => pure _

theorem diagramOfText (counter : Counter) (links : Links) (text : Text) :
    Accountable room (diagramOfText counter links text) :=
  (parseDocument counter links text).bind fun _ => (ofExcept plain_document _).bind fun _ => pure _

theorem diagramOf (source : Path) (links : Links) (counter : Counter) :
    Accountable room (diagramOf source links counter) := by
  constructor
  · refine (readText _ : Accountable room _).lines.bind _ World.MoreLines.trans fun text =>
      (diagramOfText counter links text : Accountable room _).outcome.lines.bind _
        World.MoreLines.trans ?_
    rintro (fault | result)
    · exact (report _ _ _ : Accountable room _).lines.bind _ World.MoreLines.trans fun _ => fun _ =>
        .refl _
    · exact (pure result : Accountable room _).lines
  · intro w fault w' h
    -- a document is refused for what is in it
    cases hread : Action.readText source.text w with
    | error fault' w₁ =>
      have hrun : Action.diagramOf source links counter w = .error fault' w₁ :=
        bind_of_error hread _
      obtain ⟨rfl, rfl⟩ := EStateM.Result.error.inj (hrun.symm.trans h)
      exact (readText source.text).cause w fault' w₁ hread
    | ok text w₁ =>
      obtain rfl := (readText_eq_ok_iff.1 hread).1
      obtain ⟨lines, -, hrun⟩ := diagramOf_run hread links counter
      rw [hrun] at h
      cases hdrawing : drawing counter links text with
      | ok diagram => simp [hdrawing] at h
      | error e =>
        rw [hdrawing] at h
        obtain ⟨rfl, rfl⟩ := EStateM.Result.error.inj h
        trivial

theorem convertFile (settings : Settings) (source : Path) (requested : Option Text)
    (output : Option Path) (links : Links) :
    Accountable room (convertFile settings source requested output links) := by
  refine (ofExcept plain_name _).bind fun stem => (diagramOf _ _ _).bind fun _ =>
    (ofExcept plain_name _).bind fun _ => (writeBytes _ _).bind fun _ => ?_
  cases output with
  | some path =>
    exact (pure path).bind fun _ => (draw _ _ _ _ _).bind fun _ => (writeBytes _ _).bind fun _ =>
      (report _ _ _).bind fun _ => pure _
  | none =>
    exact (ofExcept plain_name _).bind fun _ => (draw _ _ _ _ _).bind fun _ =>
      (writeBytes _ _).bind fun _ => (report _ _ _).bind fun _ => pure _

theorem prepareOne (settings : Settings) (format : Text) (links : Links) (source : Path)
    (counter : Counter) : Accountable room (prepareOne settings format links source counter) :=
  (diagramOf source links counter).bind fun _ => (ofExcept plain_name _).bind fun _ =>
    (ofExcept plain_name _).bind fun _ => (writeBytes _ _).bind fun _ =>
      (ofExcept plain_name _).bind fun _ => (report _ _ _).bind fun _ => pure _

theorem prepare (settings : Settings) (format : Text) (links : Links) (counter : Counter)
    (sources : List Path) : Accountable room (prepare settings format links counter sources) := by
  induction sources generalizing counter with
  | nil => exact pure _
  | cons source rest ih =>
    exact (prepareOne settings format links source counter).bind fun _ =>
      (ih _).bind fun _ => pure _

theorem drawOne (settings : Settings) (format : Text) (c : Conversion) (imagePath : Path) :
    Accountable room (drawOne settings format c imagePath) :=
  (draw _ _ _ _ _).bind fun _ => (writeBytes _ _).bind fun _ => report _ _ _

theorem drawEach (settings : Settings) (format : Text) (results : List (Conversion × Path)) :
    Accountable room (drawEach settings format results) := by
  induction results with
  | nil => exact pure _
  | cons r results ih =>
    refine (drawOne settings format r.1 r.2).outcome.bind fun result => ih.bind fun others => ?_
    cases result <;> exact pure _

end Accountable

/-! ## Faults that are told last -/

section Keeps

theorem leaves_keeps_report (logger : Text) (level : Level) (content : Text) :
    Leaves World.Keeps (report logger level content) := by
  intro w
  obtain ⟨lines, -, hrun⟩ := report_run logger level content w
  rw [hrun]
  exact ⟨rfl, fun _ he => he⟩

theorem leaves_keeps_writeBytes (path : Text) (content : Bytes) :
    Leaves World.Keeps (writeBytes path content) := by
  intro w
  cases hwrite : w.files.write path content with
  | error e' =>
    rw [writeBytes_of_error hwrite]
    exact .refl w
  | ok files =>
    rw [writeBytes_eq_ok_iff.2 ⟨files, hwrite, rfl⟩]
    exact ⟨rfl, fun e he => (FileTree.grown_of_write hwrite).obstructs he⟩

theorem leaves_keeps_draw (settings : Settings) (launch : Launch)
    (format source document : Text) :
    Leaves World.Keeps (draw settings launch format source document) := by
  refine Leaves.bind _ World.Keeps.trans World.Keeps.refl fun w => ?_
  rcases render settings w.renderer launch (some format) (some source) document with
    ⟨tried, result⟩
  refine Leaves.bind _ World.Keeps.trans (fun _ => ⟨rfl, fun _ he => he⟩) fun _ =>
    Leaves.bind _ World.Keeps.trans
      (Leaves.ofExcept _ World.Keeps.refl .rendering result) fun image => ?_
  split
  · exact (leaves_keeps_report _ _ _).bind _ World.Keeps.trans fun _ => World.Keeps.refl
  · exact World.Keeps.refl

/-- The image of a conversion changes nothing of what stands in the way. -/
theorem leaves_keeps_drawOne (settings : Settings) (format : Text) (c : Conversion)
    (imagePath : Path) : Leaves World.Keeps (drawOne settings format c imagePath) :=
  (leaves_keeps_draw _ _ _ _ _).bind _ World.Keeps.trans fun _ =>
    (leaves_keeps_writeBytes _ _).bind _ World.Keeps.trans fun _ => leaves_keeps_report _ _ _

/-- When the drawings are done, the cause of what has spoiled one of them is still there. -/
theorem explains_of_drawEach {settings : Settings} {format : Text}
    {results : List (Conversion × Path)} {w w' : World} {faults : List Fault} {fault : Fault}
    (h : drawEach settings format results w = .ok faults w')
    (hfault : w.Explains room fault ∨ fault ∈ faults) : w'.Explains room fault := by
  induction results generalizing w faults with
  | nil =>
    obtain ⟨rfl, rfl⟩ := EStateM.Result.ok.inj h
    simpa using hfault
  | cons r results ih =>
    obtain ⟨result, w₁, hone, hrest⟩ := bind_eq_ok_iff.1 h
    obtain ⟨others, w₂, hothers, hend⟩ := bind_eq_ok_iff.1 hrest
    have hkept := leaves_keeps_drawOne settings format r.1 r.2 w
    rw [outcome_run] at hone
    cases hrun : drawOne settings format r.1 r.2 w with
    | ok u w₀ =>
      rw [hrun] at hone hkept
      obtain ⟨rfl, rfl⟩ := EStateM.Result.ok.inj hone
      obtain ⟨rfl, rfl⟩ := EStateM.Result.ok.inj hend
      exact ih hothers (hfault.imp_left hkept.explains)
    | error fault' w₀ =>
      rw [hrun] at hone hkept
      obtain ⟨rfl, rfl⟩ := EStateM.Result.ok.inj hone
      obtain ⟨rfl, rfl⟩ := EStateM.Result.ok.inj hend
      apply ih hothers
      rcases hfault with hfault | hfault
      · exact Or.inl (hkept.explains hfault)
      · rcases List.mem_cons.1 hfault with rfl | hfault
        · exact Or.inl ((Accountable.drawOne settings format r.1 r.2).cause w fault w₀ hrun)
        · exact Or.inr hfault

end Keeps

namespace Accountable

/-- The faults of drawings are reported, and the first of them is raised. -/
theorem leaves_raiseFirst (faults : List Fault) : Leaves World.MoreLines (raiseFirst faults) := by
  have hreports : Leaves World.MoreLines
      (faults.forM fun fault => Action.report batchLogger .error fault.message) := by
    induction faults with
    | nil => exact World.MoreLines.refl
    | cons fault faults ih =>
      exact (report _ _ _ : Accountable none _).lines.bind _ World.MoreLines.trans fun _ => ih
  refine hreports.bind _ World.MoreLines.trans fun _ => ?_
  cases faults <;> exact World.MoreLines.refl

/-- The first fault of the drawings is told when all of them are done. -/
theorem drawAll {settings : Settings} (hjobs : 0 < settings.maxJobs) (format : Text)
    (results : List (Conversion × Path)) : Accountable room (drawAll settings format results) := by
  have hrequired : ∀ w, requireJobs settings w = .ok () w := fun w =>
    requireJobs_eq_ok_iff.2 ⟨hjobs, rfl⟩
  constructor
  · intro w
    rw [Action.drawAll, bind_of_ok (hrequired w)]
    exact (drawEach _ _ _ : Accountable room _).lines.bind _ World.MoreLines.trans
      (fun faults => leaves_raiseFirst faults) w
  · intro w fault w' h
    obtain ⟨faults, w₁, hdrawn⟩ := exists_drawEach settings format results w
    rw [drawAll_run hjobs hdrawn] at h
    obtain ⟨lines, hraise⟩ := raiseFirst_run faults w₁
    rw [hraise] at h
    cases faults with
    | nil => cases h
    | cons first faults =>
      obtain ⟨rfl, rfl⟩ := EStateM.Result.error.inj h
      have hcause : w₁.Explains room first :=
        explains_of_drawEach hdrawn (Or.inr List.mem_cons_self)
      exact World.Keeps.explains ⟨rfl, fun _ he => he⟩ hcause

variable {settings : Settings} (hjobs : 0 < settings.maxJobs)

include hjobs

theorem convertSources (directory : Path) (format : Text) (images : Bool)
    (links : Links) (sources : List Path) :
    Accountable room (convertSources settings directory format images links sources) := by
  refine (prepare settings format links {} sources).bind fun results => ?_
  split
  · exact (report _ _ _).bind fun _ => pure _
  · split
    · exact (drawAll hjobs _ _).bind fun _ => pure _
    · exact pure _

theorem convertDirectory (directory : Path) (requested : Option Text)
    (images : Bool) (index : Option Path) :
    Accountable room (convertDirectory settings directory requested images index) := by
  rw [convertDirectory_eq]
  refine bind ?found fun links => bind ?saved fun _ => ?sources
  case found =>
    cases images with
    | true =>
      have hfound : Accountable room _ := access (fun t => t.index directory
        ((Text.nonempty? requested).getD settings.format.name) settings.suffix)
        (fun _ _ => FileTree.obstructs_of_index) pure
      simp only [bind_pure] at hfound
      exact hfound
    | false => exact pure []
  case saved =>
    cases index with
    | none => exact pure ()
    | some path => exact (saveIndex links path).bind fun _ => report _ _ _
  case sources =>
    exact access (fun t => t.sources directory settings.suffix)
      (fun _ _ => FileTree.obstructs_of_sources) fun _ => convertSources hjobs _ _ _ _ _

end Accountable

end Action

end CallDiagram
