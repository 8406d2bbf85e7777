import CallDiagram.Conversion.Batch
import CallDiagram.Proofs.Action.Running

/-!
# Actions that make no attempt to draw

Reading, writing and reporting leave the drawing program and the attempts to draw as they are,
whether or not they are stopped.

* `worldBehind`, `Leaves` — the world that a run leaves, `Leaves.bind`, `Leaves.outcome`;
* `World.SameDrawing`, `DrawsNothing` — worlds and actions;
* `DrawsNothing.bind`, `DrawsNothing.outcome` — actions made of others;
* `drawsNothing_prepare` — the first half of a batch.
-/

namespace CallDiagram

/-- Two worlds with one drawing program and the same attempts to draw. -/
structure World.SameDrawing (w w' : World) : Prop where
  renderer : w'.renderer = w.renderer
  attempts : w'.attempts = w.attempts

theorem World.SameDrawing.trans {w w' w'' : World} (h : w.SameDrawing w')
    (h' : w'.SameDrawing w'') : w.SameDrawing w'' :=
  ⟨h'.renderer.trans h.renderer, h'.attempts.trans h.attempts⟩

namespace Action

variable {α β : Type}

/-- The world that a run leaves. -/
def worldBehind : EStateM.Result Fault World α → World
  | .ok _ w => w
  | .error _ w => w

/-- Whether or not it is stopped, the action leaves a world that is related to the one before. -/
def Leaves (R : World → World → Prop) (x : Action α) : Prop := ∀ w, R w (worldBehind (x w))

namespace Leaves

variable (R : World → World → Prop)

theorem bind (htrans : ∀ w w' w'', R w w' → R w' w'' → R w w'') {x : Action α}
    {f : α → Action β} (hx : Leaves R x) (hf : ∀ a, Leaves R (f a)) : Leaves R (x >>= f) := by
  intro w
  have hfirst := hx w
  rw [bind_run]
  cases hrun : x w with
  | error e w' => rwa [hrun] at hfirst
  | ok a w' =>
    rw [hrun] at hfirst
    exact htrans _ _ _ hfirst (hf a w')

theorem outcome {x : Action α} (hx : Leaves R x) : Leaves R (outcome x) := by
  intro w
  have hrun := hx w
  rw [outcome_run]
  cases h : x w <;> rwa [h] at hrun

theorem ofExcept (hrefl : ∀ w, R w w) {ε : Type} (fault : ε → Fault) (x : Except ε α) :
    Leaves R (ofExcept fault x) := by
  cases x with
  | error e => exact hrefl
  | ok a => exact hrefl

end Leaves

/-- An action that makes no attempt to draw, whether or not it is stopped. -/
def DrawsNothing (x : Action α) : Prop :=
  ∀ w : World, w.SameDrawing (worldBehind (x w))

namespace DrawsNothing

theorem pure (a : α) : DrawsNothing (pure a) := fun _ => ⟨rfl, rfl⟩

theorem throw (e : Fault) : DrawsNothing (throw e : Action α) := fun _ => ⟨rfl, rfl⟩

theorem get : DrawsNothing get := fun _ => ⟨rfl, rfl⟩

theorem bind {x : Action α} {f : α → Action β} (hx : DrawsNothing x)
    (hf : ∀ a, DrawsNothing (f a)) : DrawsNothing (x >>= f) :=
  Leaves.bind World.SameDrawing (fun _ _ _ => World.SameDrawing.trans) hx hf

theorem outcome {x : Action α} (hx : DrawsNothing x) : DrawsNothing (outcome x) :=
  Leaves.outcome World.SameDrawing hx

theorem ofExcept {ε : Type} (fault : ε → Fault) (x : Except ε α) :
    DrawsNothing (ofExcept fault x) :=
  Leaves.ofExcept World.SameDrawing (fun _ => ⟨rfl, rfl⟩) fault x

theorem report (logger : Text) (level : Level) (content : Text) :
    DrawsNothing (report logger level content) := by
  intro w
  obtain ⟨lines, -, hrun⟩ := report_run logger level content w
  rw [hrun]
  exact ⟨rfl, rfl⟩

theorem readText (path : Text) : DrawsNothing (readText path) :=
  get.bind fun _ => (ofExcept _ _).bind fun _ => (ofExcept _ _).bind fun _ => pure _

theorem writeBytes (path : Text) (content : Bytes) : DrawsNothing (writeBytes path content) :=
  get.bind fun _ => (ofExcept _ _).bind fun _ => fun _ => ⟨rfl, rfl⟩

theorem diagramOfText (counter : Counter) (links : Links) (text : Text) :
    DrawsNothing (diagramOfText counter links text) :=
  ((ofExcept _ _).bind fun _ => (report _ _ _).bind fun _ => pure _).bind fun _ =>
    (ofExcept _ _).bind fun _ => pure _

theorem diagramOf (source : Path) (links : Links) (counter : Counter) :
    DrawsNothing (diagramOf source links counter) := by
  refine (readText _).bind fun text => (diagramOfText counter links text).outcome.bind ?_
  rintro (fault | result)
  · exact (report _ _ _).bind fun _ => throw fault
  · exact pure result

theorem prepareOne (settings : Settings) (format : Text) (links : Links) (source : Path)
    (counter : Counter) : DrawsNothing (prepareOne settings format links source counter) :=
  (diagramOf source links counter).bind fun _ => (ofExcept _ _).bind fun _ =>
    (ofExcept _ _).bind fun _ => (writeBytes _ _).bind fun _ => (ofExcept _ _).bind fun _ =>
      (report _ _ _).bind fun _ => pure _

/-- The diagrams of a batch are written without an attempt to draw. -/
theorem prepare (settings : Settings) (format : Text) (links : Links) (counter : Counter)
    (sources : List Path) : DrawsNothing (prepare settings format links counter sources) := by
  induction sources generalizing counter with
  | nil => exact pure _
  | cons source rest ih =>
    exact (prepareOne settings format links source counter).bind fun _ =>
      (ih _).bind fun _ => pure _

end DrawsNothing

end Action

end CallDiagram
