import CallDiagram.Action.Basic
import CallDiagram.Proofs.Files.Access

/-!
# Running actions

What an action has done to a world when it ends.

* `bind_eq_ok_iff` — a sequence of actions ends well if each of them does;
* `World.warned`, `World.printed`, `World.holding`, `World.tried` — a world with more on one of its
  streams, with other files, or with more attempts to draw;
* `report_run` — a report writes lines, or nothing;
* `FileTree.text`, `readText_run`, `writeText_eq_ok_iff` — text files.
-/

namespace CallDiagram

/-! ## Worlds -/

namespace World

/-- A world with more on its error stream. -/
def warned (w : World) (text : Text) : World := { w with errors := w.errors ++ text }

/-- A world with more on its output stream. -/
def printed (w : World) (text : Text) : World := { w with output := w.output ++ text }

/-- A world with other files. -/
def holding (w : World) (files : FileTree) : World := { w with files }

/-- A world with more attempts to draw. -/
def tried (w : World) (attempts : List Attempt) : World :=
  { w with attempts := w.attempts ++ attempts }

section Fields

variable (w : World) (text more : Text) (files : FileTree)

@[simp] theorem files_warned : (w.warned text).files = w.files := rfl

@[simp] theorem log_warned : (w.warned text).log = w.log := rfl

@[simp] theorem output_warned : (w.warned text).output = w.output := rfl

@[simp] theorem errors_warned : (w.warned text).errors = w.errors ++ text := rfl

@[simp] theorem files_printed : (w.printed text).files = w.files := rfl

@[simp] theorem output_printed : (w.printed text).output = w.output ++ text := rfl

@[simp] theorem errors_printed : (w.printed text).errors = w.errors := rfl

@[simp] theorem files_holding : (w.holding files).files = files := rfl

@[simp] theorem output_holding : (w.holding files).output = w.output := rfl

@[simp] theorem errors_holding : (w.holding files).errors = w.errors := rfl

@[simp] theorem warned_nil : w.warned [] = w := by simp [warned]

@[simp] theorem warned_warned : (w.warned text).warned more = w.warned (text ++ more) := by
  simp [warned]

end Fields

end World

/-- A text of whole lines: each of them is ended by a line break. -/
def Text.IsWholeLines (t : Text) : Prop := t = [] ∨ t.getLast? = some '\n'

theorem Text.IsWholeLines.append {t u : Text} (ht : t.IsWholeLines) (hu : u.IsWholeLines) :
    Text.IsWholeLines (t ++ u) := by
  rcases hu with rfl | hu
  · rwa [List.append_nil]
  · right
    rw [List.getLast?_append, hu, Option.some_or]

/-- The text of a file, or what stops its reading. -/
def FileTree.text (t : FileTree) (path : Text) : Except Fault Text := do
  let content ← (t.read path).mapError .file
  let raw ← (Utf8.decode content).mapError .encoding
  pure (Text.unifyBreaks raw)

namespace Action

variable {α β : Type}

/-! ## Sequences -/

theorem bind_run (x : Action α) (f : α → Action β) (w : World) :
    (x >>= f) w = match x w with
      | .ok a w => f a w
      | .error e w => .error e w := by
  show EStateM.bind x f w = _
  unfold EStateM.bind
  cases x w <;> rfl

theorem bind_of_ok {x : Action α} {w w' : World} {a : α} (h : x w = .ok a w')
    (f : α → Action β) : (x >>= f) w = f a w' := by
  rw [bind_run, h]

theorem bind_of_error {x : Action α} {w w' : World} {e : Fault} (h : x w = .error e w')
    (f : α → Action β) : (x >>= f) w = .error e w' := by
  rw [bind_run, h]

theorem bind_eq_ok_iff {x : Action α} {f : α → Action β} {w w'' : World} {b : β} :
    (x >>= f) w = .ok b w'' ↔ ∃ a w', x w = .ok a w' ∧ f a w' = .ok b w'' := by
  rw [bind_run]
  cases x w <;> simp

theorem bind_eq_error_iff {x : Action α} {f : α → Action β} {w w'' : World} {e : Fault} :
    (x >>= f) w = .error e w'' ↔
      x w = .error e w'' ∨ ∃ a w', x w = .ok a w' ∧ f a w' = .error e w'' := by
  rw [bind_run]
  cases x w <;> simp

@[simp] theorem pure_run (a : α) (w : World) : (pure a : Action α) w = .ok a w := rfl

@[simp] theorem throw_run (e : Fault) (w : World) : (throw e : Action α) w = .error e w := rfl

@[simp] theorem get_bind_run (f : World → Action β) (w : World) : (get >>= f) w = f w w := rfl

theorem ofExcept_eq_ok_iff {ε : Type} {fault : ε → Fault} {x : Except ε α} {w w' : World} {a : α} :
    ofExcept fault x w = .ok a w' ↔ x = .ok a ∧ w' = w := by
  cases x with
  | error e => simp [ofExcept]
  | ok b => simp [ofExcept, eq_comm]

theorem ofExcept_eq_error_iff {ε : Type} {fault : ε → Fault} {x : Except ε α} {w w' : World}
    {e : Fault} : ofExcept fault x w = .error e w' ↔ (∃ d, x = .error d ∧ fault d = e) ∧ w' = w := by
  cases x with
  | error d => simp [ofExcept, eq_comm]
  | ok b => simp [ofExcept]

theorem bind_ofExcept_of_ok {ε : Type} {fault : ε → Fault} {x : Except ε α} {a : α} (h : x = .ok a)
    (f : α → Action β) (w : World) : (ofExcept fault x >>= f) w = f a w := by
  rw [h]
  rfl

theorem outcome_run (x : Action α) (w : World) :
    outcome x w = match x w with
      | .ok a w => .ok (.ok a) w
      | .error e w => .ok (.error e) w := rfl

/-- Whether a run ends without a fault. -/
def endsWell : EStateM.Result Fault World α → Bool
  | .ok _ _ => true
  | .error _ _ => false

theorem exists_of_endsWell {r : EStateM.Result Fault World α} (h : endsWell r = true) :
    ∃ a w, r = .ok a w := by
  cases r with
  | ok a w => exact ⟨a, w, rfl⟩
  | error e w => simp [endsWell] at h

/-! ## Output -/

@[simp] theorem warn_run (text : Text) (w : World) : warn text w = .ok () (w.warned text) := rfl

@[simp] theorem print_run (text : Text) (w : World) : print text w = .ok () (w.printed text) :=
  rfl

/-- What is written for a message is made of whole lines, however many outlets there are. -/
theorem isWholeLines_deliveries {Stream : Type} (log : Log Stream) (errors : Stream) (m : Message) :
    Text.IsWholeLines ((log.deliveries errors m).flatMap Prod.snd) := by
  have hline : m.text.IsWholeLines := by
    refine Or.inr ?_
    rw [Message.text, List.getLast?_append]
    rfl
  have hbare : m.bare.IsWholeLines := by
    refine Or.inr ?_
    rw [Message.bare, List.getLast?_append]
    rfl
  have hall : ∀ outlets : List (Outlet Stream),
      Text.IsWholeLines ((outlets.map fun o => (o.stream, m.text)).flatMap Prod.snd) := by
    intro outlets
    induction outlets with
    | nil => exact Or.inl rfl
    | cons o outlets ih => exact hline.append ih
  rw [Log.deliveries]
  split
  · cases log.outletsFor m.logger with
    | cons o outlets => exact hall (o :: outlets)
    | nil =>
      dsimp only
      split
      · exact hbare.append (Or.inl rfl)
      · exact Or.inl rfl
  · exact Or.inl rfl

/-- A report writes whole lines to the error stream, or nothing. -/
theorem report_run (logger : Text) (level : Level) (content : Text) (w : World) :
    ∃ lines, lines.IsWholeLines ∧ report logger level content w = .ok () (w.warned lines) :=
  ⟨_, isWholeLines_deliveries w.log () ⟨logger, level, content⟩, rfl⟩

/-! ## Text files -/

theorem readText_eq_ok_iff {path text : Text} {w w' : World} :
    readText path w = .ok text w' ↔
      w' = w ∧ ∃ content raw, w.files.read path = .ok content ∧ Utf8.decode content = .ok raw ∧
        text = Text.unifyBreaks raw := by
  unfold readText
  simp only [get_bind_run, bind_eq_ok_iff, ofExcept_eq_ok_iff, pure_run, EStateM.Result.ok.injEq]
  constructor
  · rintro ⟨content, w₁, ⟨hread, rfl⟩, raw, w₂, ⟨hdecode, rfl⟩, rfl, rfl⟩
    exact ⟨rfl, content, raw, hread, hdecode, rfl⟩
  · rintro ⟨rfl, content, raw, hread, hdecode, rfl⟩
    exact ⟨content, w', ⟨hread, rfl⟩, raw, w', ⟨hdecode, rfl⟩, rfl, rfl⟩

theorem readText_run (path : Text) (w : World) :
    readText path w = ofExcept id (w.files.text path) w := by
  unfold readText FileTree.text
  rw [get_bind_run]
  cases w.files.read path with
  | error e => rfl
  | ok content =>
    show (ofExcept .encoding (Utf8.decode content) >>= fun raw => pure (Text.unifyBreaks raw)) w
      = ofExcept id ((Utf8.decode content).mapError .encoding >>= fun raw =>
          pure (Text.unifyBreaks raw)) w
    cases Utf8.decode content <;> rfl

theorem writeBytes_eq_ok_iff {path : Text} {content : Bytes} {w w' : World} :
    writeBytes path content w = .ok () w' ↔
      ∃ files, w.files.write path content = .ok files ∧ w' = w.holding files := by
  unfold writeBytes changeFiles
  simp only [get_bind_run, bind_eq_ok_iff, ofExcept_eq_ok_iff]
  constructor
  · rintro ⟨files, w₁, ⟨hwrite, rfl⟩, hmodify⟩
    exact ⟨files, hwrite, (EStateM.Result.ok.inj hmodify).2.symm⟩
  · rintro ⟨files, hwrite, rfl⟩
    exact ⟨files, w, ⟨hwrite, rfl⟩, rfl⟩

theorem writeBytes_of_error {path : Text} {content : Bytes} {w : World} {e : FileError}
    (h : w.files.write path content = .error e) :
    writeBytes path content w = .error (.file e) w := by
  show (ofExcept .file (w.files.write path content) >>= fun files =>
    modify fun w => { w with files }) w = _
  rw [h]
  rfl

theorem writeText_eq_ok_iff {path text : Text} {w w' : World} :
    writeText path text w = .ok () w' ↔
      ∃ files, w.files.write path (Utf8.encode text) = .ok files ∧ w' = w.holding files :=
  writeBytes_eq_ok_iff

end Action

end CallDiagram
