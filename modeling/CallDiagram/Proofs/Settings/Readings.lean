import CallDiagram.Proofs.Results
import CallDiagram.Settings.Basic

/-!
# How settings are read

An environment has settings if none of five of them is refused, and they are then read each from its
own variable.  If some are refused, the first one of them in the order of reading is reported.

* `Settings.Field`, `Settings.Refused` — the settings that may be refused, and why;
* `readNumber_eq_ok_iff`, `readNumber_eq_error_iff` — numbers;
* `ofEnvironment_eq` — the order of reading;
* `Settings.ReadFrom`, `ofEnvironment_eq_ok_iff` — settings that are read;
* `Settings.FirstRefused`, `ofEnvironment_eq_error_iff` — settings that are refused.
-/

namespace CallDiagram

namespace Settings

/-! ## Refusals -/

/-- The settings that may be refused. -/
inductive Field where
  /-- The command. -/
  | command
  /-- The time limit. -/
  | timeout
  /-- The format. -/
  | format
  /-- The number of jobs. -/
  | jobs
  /-- The level. -/
  | level
  deriving DecidableEq, Repr

/-- The place of a setting in the order of reading. -/
def Field.place : Field → Nat
  | .command => 0
  | .timeout => 1
  | .format => 2
  | .jobs => 3
  | .level => 4

theorem Field.place_injective : Function.Injective Field.place := by
  intro f g h
  cases f <;> cases g <;> first | rfl | cases h

/-- Why the number in a variable is refused. -/
inductive NumberRefused {α : Type} (env : Environment) (name : Text) (read? : Text → Option α)
    (isNonpositive : α → Bool) : SettingsError → Prop where
  /-- The variable holds something else. -/
  | notNumber {raw : Text} : env.lookup name = some raw → Text.isBlank raw = false →
      read? raw = none → NumberRefused env name read? isNonpositive (.notNumber name raw)
  /-- The number is zero or below. -/
  | notPositive {raw : Text} {value : α} : env.lookup name = some raw → Text.isBlank raw = false →
      read? raw = some value → isNonpositive value = true →
      NumberRefused env name read? isNonpositive (.notPositive name raw)

/-- Why a setting of an environment is refused. -/
def Refused (env : Environment) : Field → SettingsError → Prop
  | .command, e => ∃ text w, Text.nonempty? (env.lookup commandVariable) = some text ∧
      words? text = .error w ∧ e = .command w
  | .timeout, e => NumberRefused env timeoutVariable Number.real? Binary64.isNonpositive e
  | .format, e => ∃ given, env.lookup formatVariable = some given ∧
      Format.normalise given ∉ Format.all.map Format.name ∧
      e = .format ⟨Format.normalise given⟩
  | .jobs, e => NumberRefused env jobsVariable Number.integer? (· ≤ 0) e
  | .level, e => ∃ given, env.lookup levelVariable = some given ∧
      Text.upper (Text.trim given) ∉ LevelName.all.map LevelName.text ∧
      e = .level (Text.upper (Text.trim given))

/-- The error of the first setting that is refused. -/
def FirstRefused (env : Environment) (e : SettingsError) : Prop :=
  ∃ f, Refused env f e ∧ ∀ f' : Field, f'.place < f.place → ∀ e', ¬ Refused env f' e'

end Settings

open Settings

variable {env : Environment}

/-! ## Numbers -/

section Numbers

variable {α : Type} {name : Text} {default value : α} {read? : Text → Option α}
  {isNonpositive : α → Bool}

/-- A number is the default if its variable is unset or blank, and else what the variable holds. -/
theorem readNumber_eq_ok_iff :
    readNumber env name default read? isNonpositive = .ok value ↔
      ((∀ raw, env.lookup name = some raw → Text.isBlank raw = true) ∧ value = default) ∨
        ∃ raw, env.lookup name = some raw ∧ Text.isBlank raw = false ∧ read? raw = some value ∧
          isNonpositive value = false := by
  constructor
  · intro h
    rw [readNumber] at h
    split at h
    · rename_i hunset
      exact Or.inl ⟨by simp [hunset], (Except.ok.inj h).symm⟩
    · rename_i raw hraw
      split at h
      · rename_i hblank
        refine Or.inl ⟨?_, (Except.ok.inj h).symm⟩
        intro raw' hraw'
        rwa [← Option.some.inj (hraw.symm.trans hraw')]
      · rename_i hblank
        split at h
        · cases h
        · rename_i found hread
          split at h
          · cases h
          · rename_i hpositive
            obtain rfl := Except.ok.inj h
            exact Or.inr ⟨raw, hraw, by simpa using hblank, hread, by simpa using hpositive⟩
  · rintro (⟨hblank, rfl⟩ | ⟨raw, hraw, hblank, hread, hpositive⟩)
    · cases hraw : env.lookup name with
      | none => simp [readNumber, hraw]
      | some raw => simp [readNumber, hraw, hblank raw hraw]
    · simp [readNumber, hraw, hblank, hread, hpositive]

theorem readNumber_eq_error_iff {e : SettingsError} :
    readNumber env name default read? isNonpositive = .error e ↔
      NumberRefused env name read? isNonpositive e := by
  constructor
  · intro h
    rw [readNumber] at h
    split at h
    · cases h
    · rename_i raw hraw
      split at h
      · cases h
      · rename_i hblank
        rw [Bool.not_eq_true] at hblank
        split at h
        · rename_i hread
          obtain rfl := Except.error.inj h
          exact .notNumber hraw hblank hread
        · rename_i found hread
          split at h
          · rename_i hpositive
            obtain rfl := Except.error.inj h
            exact .notPositive hraw hblank hread hpositive
          · cases h
  · rintro (⟨hraw, hblank, hread⟩ | ⟨hraw, hblank, hread, hpositive⟩)
    · simp [readNumber, hraw, hblank, hread]
    · simp [readNumber, hraw, hblank, hread, hpositive]

end Numbers

/-! ## Names of formats and levels -/

/-- A text names a format if it is the name of one once it is normalised. -/
theorem read_eq_error_iff {text : Text} {r : Format.Unsupported} :
    Format.read text = .error r ↔
      Format.normalise text ∉ Format.all.map Format.name ∧ r = ⟨Format.normalise text⟩ := by
  rw [Format.read]
  cases hfind : Format.all.find? fun f => f.name = Format.normalise text with
  | none =>
    have hnone : Format.normalise text ∉ Format.all.map Format.name := by
      simpa using hfind
    simp only [hnone, not_false_iff, true_and, Except.error.injEq]
    exact eq_comm
  | some f =>
    have hname : f.name = Format.normalise text := by simpa using List.find?_some hfind
    have hmem : Format.normalise text ∈ Format.all.map Format.name :=
      List.mem_map.2 ⟨f, List.mem_of_find?_eq_some hfind, hname⟩
    simp [hmem]

theorem readLevel_eq_error_iff {text : Text} {e : SettingsError} :
    readLevel text = .error e ↔
      Text.upper (Text.trim text) ∉ LevelName.all.map LevelName.text ∧
        e = .level (Text.upper (Text.trim text)) := by
  rw [readLevel, LevelName.ofText?]
  cases hfind : LevelName.all.find? fun n => n.text = Text.upper (Text.trim text) with
  | none =>
    have hnone : Text.upper (Text.trim text) ∉ LevelName.all.map LevelName.text := by
      simpa using hfind
    simp only [hnone, not_false_iff, true_and, Except.error.injEq]
    exact eq_comm
  | some n =>
    have hname : n.text = Text.upper (Text.trim text) := by simpa using List.find?_some hfind
    have hmem : Text.upper (Text.trim text) ∈ LevelName.all.map LevelName.text :=
      List.mem_map.2 ⟨n, List.mem_of_find?_eq_some hfind, hname⟩
    simp [hmem]

/-! ## The order of reading -/

/-- The command of an environment. -/
def Settings.readCommand (env : Environment) : Except SettingsError (List Text) :=
  match Text.nonempty? (env.lookup commandVariable) with
  | some text => (words? text).mapError .command
  | none => .ok ({} : Settings).command

/-- The format of an environment. -/
def Settings.readFormat (env : Environment) : Except SettingsError Format :=
  (Format.read ((env.lookup formatVariable).getD Format.svg.name)).mapError .format

/-- Settings are read one behind the other, and the suffix is never refused. -/
theorem ofEnvironment_eq (env : Environment) :
    ofEnvironment env = (do
      let command ← readCommand env
      let timeout ← readNumber env timeoutVariable ({} : Settings).timeout Number.real?
        Binary64.isNonpositive
      let format ← readFormat env
      let jobs ← readNumber env jobsVariable 4 Number.integer? (· ≤ 0)
      let level ← readLevel ((env.lookup levelVariable).getD Level.info.text)
      .ok {
        command, timeout, format, level
        maxJobs := jobs.toNat
        suffix := dotted ((env.lookup suffixVariable).getD ".code") }) := by
  unfold ofEnvironment readCommand
  cases Text.nonempty? (env.lookup commandVariable) <;> rfl

theorem readCommand_eq_error_iff {e : SettingsError} :
    readCommand env = .error e ↔ Refused env .command e := by
  rw [readCommand]
  cases hcommand : Text.nonempty? (env.lookup commandVariable) with
  | none => simp [Refused, hcommand]
  | some text =>
    simp only [mapError_eq_error_iff, Refused, hcommand, Option.some.injEq]
    constructor
    · rintro ⟨w, hwords, rfl⟩
      exact ⟨text, w, rfl, hwords, rfl⟩
    · rintro ⟨_, w, rfl, hwords, rfl⟩
      exact ⟨w, hwords, rfl⟩

theorem readFormat_eq_error_iff {e : SettingsError} :
    readFormat env = .error e ↔ Refused env .format e := by
  rw [readFormat, mapError_eq_error_iff]
  simp only [read_eq_error_iff, Refused]
  cases env.lookup formatVariable with
  | none =>
    have hdefault : Format.normalise Format.svg.name ∈ Format.all.map Format.name := by decide
    simp [hdefault]
  | some given =>
    constructor
    · rintro ⟨_, ⟨hname, rfl⟩, rfl⟩
      exact ⟨given, rfl, hname, rfl⟩
    · rintro ⟨_, hgiven, hname, rfl⟩
      obtain rfl := Option.some.inj hgiven
      exact ⟨_, ⟨hname, rfl⟩, rfl⟩

theorem readLevel_getD_eq_error_iff {e : SettingsError} :
    readLevel ((env.lookup levelVariable).getD Level.info.text) = .error e ↔
      Refused env .level e := by
  rw [readLevel_eq_error_iff]
  simp only [Refused]
  cases env.lookup levelVariable with
  | none =>
    have hdefault : Text.upper (Text.trim Level.info.text) ∈ LevelName.all.map LevelName.text := by
      decide
    simp [hdefault]
  | some given => simp

/-- A setting that was read is not refused. -/
theorem not_refused {α : Type} {x : Except SettingsError α} {f : Field} {a : α} (h : x = .ok a)
    (hiff : ∀ {e}, x = .error e ↔ Refused env f e) (e : SettingsError) : ¬ Refused env f e := by
  intro hrefused
  rw [hiff.2 hrefused] at h
  cases h

/-- What is refused is the first setting that can be. -/
theorem firstRefused_of_ofEnvironment {e : SettingsError} (h : ofEnvironment env = .error e) :
    FirstRefused env e := by
  rw [ofEnvironment_eq] at h
  rcases except_bind_eq_error_iff.1 h with h | ⟨command, hcommand, h⟩
  · refine ⟨.command, readCommand_eq_error_iff.1 h, fun f hf => ?_⟩
    exact absurd hf (Nat.not_lt_zero _)
  have hcommand := not_refused hcommand readCommand_eq_error_iff
  rcases except_bind_eq_error_iff.1 h with h | ⟨timeout, htimeout, h⟩
  · refine ⟨.timeout, readNumber_eq_error_iff.1 h, fun f hf => ?_⟩
    cases f with
    | command => exact hcommand
    | _ => simp [Field.place] at hf
  have htimeout : ∀ e, ¬ Refused env .timeout e := not_refused htimeout readNumber_eq_error_iff
  rcases except_bind_eq_error_iff.1 h with h | ⟨format, hformat, h⟩
  · refine ⟨.format, readFormat_eq_error_iff.1 h, fun f hf => ?_⟩
    cases f with
    | command => exact hcommand
    | timeout => exact htimeout
    | _ => simp [Field.place] at hf
  have hformat := not_refused hformat readFormat_eq_error_iff
  rcases except_bind_eq_error_iff.1 h with h | ⟨jobs, hjobs, h⟩
  · refine ⟨.jobs, readNumber_eq_error_iff.1 h, fun f hf => ?_⟩
    cases f with
    | command => exact hcommand
    | timeout => exact htimeout
    | format => exact hformat
    | _ => simp [Field.place] at hf
  have hjobs : ∀ e, ¬ Refused env .jobs e := not_refused hjobs readNumber_eq_error_iff
  rcases except_bind_eq_error_iff.1 h with h | ⟨level, hlevel, h⟩
  · refine ⟨.level, readLevel_getD_eq_error_iff.1 h, fun f hf => ?_⟩
    cases f with
    | command => exact hcommand
    | timeout => exact htimeout
    | format => exact hformat
    | jobs => exact hjobs
    | level => simp at hf
  · cases h

/-- A setting is refused for one reason. -/
theorem Settings.Refused.unique {f : Field} {e e' : SettingsError} (h : Refused env f e)
    (h' : Refused env f e') : e = e' := by
  have hsame : ∀ {α : Type} (x : Except SettingsError α),
      (∀ {e}, x = .error e ↔ Refused env f e) → e = e' :=
    fun _ hiff => Except.error.inj ((hiff.2 h).symm.trans (hiff.2 h'))
  cases f with
  | command => exact hsame _ readCommand_eq_error_iff
  | timeout => exact hsame (readNumber env _ Binary64.nan _ _) readNumber_eq_error_iff
  | format => exact hsame _ readFormat_eq_error_iff
  | jobs => exact hsame (readNumber env _ 0 _ _) readNumber_eq_error_iff
  | level => exact hsame _ readLevel_getD_eq_error_iff

/-! ## Settings that are read -/

/-- Settings that are read each from its own variable, with the usual value if that is unset. -/
structure Settings.ReadFrom (env : Environment) (s : Settings) : Prop where
  /-- The command is cut into words. -/
  command : readCommand env = .ok s.command
  /-- The time limit is a number. -/
  timeout : readNumber env timeoutVariable ({} : Settings).timeout Number.real?
    Binary64.isNonpositive = .ok s.timeout
  /-- The format has a name. -/
  format : readFormat env = .ok s.format
  /-- The number of jobs is a whole number. -/
  jobs : ∃ n : Int, readNumber env jobsVariable 4 Number.integer? (· ≤ 0) = .ok n ∧
    s.maxJobs = n.toNat
  /-- The level has a name. -/
  level : readLevel ((env.lookup levelVariable).getD Level.info.text) = .ok s.level
  /-- The suffix starts with a dot. -/
  suffix : s.suffix = dotted ((env.lookup suffixVariable).getD ".code")

theorem ofEnvironment_eq_ok_iff {s : Settings} :
    ofEnvironment env = .ok s ↔ ReadFrom env s := by
  rw [ofEnvironment_eq]
  constructor
  · intro h
    obtain ⟨command, hcommand, h⟩ := except_bind_eq_ok_iff.1 h
    obtain ⟨timeout, htimeout, h⟩ := except_bind_eq_ok_iff.1 h
    obtain ⟨format, hformat, h⟩ := except_bind_eq_ok_iff.1 h
    obtain ⟨jobs, hjobs, h⟩ := except_bind_eq_ok_iff.1 h
    obtain ⟨level, hlevel, h⟩ := except_bind_eq_ok_iff.1 h
    obtain rfl := Except.ok.inj h
    exact ⟨hcommand, htimeout, hformat, ⟨jobs, hjobs, rfl⟩, hlevel, rfl⟩
  · intro h
    obtain ⟨jobs, hjobs, hmax⟩ := h.jobs
    rw [h.command, h.timeout, h.format, hjobs, h.level, ← h.suffix]
    show Except.ok { s with maxJobs := jobs.toNat } = Except.ok s
    rw [← hmax]

/-- Settings that are read are not refused. -/
theorem Settings.ReadFrom.not_refused {s : Settings} (h : ReadFrom env s) (f : Field)
    (e : SettingsError) : ¬ Refused env f e := by
  obtain ⟨jobs, hjobs, -⟩ := h.jobs
  cases f with
  | command => exact CallDiagram.not_refused h.command readCommand_eq_error_iff e
  | timeout => exact CallDiagram.not_refused h.timeout readNumber_eq_error_iff e
  | format => exact CallDiagram.not_refused h.format readFormat_eq_error_iff e
  | jobs => exact CallDiagram.not_refused hjobs readNumber_eq_error_iff e
  | level => exact CallDiagram.not_refused h.level readLevel_getD_eq_error_iff e

/-- An environment is refused for the reason of the first setting that is. -/
theorem ofEnvironment_eq_error_iff {e : SettingsError} :
    ofEnvironment env = .error e ↔ FirstRefused env e := by
  refine ⟨firstRefused_of_ofEnvironment, ?_⟩
  rintro ⟨f, hrefused, hfirst⟩
  cases h : ofEnvironment env with
  | ok s => exact absurd hrefused ((ofEnvironment_eq_ok_iff.1 h).not_refused f e)
  | error e' =>
    obtain ⟨f', hrefused', hfirst'⟩ := firstRefused_of_ofEnvironment h
    -- neither of the two stands in front of the other
    have hplace : f'.place = f.place := by
      refine Nat.le_antisymm (Nat.le_of_not_lt fun hlt => ?_) (Nat.le_of_not_lt fun hlt => ?_)
      · exact hfirst' f hlt e hrefused
      · exact hfirst f' hlt e' hrefused'
    obtain rfl := Field.place_injective hplace
    rw [hrefused'.unique hrefused]

/-- An environment has settings unless one of them is refused. -/
theorem exists_ofEnvironment_eq_ok_iff :
    (∃ s, ofEnvironment env = .ok s) ↔ ∀ f e, ¬ Refused env f e := by
  constructor
  · rintro ⟨s, h⟩
    exact (ofEnvironment_eq_ok_iff.1 h).not_refused
  · intro h
    cases hread : ofEnvironment env with
    | ok s => exact ⟨s, rfl⟩
    | error e =>
      obtain ⟨f, hrefused, -⟩ := firstRefused_of_ofEnvironment hread
      exact absurd hrefused (h f e)

end CallDiagram
