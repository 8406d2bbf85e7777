import CallDiagram.Log
import CallDiagram.Proofs.Number.Numerals
import CallDiagram.Proofs.Settings.Readings

/-!
# Settings that are accepted

Settings that an environment gives can be used, and they are in normal form: an environment that
holds them gives them again.  An environment that gives none is refused for the first of its
settings that is wrong.

* `Settings.variables` — an environment that holds settings;
* `setup_text`, `readLevel_text`, `dotted_of_head?`, `readNumber_natural` — each value is read back;
* `Settings.Usable`, `usable_of_ofEnvironment` — settings that are accepted;
* `SettingsLaw`, `settingsLaw` — every environment.
-/

namespace CallDiagram

open Settings

/-- An environment that holds the format, the number of jobs, the level and the suffix. -/
def Settings.variables (s : Settings) : Environment :=
  [(formatVariable, s.format.name), (jobsVariable, Text.natural s.maxJobs),
    (levelVariable, s.level.text), (suffixVariable, s.suffix)]

/-! ## Levels -/

/-- The name of a level is in capitals, without blanks around. -/
theorem upper_trim_text (n : LevelName) :
    Text.upper n.text = n.text ∧ Text.trim n.text = n.text := by
  rcases n with level | _ | _
  · cases level <;> decide
  · decide
  · decide

/-- The log is set up with every level that settings can name. -/
theorem setup_text {Stream : Type} (log : Log Stream) (stream : Stream) (n : LevelName) :
    (log.setup stream n.text).1 = .ok n.level := by
  simp [Log.setup, (upper_trim_text n).1, LevelName.ofText?_text]

theorem readLevel_text (n : LevelName) : readLevel n.text = .ok n := by
  simp [readLevel, upper_trim_text n, LevelName.ofText?_text]

/-! ## Suffixes -/

theorem head?_dotted (text : Text) : (dotted text).head? = some '.' := by
  unfold dotted
  split <;> rfl

/-- A suffix is given its dot once. -/
theorem dotted_of_head? {text : Text} (h : text.head? = some '.') : dotted text = text := by
  cases text with
  | nil => simp at h
  | cons c rest =>
    obtain rfl : c = '.' := by simpa using h
    rfl

/-! ## Jobs -/

/-- The number of jobs of settings is positive, and can be written. -/
theorem jobs_of_readNumber {env : Environment} {n : Int}
    (h : readNumber env jobsVariable 4 Number.integer? (· ≤ 0) = .ok n) :
    0 < n ∧ Number.isWritable n = true := by
  rcases readNumber_eq_ok_iff.1 h with ⟨-, rfl⟩ | ⟨raw, -, -, hread, hpositive⟩
  · exact ⟨by decide, by decide⟩
  · exact ⟨by simpa using hpositive, Number.isWritable_of_integer? hread⟩

/-- A number of jobs is read back from its numeral. -/
theorem readNumber_natural {env : Environment} {n : Nat} (hpos : 0 < n)
    (hwritable : Number.isWritable n = true)
    (hlookup : env.lookup jobsVariable = some (Text.natural n)) :
    readNumber env jobsVariable 4 Number.integer? (· ≤ 0) = .ok (n : Int) := by
  obtain ⟨c, more, hnatural⟩ := List.exists_cons_of_ne_nil (show Text.natural n ≠ [] from
    Nat.toDigits_ne_nil)
  have hdigit : c.isDigit = true := isDigit_of_mem_natural (hnatural ▸ List.mem_cons_self)
  have hblank : Text.isBlank (Text.natural n) = false := by
    simp [hnatural, Text.isBlank, Number.isBlank_of_isDigit hdigit]
  refine readNumber_eq_ok_iff.2 (Or.inr ⟨_, hlookup, hblank, Number.integer?_natural hwritable, ?_⟩)
  exact decide_eq_false (by omega)

/-! ## Settings -/

/-- Settings that can be used, and that are given again by an environment that holds them. -/
structure Settings.Usable (s : Settings) : Prop where
  /-- Something can be drawn. -/
  jobs : 1 ≤ s.maxJobs
  /-- The format has the name of one that is known. -/
  format : s.format.name ∈ Format.all.map Format.name
  /-- The suffix starts with a dot. -/
  suffix : s.suffix.head? = some '.'
  /-- The log is set up with the name of the level. -/
  level : ∀ {Stream : Type} (log : Log Stream) (stream : Stream),
    (log.setup stream s.level.text).1 = .ok s.level.level
  /-- An environment that holds them gives them again, beside the usual command and time limit. -/
  again : ofEnvironment s.variables
    = .ok { format := s.format, maxJobs := s.maxJobs, level := s.level, suffix := s.suffix }

theorem usable_of_ofEnvironment {env : Environment} {s : Settings}
    (h : ofEnvironment env = .ok s) : s.Usable := by
  have hread := ofEnvironment_eq_ok_iff.1 h
  obtain ⟨jobs, hjobs, hmax⟩ := hread.jobs
  obtain ⟨hpos, hwritable⟩ := jobs_of_readNumber hjobs
  have hmax' : (s.maxJobs : Int) = jobs := by omega
  have hsuffix : s.suffix.head? = some '.' := by
    rw [hread.suffix]
    exact head?_dotted _
  refine ⟨by omega, ?format, hsuffix, fun log stream => setup_text log stream s.level, ?again⟩
  case format => cases s.format <;> decide
  case again =>
    refine ofEnvironment_eq_ok_iff.2 ⟨rfl, rfl, ?_, ⟨s.maxJobs, ?_, rfl⟩, ?_, ?_⟩
    · have hlookup : s.variables.lookup formatVariable = some s.format.name := rfl
      rw [readFormat, hlookup, Option.getD_some, Format.read_name]
      rfl
    · exact readNumber_natural (by omega) (hmax' ▸ hwritable) rfl
    · have hlookup : s.variables.lookup levelVariable = some s.level.text := rfl
      rw [hlookup, Option.getD_some, readLevel_text]
    · have hlookup : s.variables.lookup suffixVariable = some s.suffix := rfl
      rw [hlookup, Option.getD_some, dotted_of_head? hsuffix]

/-- What becomes of an environment. -/
structure SettingsLaw (env : Environment) : Prop where
  /-- Settings that are accepted can be used, and be given again. -/
  accepted : ∀ {s : Settings}, ofEnvironment env = .ok s → s.Usable
  /-- There are settings, unless some setting is refused. -/
  complete : (∃ s, ofEnvironment env = .ok s) ↔ ∀ f e, ¬ Refused env f e
  /-- If there are none, the reason is that of the first setting that is refused. -/
  refused : ∀ {e : SettingsError}, ofEnvironment env = .error e ↔ FirstRefused env e

theorem settingsLaw (env : Environment) : SettingsLaw env :=
  ⟨usable_of_ofEnvironment, exists_ofEnvironment_eq_ok_iff, ofEnvironment_eq_error_iff⟩

/-- Of two settings that are wrong the one that is read first is refused. -/
example : ofEnvironment [(levelVariable, "loud"), (jobsVariable, "0")]
    = .error (.notPositive jobsVariable "0") := by rfl

end CallDiagram
