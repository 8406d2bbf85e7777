import CallDiagram.Number.Reading
import CallDiagram.Number.Shortest
import CallDiagram.Text.Quoted
import CallDiagram.Settings.Words
import CallDiagram.Settings.Format
import CallDiagram.Settings.Level

/-!
# Settings

How the drawing program is run, what it writes, how much is reported and which files are sources.
Settings come from variables, each optional; a number may also be left blank.

* `Settings`, `SettingsError` — the types;
* `Environment` — variables with their values;
* `Settings.ofEnvironment` — the settings of an environment; of several bad variables the first in
  the order command, time limit, format, jobs, level is refused.
-/

namespace CallDiagram

/-- Variables and their values. -/
abbrev Environment := List (Text × Text)

/-- The choices of a user. -/
structure Settings where
  /-- The words that start the drawing program. -/
  command : List Text := ["plantuml"]
  /-- How many seconds the drawing program may take. -/
  timeout : Binary64 := .ofDecimal false 60 0
  /-- The image format. -/
  format : Format := .svg
  /-- How many drawings may run at the same time. -/
  maxJobs : Nat := 4
  /-- The least level that is reported. -/
  level : LevelName := .usual .info
  /-- The ending of the names of source files. -/
  suffix : Text := ".code"

/-- Why an environment has no settings. -/
inductive SettingsError where
  /-- The command has no words. -/
  | command (e : WordError)
  /-- A value is no number. -/
  | notNumber (name given : Text)
  /-- A number is zero or below. -/
  | notPositive (name given : Text)
  /-- The format is unknown. -/
  | format (e : Format.Unsupported)
  /-- The level is unknown; its name is given normalised. -/
  | level (given : Text)
  deriving DecidableEq, Repr

/-- The wording of the error. -/
def SettingsError.message : SettingsError → Text
  | .command e => e.message
  | .notNumber name given => name ++ " must be a number, got " ++ given.quoted
  | .notPositive name given => name ++ " must be positive, got " ++ Text.quoted given
  | .format e => e.message
  | .level given => "CODESQUE_LOG_LEVEL must be a logging level name, got " ++ Text.quoted given

namespace Settings

/-- The variable of the command. -/
def commandVariable : Text := "CODESQUE_PLANTUML_COMMAND"

/-- The variable of the time limit. -/
def timeoutVariable : Text := "CODESQUE_RENDER_TIMEOUT"

/-- The variable of the format. -/
def formatVariable : Text := "CODESQUE_OUTPUT_FORMAT"

/-- The variable of the number of jobs. -/
def jobsVariable : Text := "CODESQUE_MAX_JOBS"

/-- The variable of the level. -/
def levelVariable : Text := "CODESQUE_LOG_LEVEL"

/-- The variable of the source suffix. -/
def suffixVariable : Text := "CODESQUE_SOURCE_SUFFIX"

/-- A number from a variable, or the default if it is missing or blank. -/
def readNumber {α : Type} (env : Environment) (name : Text) (default : α)
    (read? : Text → Option α) (isNonpositive : α → Bool) : Except SettingsError α :=
  match env.lookup name with
  | none => .ok default
  | some raw =>
      if Text.isBlank raw then .ok default
      else
        match read? raw with
        | none => .error (.notNumber name raw)
        | some value => if isNonpositive value then .error (.notPositive name raw) else .ok value

/-- The name of a level, in letters of any case and with blanks around. -/
def readLevel (text : Text) : Except SettingsError LevelName :=
  match LevelName.ofText? (Text.upper (Text.trim text)) with
  | some n => .ok n
  | none => .error (.level (Text.upper (Text.trim text)))

/-- A suffix with a dot in front. -/
def dotted : Text → Text
  | '.' :: rest => '.' :: rest
  | text => '.' :: text

/-- The settings of an environment. -/
def ofEnvironment (env : Environment) : Except SettingsError Settings := do
  let defaults : Settings := {}
  let command ←
    match Text.nonempty? (env.lookup commandVariable) with
    | some text => (words? text).mapError .command
    | none => .ok defaults.command
  let timeout ←
    readNumber env timeoutVariable defaults.timeout Number.real? Binary64.isNonpositive
  let format ←
    (Format.read ((env.lookup formatVariable).getD defaults.format.name)).mapError .format
  let jobs ← readNumber env jobsVariable (defaults.maxJobs : Int) Number.integer? (· ≤ 0)
  let level ← readLevel ((env.lookup levelVariable).getD defaults.level.text)
  .ok {
    command, timeout, format, level
    maxJobs := jobs.toNat
    suffix := dotted ((env.lookup suffixVariable).getD defaults.suffix) }

end Settings

end CallDiagram
