import CallDiagram.Text.Case

/-!
# Levels of messages

A message has one of five levels, and a sixth one, `notset`, leaves a threshold open.  Two levels
have a second name.

* `Level`, `Level.all`, `Level.severity`, `Level.text` — the levels;
* `LevelName` — the eight names, `LevelName.level`, `LevelName.ofText?`.
-/

namespace CallDiagram

/-- The level of a message, or of a threshold. -/
inductive Level where
  /-- No threshold of its own. -/
  | notset
  /-- Details of the work. -/
  | debug
  /-- What was done. -/
  | info
  /-- What may be wrong. -/
  | warning
  /-- What went wrong. -/
  | error
  /-- What ends the program. -/
  | critical
  deriving DecidableEq, Repr

namespace Level

/-- All levels. -/
def all : List Level := [.notset, .debug, .info, .warning, .error, .critical]

/-- How grave messages of a level are. -/
def severity : Level → Nat
  | .notset => 0
  | .debug => 10
  | .info => 20
  | .warning => 30
  | .error => 40
  | .critical => 50

/-- The name of a level in messages. -/
def text : Level → Text
  | .notset => "NOTSET"
  | .debug => "DEBUG"
  | .info => "INFO"
  | .warning => "WARNING"
  | .error => "ERROR"
  | .critical => "CRITICAL"

end Level

/-- A name of a level in settings. -/
inductive LevelName where
  /-- A level under the name that messages use. -/
  | usual (level : Level)
  /-- `WARN`, for warnings. -/
  | warn
  /-- `FATAL`, for critical messages. -/
  | fatal
  deriving DecidableEq, Repr

namespace LevelName

/-- All names. -/
def all : List LevelName :=
  [.usual .critical, .fatal, .usual .error, .warn, .usual .warning, .usual .info, .usual .debug,
   .usual .notset]

/-- The spelling of a name. -/
def text : LevelName → Text
  | .usual level => level.text
  | .warn => "WARN"
  | .fatal => "FATAL"

/-- The level that a name stands for. -/
def level : LevelName → Level
  | .usual level => level
  | .warn => .warning
  | .fatal => .critical

/-- The name with a spelling. -/
def ofText? (text : Text) : Option LevelName := all.find? fun n => n.text = text

theorem ofText?_text (n : LevelName) : ofText? n.text = some n := by
  rcases n with l | _ | _
  · cases l <;> decide
  · decide
  · decide

end LevelName

end CallDiagram
