import CallDiagram.Number.Limit
import CallDiagram.Settings.Level
import CallDiagram.Text.Quoted

/-!
# The log

The log of the program has outlets, each to one stream, and a message is written through every one
of them.  `Log.setup` puts a new outlet in the place of the one that the last setup opened, and then
chooses a threshold: a setup with an unknown level has moved the log to its stream already, and the
threshold stays.  Nothing above the program has an outlet, so it makes no difference whether
messages are handed on.

Messages come from loggers with dotted names, and only those of the program and of the loggers that
stand below it find its outlets.  Where a logger stands is told by the loggers in use: it is below
the nearest of them whose name its own name continues behind a dot.  A message that finds no outlet
goes to the error stream of the process as it is, if it is a warning or graver.

* `Rank`, `Rank.text` — how grave a message is, with or without a level of that rank;
* `Message`, `Message.text`, `Message.bare` — a message and the lines that are written for it;
* `Log` — the outlets, the threshold, and what is known of the loggers;
* `Log.covers` — the loggers whose messages find the outlets;
* `Log.redirect`, `Log.setup` — choosing the stream, and the threshold;
* `Log.deliveries`, `Log.record` — what is written where for a message, and the log behind it.
-/

namespace CallDiagram

/-! ## Messages -/

/-- How grave a message is: any whole number that has few enough digits to be written. -/
structure Rank where
  /-- The number. -/
  value : Int
  /-- It can be written. -/
  isWritable : Number.isWritable value = true
  deriving DecidableEq, Repr

/-- The rank of the messages of a level. -/
def Level.rank (level : Level) : Rank := ⟨level.severity, by cases level <;> decide⟩

/-- A level stands for its rank. -/
instance : Coe Level Rank := ⟨Level.rank⟩

/-- The name of a rank in messages: that of its level, or its number if no level has it. -/
def Rank.text (rank : Rank) : Text :=
  match Level.all.find? fun level => level.rank = rank with
  | some level => level.text
  | none => "Level " ++ Text.integer rank.value

/-- A message of a part of the program. -/
structure Message where
  /-- The dotted name of the part. -/
  logger : Text
  /-- How grave the message is. -/
  rank : Rank
  /-- What it says. -/
  content : Text
  deriving DecidableEq, Repr

/-- The line that an outlet writes for a message. -/
def Message.text (m : Message) : Text :=
  "[" ++ m.logger ++ "] " ++ m.rank.text ++ " " ++ m.content ++ "\n"

/-- The line that is written for a message without an outlet. -/
def Message.bare (m : Message) : Text := m.content ++ "\n"

/-! ## Logs -/

/-- Whether the messages of a rank are grave enough for a logger. -/
structure Decision where
  /-- The logger. -/
  logger : Text
  /-- The rank. -/
  rank : Rank
  /-- Whether such messages pass. -/
  passes : Bool
  deriving DecidableEq, Repr

/-- A way out of the log.  Outlets are told apart by their numbers, also if they lead to one
stream. -/
structure Outlet (Stream : Type) where
  /-- How many outlets were opened before. -/
  number : Nat
  /-- Where it leads. -/
  stream : Stream

/-- Where messages go and which of them. -/
structure Log (Stream : Type) where
  /-- The outlets, in the order in which they were added. -/
  outlets : List (Outlet Stream) := []
  /-- The outlet that the last setup has opened. -/
  current : Option (Outlet Stream) := none
  /-- How many outlets have been opened. -/
  opened : Nat := 0
  /-- The least level that is written, as the last valid setup chose it. -/
  threshold : Level := .notset
  /-- The loggers in use. -/
  loggers : List Text := []
  /-- What has been decided since the last valid setup.  A decision holds until the next one. -/
  decisions : List Decision := []

/-- A name that is no level. -/
structure UnknownLevel where
  /-- The name, in upper case. -/
  given : Text
  deriving DecidableEq, Repr

/-- The wording of the refusal of a level. -/
def UnknownLevel.message (e : UnknownLevel) : Text := "Unknown level: " ++ e.given.quoted

namespace Log

variable {Stream : Type}

/-- The name of the whole program in messages. -/
def rootLogger : Text := "codesque"

/-- Whether a logger stands below the program when some loggers are in use; its name is given
backwards.  The names in front of its dots are tried from the longest on, and the next dot is looked
for in front of the last character of the name just tried: of two dots side by side the left one is
passed over. -/
def isBelow (inUse : List Text) : Text → Bool
  | [] => false
  | [_] => false
  | c :: d :: rest =>
      if c ≠ '.' then isBelow inUse (d :: rest)
      else
        let above := (d :: rest).reverse
        if above = rootLogger then true
        else if inUse.any fun l => l = above then isBelow inUse (d :: rest)
        else isBelow inUse rest

/-- Whether a logger is the program or stands below it. -/
def covers (log : Log Stream) (logger : Text) : Bool :=
  logger = rootLogger || isBelow log.loggers logger.reverse

/-- The threshold in force: warnings, if none was chosen. -/
def effective (log : Log Stream) : Level :=
  match log.threshold with
  | .notset => .warning
  | level => level

/-- The threshold for a logger.  Outside the program it is warnings. -/
def thresholdFor (log : Log Stream) (logger : Text) : Level :=
  if log.covers logger then log.effective else .warning

/-! ## Setups -/

/-- The log without the outlet of the last setup. -/
def detach (log : Log Stream) : Log Stream :=
  match log.current with
  | some last => { log with outlets := log.outlets.eraseP fun o => o.number = last.number }
  | none => log

/-- The log with one more outlet. -/
def attach (log : Log Stream) (stream : Stream) : Log Stream :=
  let outlet : Outlet Stream := ⟨log.opened, stream⟩
  { log with
    outlets := log.outlets ++ [outlet]
    current := some outlet
    opened := log.opened + 1 }

/-- The log with an outlet to a stream in the place of the last one. -/
def redirect (log : Log Stream) (stream : Stream) : Log Stream := log.detach.attach stream

/-- The log with a new stream and, if its name is known, a new threshold, which is also
reported. -/
def setup (log : Log Stream) (stream : Stream) (name : Text) :
    Except UnknownLevel Level × Log Stream :=
  match LevelName.ofText? (Text.upper name) with
  | some known =>
      (.ok known.level, { log.redirect stream with threshold := known.level, decisions := [] })
  | none => (.error ⟨Text.upper name⟩, log.redirect stream)

/-! ## Records -/

/-- The decision about a message that was made before. -/
def decision? (log : Log Stream) (m : Message) : Option Decision :=
  log.decisions.find? fun d => d.logger = m.logger ∧ d.rank = m.rank

/-- Whether a message is grave enough: as decided before, or by the threshold for its logger. -/
def passes (log : Log Stream) (m : Message) : Bool :=
  match log.decision? m with
  | some d => d.passes
  | none => (log.thresholdFor m.logger).rank.value ≤ m.rank.value

/-- The outlets that the messages of a logger find. -/
def outletsFor (log : Log Stream) (logger : Text) : List (Outlet Stream) :=
  if log.covers logger then log.outlets else []

/-- The lines that are written for a message, each with its stream.  Where there is no outlet, the
error stream takes warnings and what is graver. -/
def deliveries (log : Log Stream) (errors : Stream) (m : Message) : List (Stream × Text) :=
  if log.passes m then
    match log.outletsFor m.logger with
    | [] => if Level.warning.rank.value ≤ m.rank.value then [(errors, m.bare)] else []
    | outlets => outlets.map fun o => (o.stream, m.text)
  else []

/-- Whether a logger is in use. -/
def isInUse (log : Log Stream) (logger : Text) : Bool := log.loggers.any fun l => l = logger

/-- The log with a logger in use. -/
def enlist (log : Log Stream) (logger : Text) : Log Stream :=
  if log.isInUse logger then log else { log with loggers := logger :: log.loggers }

/-- The log with the decision about a message. -/
def decided (log : Log Stream) (m : Message) : Log Stream :=
  { log with decisions := ⟨m.logger, m.rank, log.passes m⟩ :: log.decisions }

/-- The lines that are written for a message, each with its stream; and the log behind it. -/
def record (log : Log Stream) (errors : Stream) (m : Message) :
    List (Stream × Text) × Log Stream :=
  (log.deliveries errors m, (log.decided m).enlist m.logger)

end Log

end CallDiagram
