import CallDiagram.CommandLine.Token
import CallDiagram.Settings.Format
import CallDiagram.Text.Quoted

/-!
# Scanning a command line

The words of a command line are taken in order.  An option takes its value from its own word or from
the next one, which must be an operand; options with short names and without values may share a
word.  The first operand is the one that the grammar asks for.  What is left over is kept for the
complaint about it.

* `Stop` — why a command line is not carried out: a wish for help, or misuse;
* `Flag.opened` — an option with a value in its own word, which may hold further options;
* `Scanned`, `Grammar.scan` — the options, the operand and the rest.
-/

namespace CallDiagram.CommandLine

/-- Why a command line is not carried out. -/
inductive Stop where
  /-- The usage was asked for. -/
  | help (grammar : Grammar)
  /-- The words do not fit the grammar. -/
  | misuse (grammar : Grammar) (complaint : Text)
  deriving DecidableEq, Repr

/-- A complaint about an option. -/
def Stop.flag (g : Grammar) (flag : Flag) (complaint : Text) : Stop :=
  .misuse g ("argument " ++ flag.title ++ ": " ++ complaint)

/-- An option with its value.  An option that takes none has none. -/
abbrev Hit := Flag × Option Text

/-- What the words of a command line say. -/
structure Scanned where
  /-- The options, in order. -/
  hits : List (Purpose × Text) := []
  /-- The words of the operand. -/
  operand : Option (List Text) := none
  /-- The words that have no place. -/
  extras : List Text := []
  deriving DecidableEq, Repr

/-- What a word with options comes to: options, and perhaps one that needs the next word. -/
structure Opened where
  /-- The options with their values. -/
  hits : List Hit := []
  /-- The option that takes its value from the next word. -/
  pending : Option Flag := none
  deriving DecidableEq, Repr

/-- The complaint about a value for an option that takes none. -/
def Stop.ignored (g : Grammar) (flag : Flag) (value : Text) : Stop :=
  .flag g flag ("ignored explicit argument " ++ value.quoted)

/-- An option without a value in its own word. -/
def Flag.bare (flag : Flag) : Opened :=
  if flag.takesValue then { pending := some flag } else { hits := [(flag, none)] }

/-- The value that a text in the word of an option is.  Two dashes are none. -/
def valueOf? (text : Text) : Option Text := if text = ['-', '-'] then none else some text

/-- An option with a value in its own word. -/
def Flag.valued (flag : Flag) (value : Text) : Opened := { hits := [(flag, valueOf? value)] }

/-- An option in front of what the rest of its word comes to. -/
def Opened.push (flag : Flag) (o : Opened) : Opened := { o with hits := (flag, none) :: o.hits }

/-- An option under a short name and the text that follows it in its word.  If it takes no value the
text holds further options. -/
def Flag.openedShort (g : Grammar) (flag : Flag) : Text → Except Stop Opened
  | [] => if flag.takesValue then .ok (flag.valued []) else .error (.ignored g flag [])
  | c :: rest =>
      if flag.takesValue then .ok (flag.valued (c :: rest))
      else
        match g.flag? ['-', c] with
        | none => .error (.ignored g flag (c :: rest))
        | some next =>
            match rest with
            | [] => .ok (next.bare.push flag)
            | d :: more => (next.openedShort g (d :: more)).map (Opened.push flag)

/-- An option under a name, with the value in its word if there is one. -/
def Flag.opened (g : Grammar) (flag : Flag) (name : Text) : Option Text → Except Stop Opened
  | none => .ok flag.bare
  | some value =>
      if Text.startsWith name ['-', '-'] then
        if flag.takesValue then .ok (flag.valued value) else .error (.ignored g flag value)
      else flag.openedShort g value

/-- The purposes of options with their values; where there is none the value is empty.  A wish for
help ends the scan; a format must be known, and counts under its usual name. -/
def settle (g : Grammar) : List Hit → Except Stop (List (Purpose × Text))
  | [] => .ok []
  | (flag, value) :: rest =>
      match flag.purpose, value with
      | .help, _ => .error (.help g)
      | .format, some value =>
          match Format.read value with
          | .ok format => (settle g rest).map ((.format, format.name) :: ·)
          | .error _ =>
              .error (.flag g flag ("invalid check_format value: " ++ value.quoted))
      | purpose, value => (settle g rest).map ((purpose, value.getD []) :: ·)

/-- How far the operand is. -/
inductive Stage where
  /-- It is still to come. -/
  | awaited
  /-- It was the word before this. -/
  | justTaken
  /-- It has been taken. -/
  | taken
  deriving DecidableEq, Repr

namespace Scanned

/-- Options in front. -/
def withHits (hits : List (Purpose × Text)) (s : Scanned) : Scanned :=
  { s with hits := hits ++ s.hits }

/-- A word without a place in front. -/
def withExtra (word : Text) (s : Scanned) : Scanned := { s with extras := word :: s.extras }

end Scanned

/-- The stage behind an option. -/
def Stage.behindFlag : Stage → Stage
  | .awaited => .awaited
  | _ => .taken

/-- Scans the words behind some options, the last of which may need a value. -/
def scanFrom (g : Grammar) : Option (List Hit × Flag) → Stage → List (Token × Text) →
    Except Stop Scanned
  | some (_, flag), _, [] => .error (.flag g flag "expected one argument")
  | some (held, flag), stage, (.operand, word) :: rest => do
      let hits ← settle g (held ++ [(flag, some word)])
      (scanFrom g none stage rest).map (Scanned.withHits hits)
  | some (_, flag), _, _ :: _ => .error (.flag g flag "expected one argument")
  | none, _, [] => .ok {}
  | none, stage, (.operand, word) :: rest =>
      if stage = .awaited then
        if g.takesRest then .ok { operand := some (word :: rest.map Prod.snd) }
        else
          (scanFrom g none .justTaken rest).map fun s => { s with operand := some [word] }
      else (scanFrom g none .taken rest).map (Scanned.withExtra word)
  | none, stage, (.dashes, word) :: rest =>
      match stage with
      | .awaited =>
          if rest.isEmpty then .ok { extras := [word] }
          else if g.takesRest then .ok { operand := some (word :: rest.map Prod.snd) }
          else scanFrom g none .awaited rest
      | .justTaken => scanFrom g none .taken rest
      | .taken => (scanFrom g none .taken rest).map (Scanned.withExtra word)
  | none, stage, (.unknown, word) :: rest =>
      (scanFrom g none stage.behindFlag rest).map (Scanned.withExtra word)
  | none, stage, (.flag flag name value, _) :: rest => do
      let opened ← flag.opened g name value
      match opened.pending with
      | some next => scanFrom g (some (opened.hits, next)) stage.behindFlag rest
      | none =>
          let hits ← settle g opened.hits
          let s ← scanFrom g none stage.behindFlag rest
          .ok (s.withHits hits)

/-- Scans a command line. -/
def Grammar.scan (g : Grammar) (words : List Text) : Except Stop Scanned :=
  match Token.ofWords g words with
  | .error complaint => .error (.misuse g complaint)
  | .ok tokens => scanFrom g none .awaited tokens

namespace Scanned

/-- Whether an option is among those scanned. -/
def has (s : Scanned) (purpose : Purpose) : Bool := s.hits.any fun h => h.1 = purpose

/-- The last value of an option; an empty one counts as none. -/
def value? (s : Scanned) (purpose : Purpose) : Option Text :=
  Text.nonempty? (s.hits.reverse.lookup purpose)

end Scanned

end CallDiagram.CommandLine
