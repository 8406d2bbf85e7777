import CallDiagram.CommandLine.Grammar
import CallDiagram.Text.Digit

/-!
# The words of a command line

Every word is told apart before any of them is used: it names an option of the grammar, looks like
an option, or is an operand.  A long name may be cut short as long as only one option starts so; a
value may follow a name behind an equals sign, or a short name at once.  Behind two dashes there are
operands only.

* `Token` — the kinds of words;
* `Token.ofWord`, `Token.ofWords` — the kinds of one word, and of all.
-/

namespace CallDiagram.CommandLine

/-- A kind of word. -/
inductive Token where
  /-- An operand, or the value of an option. -/
  | operand
  /-- The two dashes in front of the last operands. -/
  | dashes
  /-- An option under one of its names, perhaps with a value in the same word. -/
  | flag (flag : Flag) (name : Text) (value : Option Text)
  /-- An option that the grammar does not have. -/
  | unknown
  deriving DecidableEq, Repr

/-- The text in front of the first equals sign and the text behind it. -/
def cutEquals? : Text → Option (Text × Text)
  | [] => none
  | c :: rest =>
      if c = '=' then some ([], rest) else (cutEquals? rest).map fun r => (c :: r.1, r.2)

/-- Whether a text is a row of digits of any script. -/
def isNumeral (text : Text) : Bool :=
  !text.isEmpty && text.all fun c => (digitValue? c).isSome

/-- Whether a text is a number behind a minus sign, with at most one point; a line break may
follow. -/
def isNegativeNumber (text : Text) : Bool :=
  let text := (Text.dropEnding? ['\n'] text).getD text
  match text with
  | '-' :: digits =>
      isNumeral digits ||
        match Text.cutLast? '.' digits with
        | some (whole, decimals) => (whole.isEmpty || isNumeral whole) && isNumeral decimals
        | none => false
  | _ => false

namespace Token

/-- The options that a word may stand for, with the names meant: for a long name all that start so,
for a short one the one that it starts with. -/
def candidates (g : Grammar) (word : Text) : List (Text × Flag × Option Text) :=
  if Text.startsWith word ['-', '-'] then
    let (stem, value) :=
      match cutEquals? word with
      | some (stem, value) => (stem, some value)
      | none => (word, none)
    (g.names.filter fun n => Text.startsWith n.1 stem).map fun n => (n.1, n.2, value)
  else
    (g.names.filter fun n => n.1 = word.take 2).map fun n => (n.1, n.2, some (word.drop 2))

/-- The kind of a word that starts with a dash and is no name of an option; or, if several options
could be meant, the complaint. -/
def ofDashed (g : Grammar) (word : Text) : Except Text Token :=
  match candidates g word with
  | [(name, f, value)] => .ok (.flag f name value)
  | [] => .ok (if isNegativeNumber word || ' ' ∈ word then .operand else .unknown)
  | several =>
      .error ("ambiguous option: " ++ word ++ " could match "
        ++ [',', ' '].intercalate (several.map Prod.fst))

/-- The kind of a word that is not two dashes. -/
def ofWord (g : Grammar) (word : Text) : Except Text Token :=
  if word.head? ≠ some '-' then .ok .operand
  else
    match g.flag? word with
    | some f => .ok (.flag f word none)
    | none =>
        if word = ['-'] then .ok .operand
        else
          match cutEquals? word with
          | some (name, value) =>
              match g.flag? name with
              | some f => .ok (.flag f name (some value))
              | none => ofDashed g word
          | none => ofDashed g word

/-- The words of a command line with their kinds. -/
def ofWords (g : Grammar) : List Text → Except Text (List (Token × Text))
  | [] => .ok []
  | word :: rest =>
      if word = ['-', '-'] then .ok ((.dashes, word) :: rest.map fun w => (.operand, w))
      else do
        let token ← ofWord g word
        .ok ((token, word) :: (← ofWords g rest))

end Token

end CallDiagram.CommandLine
