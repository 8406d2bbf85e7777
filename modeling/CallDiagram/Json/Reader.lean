import CallDiagram.Json.Basic
import CallDiagram.Number.Limit
import CallDiagram.Text.Utf16

/-!
# Reading JSON

A reader of one value with nothing but blanks around it.  It takes `NaN`, `Infinity` and
`-Infinity` for numbers, keeps the last value of a repeated key, and refuses whole numbers of more
than 4300 digits.  A refusal names what is wrong and where: the readers below report how many
characters were left, from which `Json.read` computes position, line and column.

* `Json.Problem`, `Json.Refusal` — what can be wrong, and `Refusal.message`;
* `Json.units` — the inside of a string, as UTF-16 units and characters;
* `Json.value` — a value and what follows it;
* `Json.read` — a whole text.
-/

namespace CallDiagram.Json

/-- What is wrong with a text that is no JSON value. -/
inductive Problem where
  /-- The text starts with a byte order mark. -/
  | byteOrderMark
  /-- No value starts here. -/
  | value
  /-- A key should start here. -/
  | propertyName
  /-- A colon should stand here. -/
  | colon
  /-- A comma or a closing bracket should stand here. -/
  | comma
  /-- The value ended before this. -/
  | extraData
  /-- The string that starts here has no end. -/
  | unterminatedString
  /-- A control character inside a string. -/
  | controlCharacter
  /-- An unknown escape. -/
  | escape
  /-- An escape of a unit without four digits. -/
  | unicodeEscape
  /-- A whole number with too many digits. -/
  | tooManyDigits (count : Nat)
  deriving DecidableEq, Repr

/-- The wording of a problem. -/
def Problem.message : Problem → Text
  | .byteOrderMark => "Unexpected UTF-8 BOM (decode using utf-8-sig)"
  | .value => "Expecting value"
  | .propertyName => "Expecting property name enclosed in double quotes"
  | .colon => "Expecting ':' delimiter"
  | .comma => "Expecting ',' delimiter"
  | .extraData => "Extra data"
  | .unterminatedString => "Unterminated string starting at"
  | .controlCharacter => "Invalid control character at"
  | .escape => "Invalid \\escape"
  | .unicodeEscape => "Invalid \\uXXXX escape"
  | .tooManyDigits count =>
      "Exceeds the limit (4300 digits) for integer string conversion: value has "
        ++ Text.natural count
        ++ " digits; use sys.set_int_max_str_digits() to increase the limit"

/-- A problem and the number of characters from its place to the end of the text. -/
structure Fault where
  /-- What is wrong. -/
  problem : Problem
  /-- The number of characters from there on. -/
  left : Nat
  deriving DecidableEq, Repr

/-- A problem and its place in the text. -/
structure Refusal where
  /-- What is wrong. -/
  problem : Problem
  /-- The number of characters in front of the place. -/
  position : Nat
  /-- The number of the line, from one. -/
  line : Nat
  /-- The number of the column, from one. -/
  column : Nat
  deriving DecidableEq, Repr

/-- The wording of a refusal; a number that is too long has no place. -/
def Refusal.message (r : Refusal) : Text :=
  match r.problem with
  | .tooManyDigits _ => r.problem.message
  | _ =>
      r.problem.message ++ ": line " ++ Text.natural r.line ++ " column " ++ Text.natural r.column
        ++ " (char " ++ Text.natural r.position ++ ")"

/-- The refusal of a text for a fault in it. -/
def Fault.inText (text : Text) (fault : Fault) : Refusal :=
  let before := text.take (text.length - fault.left)
  ⟨fault.problem, before.length, before.count '\n' + 1,
    (before.reverse.takeWhile (· ≠ '\n')).length + 1⟩

/-- A reader takes a text apart into a result and the rest. -/
abbrev Reader (α : Type) := Text → Except Fault (α × Text)

/-- The blanks that the format allows between tokens. -/
def isSpace (c : Char) : Bool := c = ' ' || c = '\t' || c = '\n' || c = '\r'

/-- The text without blanks in front. -/
def skip (text : Text) : Text := text.dropWhile isSpace

/-! ## Strings -/

/-- The character of an escape of one letter. -/
def shortEscape? : Char → Option Char
  | '"' => some '"'
  | '\\' => some '\\'
  | '/' => some '/'
  | 'b' => some '\x08'
  | 'f' => some '\x0c'
  | 'n' => some '\n'
  | 'r' => some '\r'
  | 't' => some '\t'
  | _ => none

/-- The number that four hexadecimal digits write. -/
def unit? (a b c d : Char) : Option Nat := do
  some (((((← Text.hexValue? a) * 16 + (← Text.hexValue? b)) * 16) + (← Text.hexValue? c)) * 16
    + (← Text.hexValue? d))

/-- A number in front of the units of a string. -/
def ontoUnits (n : Nat) (r : List Nat × Text) : List Nat × Text := (n :: r.1, r.2)

/-- The inside of a string up to its closing quote, as code points and UTF-16 units.  The opening
quote stood in front of `inside`. -/
def units (inside : Text) : Reader (List Nat)
  | [] => .error ⟨.unterminatedString, inside.length + 1⟩
  | '"' :: rest => .ok ([], rest)
  | ['\\'] => .error ⟨.unterminatedString, inside.length + 1⟩
  | '\\' :: 'u' :: a :: b :: c :: d :: rest =>
      match unit? a b c d with
      | some n =>
          if rest.isEmpty then .error ⟨.unicodeEscape, rest.length + 5⟩
          else (units inside rest).map (ontoUnits n)
      | none => .error ⟨.unicodeEscape, rest.length + 5⟩
  | '\\' :: 'u' :: rest => .error ⟨.unicodeEscape, rest.length + 1⟩
  | '\\' :: c :: rest =>
      match shortEscape? c with
      | some e => (units inside rest).map (ontoUnits e.toNat)
      | none => .error ⟨.escape, rest.length + 2⟩
  | c :: rest =>
      if c.toNat < 0x20 then .error ⟨.controlCharacter, rest.length + 1⟩
      else (units inside rest).map (ontoUnits c.toNat)

/-- The inside of a string, behind its opening quote. -/
def string : Reader Text := fun text =>
  (units text text).map fun r => (Utf16.join r.1, r.2)

/-! ## Numbers and names -/

/-- The digits of a whole number without needless zeros. -/
def wholeDigits? : Text → Option (Text × Text)
  | '0' :: rest => some (['0'], rest)
  | text =>
      let digits := text.takeWhile Char.isDigit
      if digits.isEmpty then none else some (digits, text.dropWhile Char.isDigit)

/-- The digits behind a point; none if no digit follows the point. -/
def fraction : Text → Text × Text
  | '.' :: rest =>
      let digits := rest.takeWhile Char.isDigit
      if digits.isEmpty then ([], '.' :: rest) else (digits, rest.dropWhile Char.isDigit)
  | text => ([], text)

/-- The sign of an exponent, and what follows it. -/
def exponentSign : Text → Bool × Text
  | '-' :: rest => (true, rest)
  | '+' :: rest => (false, rest)
  | rest => (false, rest)

/-- An exponent; `none` if no digit follows the letter. -/
def exponent? : Text → Option (Int × Text)
  | [] => none
  | c :: rest =>
      if c = 'e' ∨ c = 'E' then
        let (negative, rest) := exponentSign rest
        let digits := rest.takeWhile Char.isDigit
        if digits.isEmpty then none
        else
          let n : Int := Nat.ofDigitChars 10 digits 0
          some (if negative then -n else n, rest.dropWhile Char.isDigit)
      else none

/-- A number behind its sign; `start` begins with the sign. -/
def unsigned (negative : Bool) (start : Text) : Reader Json := fun text =>
  match wholeDigits? text with
  | none => .error ⟨.value, start.length⟩
  | some (whole, rest) =>
      let (decimals, rest) := fraction rest
      match exponent? rest with
      | none =>
          if decimals.isEmpty then
            if Number.digitLimit < whole.length then
              .error ⟨.tooManyDigits whole.length, start.length⟩
            else
              let n : Int := Nat.ofDigitChars 10 whole 0
              .ok (.int (if negative then -n else n), rest)
          else
            .ok (.real (.ofDecimal negative (Nat.ofDigitChars 10 (whole ++ decimals) 0)
              (-decimals.length)), rest)
      | some (e, rest) =>
          .ok (.real (.ofDecimal negative (Nat.ofDigitChars 10 (whole ++ decimals) 0)
            (e - decimals.length)), rest)

/-- The values that have names. -/
def names : List (Text × Json) :=
  [("null", .null), ("true", .bool true), ("false", .bool false), ("NaN", .real .nan),
   ("Infinity", .real (.infinite false)), ("-Infinity", .real (.infinite true))]

/-- A value with a name. -/
def named? (text : Text) : Option (Json × Text) :=
  names.findSome? fun (name, value) => (Text.dropStem? name text).map ((value, ·))

/-- A value that is neither a string nor a list nor an object. -/
def scalar : Reader Json := fun text =>
  match named? text with
  | some r => .ok r
  | none =>
      match text with
      | '-' :: rest => unsigned true text rest
      | _ => unsigned false text text

/-! ## Values -/

mutual

/-- A value.  The fuel bounds the number of values and members in front of it and around it. -/
def value : Nat → Reader Json
  | 0, text => .error ⟨.value, text.length⟩
  | fuel + 1, text =>
      match text with
      | '"' :: rest => (string rest).map fun r => (.str r.1, r.2)
      | '{' :: rest =>
          match skip rest with
          | '}' :: rest => .ok (.object [], rest)
          | rest => (members fuel [] rest).map fun r => (.object r.1, r.2)
      | '[' :: rest =>
          match skip rest with
          | ']' :: rest => .ok (.list [], rest)
          | rest => (elements fuel rest).map fun r => (.list r.1, r.2)
      | _ => scalar text

/-- The members of an object behind the ones read, up to the closing brace. -/
def members : Nat → List (Text × Json) → Reader (List (Text × Json))
  | 0, _, text => .error ⟨.propertyName, text.length⟩
  | fuel + 1, fields, text =>
      match text with
      | '"' :: rest => do
          let (key, rest) ← string rest
          match skip rest with
          | ':' :: rest => do
              let (v, rest) ← value fuel (skip rest)
              match skip rest with
              | '}' :: rest => .ok (put key v fields, rest)
              | ',' :: rest => members fuel (put key v fields) (skip rest)
              | rest => .error ⟨.comma, rest.length⟩
          | rest => .error ⟨.colon, rest.length⟩
      | _ => .error ⟨.propertyName, text.length⟩

/-- The items of a list that is not empty, up to the closing bracket. -/
def elements : Nat → Reader (List Json)
  | 0, text => .error ⟨.value, text.length⟩
  | fuel + 1, text => do
      let (v, rest) ← value fuel text
      match skip rest with
      | ']' :: rest => .ok ([v], rest)
      | ',' :: rest => (elements fuel (skip rest)).map fun r => (v :: r.1, r.2)
      | rest => .error ⟨.comma, rest.length⟩

end

/-- A value with nothing but blanks around it.  A character takes two of the fuel at most: a bracket,
that of its list and that of the first item. -/
def whole (text : Text) : Except Fault Json := do
  let (v, rest) ← value (2 * (text.length + 1)) (skip text)
  match skip rest with
  | [] => .ok v
  | rest => .error ⟨.extraData, rest.length⟩

/-- The value that a text writes. -/
def read (text : Text) : Except Refusal Json :=
  match text with
  | '\uFEFF' :: _ => .error (Fault.inText text ⟨.byteOrderMark, text.length⟩)
  | _ => (whole text).mapError (Fault.inText text)

end CallDiagram.Json
