import CallDiagram.Text.Digit
import CallDiagram.Number.Binary64
import CallDiagram.Number.Limit

/-!
# Reading numbers that people write

Settings hold numbers as people write them: blanks around, digits of any script, single underscores
between digits, a sign.  A whole number may have at most 4300 digits.  A decimal number may also be
infinite or not a number, in letters of either case.

* `Number.integer?` — whole numbers;
* `Number.real?` — decimal numbers, rounded to double precision.
-/

namespace CallDiagram.Number

/-- Whether a character may stand around a number: a blank other than the information
separators. -/
def isSpacing (c : Char) : Bool := isBlank c && !(0x1C ≤ c.toNat && c.toNat ≤ 0x1F)

/-- A digit of any script becomes the ASCII digit of the same value. -/
def westernDigit (c : Char) : Char :=
  match digitValue? c with
  | some d => Nat.digitChar d
  | none => c

/-- The text between the blanks around a number, with ASCII digits. -/
def numeral (text : Text) : Text :=
  ((((text.dropWhile isSpacing).reverse).dropWhile isSpacing).reverse).map westernDigit

/-- The text without underscores, each of which must stand between two digits. -/
def ungroup? (behindDigit : Bool) : Text → Option Text
  | [] => some []
  | '_' :: c :: rest =>
      if behindDigit && c.isDigit then (ungroup? true rest).map (c :: ·) else none
  | c :: rest =>
      if c = '_' then none else (ungroup? c.isDigit rest).map (c :: ·)

/-- A sign in front of a numeral, and what follows it. -/
def signed : Text → Bool × Text
  | '-' :: rest => (true, rest)
  | '+' :: rest => (false, rest)
  | rest => (false, rest)

/-- The whole number that a text writes. -/
def integer? (text : Text) : Option Int := do
  let (negative, digits) := signed (← ungroup? false (numeral text))
  if digits.isEmpty || !digits.all Char.isDigit || digitLimit < digits.length then none
  else
    let n : Int := Nat.ofDigitChars 10 digits 0
    some (if negative then -n else n)

/-- The exponent part of a decimal number: absent, or a letter, a sign and digits. -/
def exponent? : Text → Option Int
  | [] => some 0
  | c :: rest =>
      if c = 'e' ∨ c = 'E' then
        let (negative, digits) := signed rest
        if digits.isEmpty || !digits.all Char.isDigit then none
        else
          let n : Int := Nat.ofDigitChars 10 digits 0
          some (if negative then -n else n)
      else none

/-- An unsigned decimal number: digits with at most one point among them, and an exponent. -/
def magnitude? (negative : Bool) (text : Text) : Option Binary64 := do
  let whole := text.takeWhile Char.isDigit
  let (fraction, rest) :=
    match text.dropWhile Char.isDigit with
    | '.' :: rest => (rest.takeWhile Char.isDigit, rest.dropWhile Char.isDigit)
    | rest => ([], rest)
  if whole.isEmpty && fraction.isEmpty then none
  else
    let e ← exponent? rest
    some (.ofDecimal negative (Nat.ofDigitChars 10 (whole ++ fraction) 0) (e - fraction.length))

/-- The number that a text writes, rounded to double precision. -/
def real? (text : Text) : Option Binary64 := do
  let (negative, rest) := signed (← ungroup? false (numeral text))
  let word := rest.map Char.toLower
  if word = ("inf" : Text) ∨ word = ("infinity" : Text) then some (.infinite negative)
  else if word = ("nan" : Text) then some .nan
  else magnitude? negative rest

end CallDiagram.Number
