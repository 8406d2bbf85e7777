import CallDiagram.Number.Binary64

/-!
# Decimal texts of double-precision numbers

Two texts of a number are needed: the full one, with the fewest digits that read back as the
number, and the brief one, with the value rounded to six digits.

* `Binary64.shortest` — the digits of the full text: on the coarsest decimal grid that has a point
  rounding to the number, the point nearest to it;
* `Binary64.rounded` — the digits of the brief text;
* `Decimal.write` — a decimal in positional or exponent form, as a `Layout` decides;
* `Binary64.full`, `Binary64.brief` — the two texts.
-/

namespace CallDiagram

/-- The decimal number `digits · 10 ^ exponent`. -/
structure Decimal where
  /-- The digits, as one number. -/
  digits : Nat
  /-- The power of ten of the last digit. -/
  exponent : Int
  deriving DecidableEq, Repr

/-- When a decimal is written positionally, and whether a whole number keeps its point. -/
structure Layout where
  /-- The least exponent of the first digit that is written positionally. -/
  least : Int
  /-- The first exponent of the first digit beyond those. -/
  beyond : Int
  /-- Whether a whole number in positional form ends in `.0`. -/
  keepsPoint : Bool

/-- Full texts are positional from 0.0001 to below 10 ^ 16 and always show a point or an
exponent. -/
def Layout.full : Layout := ⟨-4, 16, true⟩

/-- Brief texts are positional from 0.0001 to below 10 ^ 6 and show no needless point. -/
def Layout.brief : Layout := ⟨-4, 6, false⟩

namespace Decimal

/-- The same number without zeros at the end of its digits.  The fuel bounds their number. -/
def stripZeros : Nat → Decimal → Decimal
  | 0, d => d
  | fuel + 1, d =>
      if d.digits % 10 = 0 ∧ d.digits ≠ 0 then stripZeros fuel ⟨d.digits / 10, d.exponent + 1⟩
      else d

/-- An exponent: a sign and at least two digits. -/
def exponentText (e : Int) : Text :=
  (if e < 0 then '-' else '+') ::
    ((if e.natAbs < 10 then ['0'] else []) ++ Text.natural e.natAbs)

/-- The text of a decimal whose last digit is not zero. -/
def write (layout : Layout) (d : Decimal) : Text :=
  let digits := Text.natural d.digits
  let point : Int := digits.length + d.exponent
  if layout.least ≤ point - 1 ∧ point - 1 < layout.beyond then
    if point ≤ 0 then '0' :: '.' :: (List.replicate (-point).toNat '0' ++ digits)
    else if d.exponent < 0 then digits.take point.toNat ++ '.' :: digits.drop point.toNat
    else digits ++ List.replicate d.exponent.toNat '0'
      ++ (if layout.keepsPoint then ['.', '0'] else [])
  else
    digits.take 1 ++ (if digits.length = 1 then [] else '.' :: digits.drop 1)
      ++ 'e' :: exponentText (point - 1)

end Decimal

namespace Binary64

/-- The magnitude `mantissa · 2 ^ exponent` times a power of ten, as a fraction. -/
def timesTen (mantissa : Nat) (exponent power : Int) : Nat × Nat :=
  let s := scaled mantissa 1 exponent
  if 0 ≤ power then (s.1 * Nat.pow 10 power.toNat, s.2)
  else (s.1, s.2 * Nat.pow 10 (-power).toNat)

/-- The number of digits in front of the decimal point, counted below zero for small magnitudes:
`p` with `10 ^ (p - 1) ≤ magnitude < 10 ^ p`. -/
def pointPlace (mantissa : Nat) (exponent : Int) : Int :=
  let s := timesTen mantissa exponent 400
  ((Text.natural (s.1 / s.2)).length : Int) - 400

/-- Of the two neighbours of a magnitude on the grid of `10 ^ grid`, the nearest one that rounds to
the magnitude; a tie goes to the even one. -/
def onGrid? (mantissa : Nat) (exponent grid : Int) : Option Decimal :=
  let s := timesTen mantissa exponent (-grid)
  let below := s.1 / s.2
  let readsBack (n : Nat) := ofDecimal false n grid == .finite false mantissa exponent
  match readsBack below, readsBack (below + 1) with
  | true, true => some ⟨roundHalfEven s.1 s.2, grid⟩
  | true, false => some ⟨below, grid⟩
  | false, true => some ⟨below + 1, grid⟩
  | false, false => none

/-- The first hit on the grids with `count`, `count + 1`, … digits; `fuel` grids are tried. -/
def firstHit (mantissa : Nat) (exponent point : Int) : Nat → Nat → Decimal
  | 0, count => ⟨mantissa, point - count⟩
  | fuel + 1, count =>
      match onGrid? mantissa exponent (point - count) with
      | some d => d
      | none => firstHit mantissa exponent point fuel (count + 1)

/-- The decimal with the fewest digits that rounds to a positive magnitude: seventeen always
suffice. -/
def shortest (mantissa : Nat) (exponent : Int) : Decimal :=
  (firstHit mantissa exponent (pointPlace mantissa exponent) 17 1).stripZeros 20

/-- A positive magnitude rounded to `count` digits. -/
def rounded (count : Nat) (mantissa : Nat) (exponent : Int) : Decimal :=
  let grid := pointPlace mantissa exponent - count
  let s := timesTen mantissa exponent (-grid)
  (Decimal.mk (roundHalfEven s.1 s.2) grid).stripZeros (count + 1)

/-- The text of a number, given the digits of a positive magnitude. -/
def textWith (layout : Layout) (digits : Nat → Int → Decimal) : Binary64 → Text
  | .nan => "nan"
  | .infinite negative => (if negative then ['-'] else []) ++ ("inf" : Text)
  | .finite negative mantissa exponent =>
      (if negative then ['-'] else []) ++
        (if mantissa = 0 then Decimal.write layout ⟨0, 0⟩
         else Decimal.write layout (digits mantissa exponent))

/-- The shortest text that reads back as the number. -/
def full : Binary64 → Text := textWith .full shortest

/-- The text of the number rounded to six digits. -/
def brief : Binary64 → Text := textWith .brief (rounded 6)

end Binary64

end CallDiagram
