import CallDiagram.Text.Basic

/-!
# Double-precision numbers

The numbers of the 64-bit binary format as exact values: a finite one is its sign, a mantissa below
2 ^ 53 and a power of two.  Decimal numerals are rounded to the nearest number, a half to the even
mantissa; what is too large becomes infinite.

* `Binary64` — the type; equality is equality of representations, so `nan` equals itself and the
  two zeros differ;
* `Binary64.ofDecimal` — the nearest number to `digits · 10 ^ exponent`;
* `roundHalfEven` — the rounding rule, with its error bound `roundHalfEven_bounds`.
-/

namespace CallDiagram

/-- The quotient rounded to the nearest whole number, a half to the even one. -/
def roundHalfEven (num den : Nat) : Nat :=
  let q := num / den
  let r := num % den
  if 2 * r < den then q
  else if den < 2 * r then q + 1
  else if q % 2 = 0 then q else q + 1

/-- The rounded quotient is at most half a unit away. -/
theorem roundHalfEven_bounds {num den : Nat} (h : 0 < den) :
    2 * num ≤ 2 * den * roundHalfEven num den + den ∧
      2 * den * roundHalfEven num den ≤ 2 * num + den := by
  have hdiv := Nat.div_add_mod num den
  have hlt := Nat.mod_lt num h
  have e : 2 * den * (num / den) = 2 * (den * (num / den)) := by rw [Nat.mul_assoc]
  have e' : 2 * den * (num / den + 1) = 2 * (den * (num / den)) + 2 * den := by
    rw [Nat.mul_add, e, Nat.mul_one]
  unfold roundHalfEven
  simp only
  split
  · rw [e]; omega
  · split
    · rw [e']; omega
    · split
      · rw [e]; omega
      · rw [e']; omega

/-- A double-precision number. -/
inductive Binary64 where
  /-- `± mantissa · 2 ^ exponent`. -/
  | finite (negative : Bool) (mantissa : Nat) (exponent : Int)
  /-- Positive or negative infinity. -/
  | infinite (negative : Bool)
  /-- Not a number. -/
  | nan
  deriving DecidableEq, Repr

namespace Binary64

/-- The bound below which mantissas stay, 2 ^ 53. -/
def mantissaBound : Nat := 9007199254740992

/-- The zero of a sign. -/
def zero (negative : Bool) : Binary64 := .finite negative 0 (-1074)

/-- A fraction times a power of two, as a fraction. -/
def scaled (num den : Nat) (power : Int) : Nat × Nat :=
  if 0 ≤ power then (num <<< power.toNat, den) else (num, den <<< (-power).toNat)

/-- The number nearest to a positive fraction. -/
def ofFraction (negative : Bool) (num den : Nat) : Binary64 :=
  let estimate : Int := (num.log2 : Int) - den.log2 - 53
  let exponent : Int :=
    let s := scaled num den (-estimate)
    max (-1074) (if mantissaBound * s.2 ≤ s.1 then estimate + 1 else estimate)
  let s := scaled num den (-exponent)
  let mantissa := roundHalfEven s.1 s.2
  if mantissa = mantissaBound then
    if exponent < 971 then .finite negative (mantissaBound / 2) (exponent + 1)
    else .infinite negative
  else if exponent ≤ 971 then .finite negative mantissa exponent
  else .infinite negative

/-- The number nearest to `± digits · 10 ^ exponent`.  Outside the range that 310 places cover the
answer is known without computing the power. -/
def ofDecimal (negative : Bool) (digits : Nat) (exponent : Int) : Binary64 :=
  let places : Int := (Text.natural digits).length + exponent
  if digits = 0 then zero negative
  else if 310 < places then .infinite negative
  else if places < -330 then zero negative
  else if 0 ≤ exponent then ofFraction negative (digits * Nat.pow 10 exponent.toNat) 1
  else ofFraction negative digits (Nat.pow 10 (-exponent).toNat)

/-- Whether a number is zero or below.  `nan` is not. -/
def isNonpositive : Binary64 → Bool
  | .finite negative mantissa _ => negative || mantissa == 0
  | .infinite negative => negative
  | .nan => false

/-- Whether a number is one of the two zeros. -/
def isZero : Binary64 → Bool
  | .finite _ mantissa _ => mantissa == 0
  | _ => false

/-- Whether a number is neither infinite nor `nan`. -/
def isFinite : Binary64 → Bool
  | .finite .. => true
  | _ => false

end Binary64

end CallDiagram
