import CallDiagram.Text.Basic

/-!
# Long whole numbers

Whole numbers are read and written with at most 4300 digits; a sign does not count.

* `Number.digitLimit` — the limit;
* `Number.isWritable` — whether a number keeps to it (`isWritable_iff`);
* `Number.write` — the numeral of a number, or a `WritingError`.
-/

namespace CallDiagram.Number

/-- The most digits that a whole number may have. -/
def digitLimit : Nat := 4300

/-- Whether a whole number has few enough digits to be written. -/
def isWritable (n : Int) : Bool := (Text.natural n.natAbs).length ≤ digitLimit

theorem length_natural_le_iff {n digits : Nat} (h : 0 < digits) :
    (Text.natural n).length ≤ digits ↔ n < Nat.pow 10 digits :=
  Nat.length_toDigits_le_iff (by decide) h

/-- The numbers that can be written are those below a power of ten, on both sides of zero. -/
theorem isWritable_iff {n : Int} : isWritable n = true ↔ n.natAbs < Nat.pow 10 digitLimit :=
  decide_eq_true_iff.trans (length_natural_le_iff (by simp [digitLimit]))

/-- Why a number is not written. -/
inductive WritingError where
  /-- It has too many digits. -/
  | tooManyDigits
  deriving DecidableEq, Repr

/-- The wording of the refusal to write a number. -/
def WritingError.message : WritingError → Text
  | .tooManyDigits =>
      "Exceeds the limit (4300 digits) for integer string conversion; "
        ++ "use sys.set_int_max_str_digits() to increase the limit"

/-- The decimal numeral of a whole number, if it has few enough digits. -/
def write (n : Int) : Except WritingError Text :=
  if isWritable n then .ok (Text.integer n) else .error .tooManyDigits

end CallDiagram.Number
