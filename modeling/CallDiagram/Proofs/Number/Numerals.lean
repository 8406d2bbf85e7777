import CallDiagram.Number.Reading
import CallDiagram.Proofs.Document.Numbering
import Mathlib

/-!
# Numerals in settings

A whole number that is read has few enough digits to be written, and its numeral is read back.

* `of_isDigit` — what holds of the ten digits holds of every digit;
* `isWritable_of_integer?` — a number that was read can be written;
* `integer?_natural` — a numeral is read back.
-/

namespace CallDiagram.Number

/-- What holds of the ten digits holds of every digit. -/
theorem of_isDigit {P : Char → Prop} (h : ∀ d : Fin 10, P (Char.ofNat (48 + d))) {c : Char}
    (hc : c.isDigit = true) : P c := by
  have hrange : 48 ≤ c.toNat ∧ c.toNat ≤ 57 := by
    simp only [Char.isDigit, Bool.and_eq_true, decide_eq_true_eq, ge_iff_le,
      UInt32.le_iff_toNat_le] at hc
    exact hc
  have hd := h ⟨c.toNat - 48, by omega⟩
  rwa [Nat.add_sub_cancel' hrange.1, Char.ofNat_toNat] at hd

theorem isBlank_of_isDigit {c : Char} (hc : c.isDigit = true) : isBlank c = false :=
  of_isDigit (P := fun c => isBlank c = false) (by decide) hc

theorem westernDigit_of_isDigit {c : Char} (hc : c.isDigit = true) : westernDigit c = c :=
  of_isDigit (P := fun c => westernDigit c = c) (by decide) hc

/-! ## Numbers that were read -/

theorem ofDigitChars_lt {digits : Text} (h : ∀ c ∈ digits, c.isDigit = true) :
    Nat.ofDigitChars 10 digits 0 < 10 ^ digits.length := by
  induction digits with
  | nil => simp
  | cons c digits ih =>
    have hfirst : c.toNat - '0'.toNat < 10 :=
      of_isDigit (P := fun c => c.toNat - '0'.toNat < 10) (by decide) (h c List.mem_cons_self)
    have hrest := ih fun d hd => h d (List.mem_cons_of_mem _ hd)
    rw [Nat.ofDigitChars_cons, Nat.ofDigitChars_eq_ofDigitChars_zero, Nat.mul_zero, Nat.zero_add,
      List.length_cons, Nat.pow_succ]
    calc 10 ^ digits.length * (c.toNat - '0'.toNat) + Nat.ofDigitChars 10 digits 0
        < 10 ^ digits.length * (c.toNat - '0'.toNat) + 10 ^ digits.length := by omega
      _ = 10 ^ digits.length * (c.toNat - '0'.toNat + 1) := by rw [Nat.mul_add, Nat.mul_one]
      _ ≤ 10 ^ digits.length * 10 := Nat.mul_le_mul_left _ (by omega)

/-- A whole number that was read has few enough digits to be written. -/
theorem isWritable_of_integer? {text : Text} {n : Int} (h : integer? text = some n) :
    isWritable n = true := by
  obtain ⟨grouped, -, h⟩ := Option.bind_eq_some_iff.1 h
  generalize signed grouped = parts at h
  obtain ⟨negative, digits⟩ := parts
  dsimp only at h
  split at h
  · simp at h
  · rename_i hdigits
    simp only [Bool.or_eq_true, not_or, decide_eq_true_eq, Bool.not_eq_true', Bool.not_eq_false,
      List.all_eq_true] at hdigits
    obtain ⟨⟨hne, hall⟩, hlength⟩ := hdigits
    have habs : n.natAbs = Nat.ofDigitChars 10 digits 0 := by
      rw [← Option.some.inj h]
      split <;> simp
    have hpos : 0 < digits.length := List.length_pos_iff.2 (by simpa using hne)
    rw [isWritable, decide_eq_true_iff, habs]
    calc (Text.natural (Nat.ofDigitChars 10 digits 0)).length
        ≤ digits.length := (length_natural_le_iff hpos).2 (ofDigitChars_lt hall)
      _ ≤ digitLimit := Nat.le_of_not_lt hlength

/-! ## Numerals -/

section Digits

variable {digits : Text} (h : ∀ c ∈ digits, c.isDigit = true)

include h

/-- Digits are taken as they are. -/
theorem numeral_of_digits : numeral digits = digits := by
  have hkeep : ∀ text : Text, (∀ c ∈ text, c.isDigit = true) → text.dropWhile isSpacing = text := by
    intro text hall
    cases text with
    | nil => rfl
    | cons c text =>
      have hc : isSpacing c = false := by
        simp [isSpacing, isBlank_of_isDigit (hall c List.mem_cons_self)]
      rw [List.dropWhile_cons_of_neg (by simp [hc])]
  rw [numeral, hkeep digits h, hkeep digits.reverse fun c hc => h c (List.mem_reverse.1 hc),
    List.reverse_reverse]
  calc digits.map westernDigit
      = digits.map id := List.map_congr_left fun c hc => westernDigit_of_isDigit (h c hc)
    _ = digits := List.map_id digits

theorem ungroup?_of_digits (behindDigit : Bool) : ungroup? behindDigit digits = some digits := by
  induction digits generalizing behindDigit with
  | nil => rfl
  | cons c digits ih =>
    have hc : c ≠ '_' := by
      rintro rfl
      exact absurd (h '_' List.mem_cons_self) (by decide)
    have hrest := ih (fun d hd => h d (List.mem_cons_of_mem _ hd)) c.isDigit
    simp [ungroup?, hc, hrest]

theorem signed_of_digits : signed digits = (false, digits) := by
  unfold signed
  split
  · exact absurd (h '-' List.mem_cons_self) (by decide)
  · exact absurd (h '+' List.mem_cons_self) (by decide)
  · rfl

end Digits

/-- A numeral is read back. -/
theorem integer?_natural {n : Nat} (h : isWritable n = true) :
    integer? (Text.natural n) = some (n : Int) := by
  have hdigits : ∀ c ∈ Text.natural n, c.isDigit = true := fun c hc => isDigit_of_mem_natural hc
  have hvalue : Nat.ofDigitChars 10 (Text.natural n) 0 = n :=
    Nat.ofDigitChars_toDigits (by decide) (by decide)
  have hne : Text.natural n ≠ [] := Nat.toDigits_ne_nil
  have hlength : ¬ digitLimit < (Text.natural n).length := by
    simpa [isWritable] using h
  rw [integer?, numeral_of_digits hdigits, ungroup?_of_digits hdigits]
  simp only [Option.bind_eq_bind, Option.bind_some, signed_of_digits hdigits, hvalue]
  simp [hne, hlength, List.all_eq_true.2 hdigits]

end CallDiagram.Number
