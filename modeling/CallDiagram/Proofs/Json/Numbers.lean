import CallDiagram.Json.Reader
import CallDiagram.Proofs.Document.Numbering

/-!
# Reading whole numbers that were written

A whole number that is written is read back in front of anything that does not go on with it, unless
it has too many digits.

* `EndsNumber` — what a number may stand in front of;
* `scalar_integer` — reading the number.
-/

namespace CallDiagram.Json

/-- What ends the number in front of it. -/
def EndsNumber (rest : Text) : Prop :=
  ∀ c ∈ rest.head?, c.isDigit = false ∧ c ≠ '.' ∧ c ≠ 'e' ∧ c ≠ 'E'

/-- The first digit of a number is zero for the number zero only. -/
theorem head?_natural {n : Nat} (h : 0 < n) : (Text.natural n).head? ≠ some '0' := by
  induction n using Nat.strongRecOn with
  | ind n ih =>
    rw [Text.natural]
    by_cases hsmall : n < 10
    · have hall : ∀ d : Fin 10, 0 < d.val → Nat.digitChar d ≠ '0' := by decide
      rw [Nat.toDigits_of_lt_base hsmall]
      simpa using hall ⟨n, hsmall⟩ h
    · rw [Nat.toDigits_of_base_le (by omega) (by omega),
        List.head?_append_of_ne_nil _ Nat.toDigits_ne_nil]
      exact ih (n / 10) (by omega) (by omega)

theorem fraction_of_endsNumber {rest : Text} (h : EndsNumber rest) :
    fraction rest = ([], rest) := by
  cases rest with
  | nil => rfl
  | cons c rest =>
    have hdot : c ≠ '.' := (h c rfl).2.1
    unfold fraction
    split <;> simp_all

theorem exponent?_of_endsNumber {rest : Text} (h : EndsNumber rest) : exponent? rest = none := by
  cases rest with
  | nil => rfl
  | cons c rest =>
    obtain ⟨-, -, he, hE⟩ := h c rfl
    simp [exponent?, he, hE]

/-- The digits of a number are taken as they are. -/
theorem wholeDigits?_natural (n : Nat) {rest : Text} (h : EndsNumber rest) :
    wholeDigits? (Text.natural n ++ rest) = some (Text.natural n, rest) := by
  rcases Nat.eq_zero_or_pos n with rfl | hn
  · rfl
  · have hdigits : ∀ c ∈ Text.natural n, c.isDigit = true := fun c hc => isDigit_of_mem_natural hc
    have hstop : rest.takeWhile Char.isDigit = [] ∧ rest.dropWhile Char.isDigit = rest := by
      cases rest with
      | nil => exact ⟨rfl, rfl⟩
      | cons c rest => simp [(h c rfl).1]
    have hne : Text.natural n ≠ [] := Nat.toDigits_ne_nil
    have hhead := head?_natural hn
    unfold wholeDigits?
    split
    · rename_i behind heq
      have := congrArg List.head? heq
      rw [List.head?_append_of_ne_nil _ hne] at this
      exact absurd this hhead
    · rw [List.takeWhile_append_of_pos hdigits, List.dropWhile_append_of_pos hdigits, hstop.1,
        hstop.2, List.append_nil, if_neg (by simpa using hne)]

/-- The digits of a number are read, unless there are too many. -/
theorem unsigned_natural (negative : Bool) (start : Text) (n : Nat) {rest : Text}
    (h : EndsNumber rest) :
    (unsigned negative start (Text.natural n ++ rest)).toOption
      = if Number.isWritable n then some (.int (if negative then -n else n), rest) else none := by
  have hvalue : Nat.ofDigitChars 10 (Text.natural n) 0 = n :=
    Nat.ofDigitChars_toDigits (by omega) (by omega)
  have hwritable : Number.isWritable n = decide ((Text.natural n).length ≤ Number.digitLimit) := rfl
  simp only [unsigned, wholeDigits?_natural n h, fraction_of_endsNumber h,
    exponent?_of_endsNumber h, List.isEmpty_nil, if_true]
  by_cases hlong : Number.digitLimit < (Text.natural n).length
  · have hnot : Number.isWritable n = false := by
      rw [hwritable, decide_eq_false (by omega)]
    rw [if_pos hlong, hnot]
    rfl
  · have hfits : Number.isWritable n = true := by
      rw [hwritable, decide_eq_true (by omega)]
    rw [if_neg hlong, hvalue, hfits]
    rfl

theorem exists_integer_eq_cons (n : Int) :
    ∃ c more, Text.integer n = c :: more ∧ (c.isDigit = true ∨ c = '-') := by
  obtain ⟨c, hlast, -⟩ := exists_getLast?_integer n
  cases hn : Text.integer n with
  | nil => simp [hn] at hlast
  | cons c more =>
    exact ⟨c, more, rfl, isDigit_or_minus_of_mem_integer (hn ▸ List.mem_cons_self)⟩

/-! ## Names -/

/-- No name of a value starts with a digit. -/
theorem named?_of_isDigit {c : Char} (h : c.isDigit = true) (rest : Text) :
    named? (c :: rest) = none := by
  have hne : ∀ d : Char, d.isDigit = false → d ≠ c := by
    rintro d hd rfl
    rw [h] at hd
    simp at hd
  simp [named?, names, Text.dropStem?, hne _ (show ('n' : Char).isDigit = false from rfl),
    hne _ (show ('t' : Char).isDigit = false from rfl),
    hne _ (show ('f' : Char).isDigit = false from rfl),
    hne _ (show ('N' : Char).isDigit = false from rfl),
    hne _ (show ('I' : Char).isDigit = false from rfl),
    hne _ (show ('-' : Char).isDigit = false from rfl)]

theorem named?_of_minus {c : Char} (h : c.isDigit = true) (rest : Text) :
    named? ('-' :: c :: rest) = none := by
  have hne : 'I' ≠ c := by
    rintro rfl
    simp at h
  simp [named?, names, Text.dropStem?, hne]

/-- A whole number is read back, unless it has too many digits. -/
theorem scalar_integer (n : Int) {rest : Text} (h : EndsNumber rest) :
    (scalar (Text.integer n ++ rest)).toOption
      = if Number.isWritable n then some (.int n, rest) else none := by
  have hfirst : ∀ m, ∃ c more, Text.natural m = c :: more ∧ c.isDigit = true := by
    intro m
    cases hm : Text.natural m with
    | nil => exact absurd hm Nat.toDigits_ne_nil
    | cons c more => exact ⟨c, more, rfl, isDigit_of_mem_natural (hm ▸ List.mem_cons_self)⟩
  cases n with
  | ofNat m =>
    obtain ⟨c, more, hm, hc⟩ := hfirst m
    have hread := unsigned_natural false (Text.natural m ++ rest) m h
    have hminus : c ≠ '-' := by
      rintro rfl
      simp at hc
    have hscalar : scalar (Text.natural m ++ rest)
        = unsigned false (Text.natural m ++ rest) (Text.natural m ++ rest) := by
      rw [hm, List.cons_append, scalar, named?_of_isDigit hc]
      intro rest' heq
      exact hminus (List.cons.inj heq).1
    rw [Text.integer, hscalar, hread]
    rfl
  | negSucc m =>
    obtain ⟨c, more, hm, hc⟩ := hfirst (m + 1)
    have hread := unsigned_natural true ('-' :: (Text.natural (m + 1) ++ rest)) (m + 1) h
    have hscalar : scalar ('-' :: (Text.natural (m + 1) ++ rest))
        = unsigned true ('-' :: (Text.natural (m + 1) ++ rest)) (Text.natural (m + 1) ++ rest) := by
      rw [hm, List.cons_append, scalar, named?_of_minus hc]
    rw [Text.integer, List.cons_append, hscalar, hread]
    rfl

end CallDiagram.Json
