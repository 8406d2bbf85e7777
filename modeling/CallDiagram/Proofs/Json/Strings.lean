import CallDiagram.Json.Reader
import CallDiagram.Json.Writer
import Mathlib.Tactic.Common

/-!
# Reading texts that were written

A text that is written between quotes is read back, whatever follows it.

* `ReadsAs` — what is read as a character, in front of anything;
* `readsAs_plainEscape`, `readsAs_asciiEscape` — the escapes of both layouts;
* `string_flatMap` — a whole text.
-/

namespace CallDiagram.Json

/-- What is read as a character, whatever follows. -/
def ReadsAs (c : Char) (escaped : Text) : Prop :=
  ∃ codes, (∀ tail, Utf16.join (codes ++ tail) = c :: Utf16.join tail) ∧
    ∀ inside rest, rest ≠ [] →
      units inside (escaped ++ rest) = (units inside rest).map fun r => (codes ++ r.1, r.2)

/-! ## Code points -/

theorem join_cons_toNat (c : Char) (tail : List Nat) :
    Utf16.join (c.toNat :: tail) = c :: Utf16.join tail := by
  have hvalid : c.toNat < 0xD800 ∨ 0xDFFF < c.toNat ∧ c.toNat < 0x110000 := c.valid
  have hsingle : Utf16.ofSingle c.toNat = c := by
    have hplain : Utf16.isSurrogate c.toNat = false := by
      simp [Utf16.isSurrogate, Utf16.isHigh, Utf16.isLow]
      omega
    rw [Utf16.ofSingle, hplain]
    exact Char.ofNat_toNat c
  cases tail with
  | nil =>
    show [Utf16.ofSingle c.toNat] = [c]
    rw [hsingle]
  | cons m tail =>
    have hhigh : Utf16.isHigh c.toNat = false := by
      simp [Utf16.isHigh]
      omega
    rw [Utf16.join, hhigh, hsingle]
    rfl

theorem join_units_append {c : Char} (h : 0x10000 ≤ c.toNat) (tail : List Nat) :
    Utf16.join (Utf16.units c ++ tail) = c :: Utf16.join tail := by
  have hvalid : c.toNat < 0xD800 ∨ 0xDFFF < c.toNat ∧ c.toNat < 0x110000 := c.valid
  have hpair : (Utf16.isHigh (0xD800 + (c.toNat - 0x10000) / 0x400) &&
      Utf16.isLow (0xDC00 + (c.toNat - 0x10000) % 0x400)) = true := by
    simp [Utf16.isHigh, Utf16.isLow]
    omega
  have hchar : Utf16.ofPair (0xD800 + (c.toNat - 0x10000) / 0x400)
      (0xDC00 + (c.toNat - 0x10000) % 0x400) = c := by
    have hvalue : 0x10000 + (0xD800 + (c.toNat - 0x10000) / 0x400 - 0xD800) * 0x400
        + (0xDC00 + (c.toNat - 0x10000) % 0x400 - 0xDC00) = c.toNat := by omega
    rw [Utf16.ofPair, hvalue]
    exact Char.ofNat_toNat c
  rw [Utf16.units, if_neg (by omega), List.cons_append, List.cons_append, List.nil_append,
    Utf16.join, if_pos hpair, hchar]

/-! ## Escapes -/

theorem hexValue?_digitChar {d : Nat} (h : d < 16) :
    Text.hexValue? (Nat.digitChar d) = some d := by
  have hall : ∀ d : Fin 16, Text.hexValue? (Nat.digitChar d) = some d.val := by decide
  exact hall ⟨d, h⟩

/-- The escape of a unit is read as the unit. -/
theorem units_unitEscape {n : Nat} (h : n < 0x10000) (inside : Text) {rest : Text}
    (hrest : rest ≠ []) :
    units inside (unitEscape n ++ rest) = (units inside rest).map (ontoUnits n) := by
  have hdigits : Text.hex 4 n = [Nat.digitChar (n / 16 / 16 / 16 % 16),
      Nat.digitChar (n / 16 / 16 % 16), Nat.digitChar (n / 16 % 16), Nat.digitChar (n % 16)] := rfl
  have hunit : unit? (Nat.digitChar (n / 16 / 16 / 16 % 16)) (Nat.digitChar (n / 16 / 16 % 16))
      (Nat.digitChar (n / 16 % 16)) (Nat.digitChar (n % 16)) = some n := by
    unfold unit?
    rw [hexValue?_digitChar (Nat.mod_lt _ (by omega)),
      hexValue?_digitChar (Nat.mod_lt _ (by omega)), hexValue?_digitChar (Nat.mod_lt _ (by omega)),
      hexValue?_digitChar (Nat.mod_lt _ (by omega))]
    refine congrArg some ?_
    omega
  rw [unitEscape, hdigits]
  simp only [List.cons_append, List.nil_append]
  rw [units, hunit]
  simp [hrest]

theorem readsAs_self {c : Char} (hquote : c ≠ '"') (hslash : c ≠ '\\') (h : 0x20 ≤ c.toNat) :
    ReadsAs c [c] := by
  refine ⟨[c.toNat], join_cons_toNat c, fun inside rest _ => ?_⟩
  rw [List.singleton_append, units]
  · rw [if_neg (by omega)]
    rfl
  all_goals simp_all

theorem readsAs_short {c d : Char} (h : shortEscape? d = some c) : ReadsAs c ['\\', d] := by
  have hd : d ≠ 'u' := by
    rintro rfl
    simp [shortEscape?] at h
  refine ⟨[c.toNat], join_cons_toNat c, fun inside rest _ => ?_⟩
  simp only [List.cons_append, List.nil_append]
  rw [units]
  · rw [h]
    rfl
  all_goals simp_all

theorem readsAs_unitEscape {c : Char} (h : c.toNat < 0x10000) :
    ReadsAs c (unitEscape c.toNat) :=
  ⟨[c.toNat], join_cons_toNat c, fun inside _ hrest => units_unitEscape h inside hrest⟩

theorem readsAs_pair {c : Char} (h : 0x10000 ≤ c.toNat) :
    ReadsAs c ((Utf16.units c).flatMap unitEscape) := by
  have hvalid : c.toNat < 0xD800 ∨ 0xDFFF < c.toNat ∧ c.toNat < 0x110000 := c.valid
  refine ⟨Utf16.units c, join_units_append h, fun inside rest hrest => ?_⟩
  rw [Utf16.units, if_neg (by omega)]
  simp only [List.flatMap_cons, List.flatMap_nil, List.append_nil, List.append_assoc]
  rw [units_unitEscape (by omega) inside (by simp [unitEscape]),
    units_unitEscape (by omega) inside hrest]
  cases units inside rest <;> rfl

/-- The escapes that both layouts share are short ones and those of control characters. -/
theorem commonEscape?_eq_some {c : Char} {escaped : Text} (h : commonEscape? c = some escaped) :
    (∃ d, shortEscape? d = some c ∧ escaped = ['\\', d]) ∨
      c.toNat < 0x20 ∧ escaped = unitEscape c.toNat := by
  unfold commonEscape? at h
  split_ifs at h with hsame hn hr ht hf hb hcontrol
  · left
    refine ⟨c, ?_, (Option.some.inj h).symm⟩
    rcases hsame with rfl | rfl <;> rfl
  · subst hn
    exact Or.inl ⟨'n', rfl, (Option.some.inj h).symm⟩
  · subst hr
    exact Or.inl ⟨'r', rfl, (Option.some.inj h).symm⟩
  · subst ht
    exact Or.inl ⟨'t', rfl, (Option.some.inj h).symm⟩
  · subst hf
    exact Or.inl ⟨'f', rfl, (Option.some.inj h).symm⟩
  · subst hb
    exact Or.inl ⟨'b', rfl, (Option.some.inj h).symm⟩
  · exact Or.inr ⟨hcontrol, (Option.some.inj h).symm⟩

theorem readsAs_of_commonEscape? {c : Char} {escaped : Text} (h : commonEscape? c = some escaped) :
    ReadsAs c escaped := by
  rcases commonEscape?_eq_some h with ⟨d, hd, rfl⟩ | ⟨hc, rfl⟩
  · exact readsAs_short hd
  · exact readsAs_unitEscape (by omega)

/-- A character that has no such escape may stand for itself. -/
theorem readsAs_self_of_commonEscape? {c : Char} (h : commonEscape? c = none) : ReadsAs c [c] := by
  unfold commonEscape? at h
  split_ifs at h with hsame hn hr ht hf hb hcontrol
  rw [not_or] at hsame
  exact readsAs_self hsame.1 hsame.2 (by omega)

theorem readsAs_plainEscape (c : Char) : ReadsAs c (plainEscape c) := by
  unfold plainEscape
  cases h : commonEscape? c with
  | some escaped => exact readsAs_of_commonEscape? h
  | none => exact readsAs_self_of_commonEscape? h

theorem readsAs_asciiEscape (c : Char) : ReadsAs c (asciiEscape c) := by
  unfold asciiEscape
  cases h : commonEscape? c with
  | some escaped => exact readsAs_of_commonEscape? h
  | none =>
    by_cases hascii : c.toNat < 0x7F
    · simp only [if_pos hascii]
      exact readsAs_self_of_commonEscape? h
    · simp only [if_neg hascii]
      by_cases hplane : c.toNat < 0x10000
      · rw [Utf16.units, if_pos hplane, List.flatMap_singleton]
        exact readsAs_unitEscape hplane
      · exact readsAs_pair (by omega)

/-! ## Whole texts -/

/-- A text between quotes is read back, in front of anything. -/
theorem string_flatMap {escape : Char → Text} (h : ∀ c, ReadsAs c (escape c)) (s rest : Text) :
    string (s.flatMap escape ++ '"' :: rest) = .ok (s, rest) := by
  have hunits : ∀ inside, ∃ codes, Utf16.join codes = s ∧
      units inside (s.flatMap escape ++ '"' :: rest) = .ok (codes, rest) := by
    intro inside
    induction s with
    | nil => exact ⟨[], rfl, rfl⟩
    | cons c s ih =>
      obtain ⟨codes, hjoin, hread⟩ := ih
      obtain ⟨own, hown, hreads⟩ := h c
      refine ⟨own ++ codes, by rw [hown, hjoin], ?_⟩
      rw [List.flatMap_cons, List.append_assoc, hreads inside _ (by simp), hread]
      rfl
  obtain ⟨codes, hjoin, hread⟩ := hunits (s.flatMap escape ++ '"' :: rest)
  rw [string, hread]
  exact congrArg (fun t => Except.ok (t, rest)) hjoin

end CallDiagram.Json
