import CallDiagram.Text.Lines
import Mathlib.Tactic.Common

/-!
# Unified line breaks

A text has the same lines before and after its line breaks are unified, so it does not matter
whether it comes from a file or not.

* `lines_unifyBreaks` — the lines stay;
* `unifyBreaks_eq_self` — texts without carriage returns stay.
-/

namespace CallDiagram.Text

/-- A break of one character ends a line, unless it is the first half of a break of two. -/
theorem lines_cons {c : Char} {rest : Text} (h : c = '\r' → rest.head? ≠ some '\n') :
    lines (c :: rest) = if isLineEnd c then [] :: lines rest else ontoFirst c (lines rest) := by
  cases rest with
  | nil => simp [lines]
  | cons d rest =>
    rw [lines]
    rintro rest' rfl hd
    simp_all

/-- Unified line breaks leave the lines as they are. -/
theorem lines_unifyBreaks (t : Text) : lines (unifyBreaks t) = lines t := by
  fun_induction unifyBreaks t with
  | case1 => rfl
  | case2 rest ih =>
    rw [lines_cons (by simp), ih, lines]
    rfl
  | case3 c rest hpair ih =>
    have hhead : c = '\r' → rest.head? ≠ some '\n' := by
      rintro rfl hhead
      cases rest with
      | nil => simp at hhead
      | cons d rest => exact hpair rest rfl (by simpa using hhead)
    rw [lines_cons hhead, ← ih]
    by_cases hc : c = '\r'
    · subst hc
      rw [if_pos rfl, lines_cons (by simp)]
      rfl
    · rw [if_neg hc, lines_cons (by simp [hc])]

/-- A text without carriage returns has unified line breaks. -/
theorem unifyBreaks_eq_self {t : Text} (h : '\r' ∉ t) : unifyBreaks t = t := by
  fun_induction unifyBreaks t with
  | case1 => rfl
  | case2 rest ih => simp at h
  | case3 c rest hpair ih =>
    obtain ⟨hc, hrest⟩ : '\r' ≠ c ∧ '\r' ∉ rest := by simpa using h
    rw [if_neg (Ne.symm hc), ih hrest]

end CallDiagram.Text
