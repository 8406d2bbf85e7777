import CallDiagram.Text.Blank
import Mathlib.Data.List.DropRight
import Mathlib.Data.List.TakeWhile

/-!
# Trimming

* `Trimmed` — a text without blanks at its ends, which trimming makes (`trimmed_trim`);
* `trimEnd_cons` — trimming the end, character by character from the front;
* `trim_append_blanks`, `trim_append_of_blank` — blanks at either end do not count;
* `takeWhile_ne_append`, `takeWhile_ne_of_not_mem` — cutting at the first of a character.
-/

namespace CallDiagram.Text

theorem trimEnd_eq_rdropWhile (t : Text) : trimEnd t = t.rdropWhile CallDiagram.isBlank := rfl

@[simp] theorem trimEnd_nil : trimEnd [] = [] := rfl

theorem isBlank_cons (c : Char) (t : Text) :
    isBlank (c :: t) = (CallDiagram.isBlank c && isBlank t) := rfl

theorem trimStart_cons_of_blank {c : Char} (h : CallDiagram.isBlank c = true) (t : Text) :
    trimStart (c :: t) = trimStart t :=
  List.dropWhile_cons_of_pos h

theorem trimStart_cons_of_not_blank {c : Char} (h : CallDiagram.isBlank c = false) (t : Text) :
    trimStart (c :: t) = c :: t :=
  List.dropWhile_cons_of_neg (by simp [h])

theorem trimStart_append_of_blank {w : Text} (h : isBlank w = true) (t : Text) :
    trimStart (w ++ t) = trimStart t :=
  List.dropWhile_append_of_pos (by simpa [isBlank] using h)

theorem trimStart_eq_nil_iff {t : Text} : trimStart t = [] ↔ isBlank t = true := by
  simp [trimStart, isBlank]

theorem trimStart_idem (t : Text) : trimStart (trimStart t) = trimStart t :=
  List.dropWhile_idempotent _ _

theorem trimEnd_idem (t : Text) : trimEnd (trimEnd t) = trimEnd t :=
  List.rdropWhile_idempotent _ _

theorem trimEnd_eq_nil_iff {t : Text} : trimEnd t = [] ↔ isBlank t = true := by
  rw [trimEnd_eq_rdropWhile, List.rdropWhile_eq_nil_iff, isBlank, List.all_eq_true]

/-- Trimming the end drops a character exactly if nothing but blanks follows. -/
theorem trimEnd_cons (c : Char) (t : Text) :
    trimEnd (c :: t) = if isBlank (c :: t) then [] else c :: trimEnd t := by
  by_cases h : isBlank (c :: t) = true
  · rw [if_pos h, trimEnd_eq_nil_iff.2 h]
  · rw [if_neg h]
    by_cases ht : isBlank t = true
    · have hc : CallDiagram.isBlank c = false := by
        by_contra hc
        exact h (by rw [isBlank_cons, ht]; simpa using hc)
      rw [trimEnd_eq_nil_iff.2 ht, trimEnd, List.reverse_cons, List.dropWhile_append_of_pos]
      · simp [hc]
      · simpa [isBlank] using ht
    · have hne : (t.reverse.dropWhile CallDiagram.isBlank) ≠ [] := by
        intro hnil
        exact ht (trimEnd_eq_nil_iff.1 (by rw [trimEnd, hnil]; rfl))
      rw [trimEnd, trimEnd, List.reverse_cons, List.dropWhile_append,
        if_neg (by simpa using hne)]
      simp

theorem trimEnd_append_of_blank {w : Text} (h : isBlank w = true) (t : Text) :
    trimEnd (t ++ w) = trimEnd t := by
  rw [trimEnd, List.reverse_append, List.dropWhile_append_of_pos, ← trimEnd]
  intro c hc
  exact List.all_eq_true.1 h c (List.mem_reverse.1 hc)

/-- Blanks behind a text go with the blanks in front of it, or stay behind what it starts with. -/
theorem trimStart_append_cases {w : Text} (h : isBlank w = true) (t : Text) :
    (trimStart t = [] ∧ trimStart (t ++ w) = []) ∨
      ∃ c rest, CallDiagram.isBlank c = false ∧ trimStart t = c :: rest ∧
        trimStart (t ++ w) = c :: (rest ++ w) := by
  induction t with
  | nil => exact Or.inl ⟨rfl, trimStart_eq_nil_iff.2 h⟩
  | cons c t ih =>
    by_cases hc : CallDiagram.isBlank c = true
    · rw [List.cons_append, trimStart_cons_of_blank hc, trimStart_cons_of_blank hc]
      exact ih
    · have hc' : CallDiagram.isBlank c = false := by simpa using hc
      rw [List.cons_append, trimStart_cons_of_not_blank hc', trimStart_cons_of_not_blank hc']
      exact Or.inr ⟨c, t, hc', rfl, rfl⟩

/-- Blanks behind a text do not count. -/
theorem trim_append_of_blank {w : Text} (h : isBlank w = true) (t : Text) :
    trim (t ++ w) = trim t := by
  rcases trimStart_append_cases h t with ⟨ht, htw⟩ | ⟨c, rest, -, ht, htw⟩
  · rw [trim, trim, ht, htw]
  · rw [trim, trim, ht, htw, ← List.cons_append, trimEnd_append_of_blank h]

theorem mem_of_mem_trimStart {c : Char} {t : Text} (h : c ∈ trimStart t) : c ∈ t :=
  (List.dropWhile_sublist _).mem h

theorem mem_of_mem_trim {c : Char} {t : Text} (h : c ∈ trim t) : c ∈ t :=
  mem_of_mem_trimStart (( List.rdropWhile_prefix _ _).sublist.mem h)

/-! ## Trimmed texts -/

/-- A text that neither starts nor ends with a blank. -/
structure Trimmed (t : Text) : Prop where
  start : trimStart t = t
  ending : trimEnd t = t

theorem trimmed_nil : Trimmed [] := ⟨rfl, rfl⟩

theorem isBlank_of_trimStart_eq {c : Char} {t : Text} (h : trimStart (c :: t) = c :: t) :
    CallDiagram.isBlank c = false := by
  by_contra hc
  have hlength := congrArg List.length h
  rw [trimStart_cons_of_blank (by simpa using hc)] at hlength
  have := (List.dropWhile_sublist CallDiagram.isBlank (l := t)).length_le
  simp only [trimStart, List.length_cons] at hlength
  omega

theorem trimStart_trimEnd {t : Text} (h : trimStart t = t) :
    trimStart (trimEnd t) = trimEnd t := by
  cases t with
  | nil => rfl
  | cons c rest =>
    have hc := isBlank_of_trimStart_eq h
    rw [trimEnd_cons]
    split
    · rfl
    · exact trimStart_cons_of_not_blank hc _

theorem trimmed_trim (t : Text) : Trimmed (trim t) :=
  ⟨trimStart_trimEnd (trimStart_idem t), trimEnd_idem _⟩

/-- Blanks at either end do not count. -/
theorem trim_append_blanks {v w : Text} (hv : isBlank v = true) (hw : isBlank w = true)
    {t : Text} (h : Trimmed t) : trim (v ++ (t ++ w)) = t := by
  rw [trim, trimStart_append_of_blank hv]
  cases t with
  | nil => rw [List.nil_append, trimStart_eq_nil_iff.2 hw, trimEnd_nil]
  | cons c rest =>
    rw [List.cons_append, trimStart_cons_of_not_blank (isBlank_of_trimStart_eq h.start),
      ← List.cons_append, trimEnd_append_of_blank hw, h.ending]

/-! ## Cutting at a character -/

theorem takeWhile_ne_append {c : Char} {t : Text} (h : c ∉ t) (rest : Text) :
    (t ++ c :: rest).takeWhile (· != c) = t ∧ (t ++ c :: rest).dropWhile (· != c) = c :: rest := by
  have hall : ∀ d ∈ t, (d != c) = true := fun d hd => by
    simpa using fun heq : d = c => h (heq ▸ hd)
  rw [List.takeWhile_append_of_pos hall, List.dropWhile_append_of_pos hall]
  simp

theorem takeWhile_ne_of_not_mem {c : Char} {t : Text} (h : c ∉ t) :
    t.takeWhile (· != c) = t ∧ t.dropWhile (· != c) = [] := by
  have hall : ∀ d ∈ t, (d != c) = true := fun d hd => by
    simpa using fun heq : d = c => h (heq ▸ hd)
  exact ⟨List.takeWhile_eq_self_iff.2 hall, List.dropWhile_eq_nil_iff.2 hall⟩

/-! ## Texts that count only if they hold a character -/

theorem nonempty?_cons (c : Char) (t : Text) : nonempty? (some (c :: t)) = some (c :: t) := rfl

theorem nonempty?_eq_some_iff {o : Option Text} {t : Text} :
    nonempty? o = some t ↔ o = some t ∧ t ≠ [] := by
  rcases o with _ | _ | ⟨c, rest⟩
  · simp [nonempty?]
  · simp [nonempty?]
  · rw [nonempty?_cons]
    constructor
    · intro h
      exact ⟨h, by rintro rfl; simp at h⟩
    · exact And.left

theorem nonempty?_of_ne_some_nil {o : Option Text} (h : o ≠ some []) : nonempty? o = o := by
  rcases o with _ | _ | ⟨c, rest⟩
  · rfl
  · simp at h
  · rfl

end CallDiagram.Text
