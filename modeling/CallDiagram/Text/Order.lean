import CallDiagram.Text.Basic

/-!
# The order of texts

Texts are ordered by the code points of their characters, from the front.

* `Text.precedes` — the order, with `precedes_total`, `precedes_trans` and `precedes_antisymm`;
* `Text.sortBy` — items in ascending order of a text of theirs.
-/

namespace CallDiagram.Text

/-- Whether a text comes before another one or is the same. -/
def precedes : Text → Text → Bool
  | [], _ => true
  | _ :: _, [] => false
  | a :: s, b :: t => a.toNat < b.toNat || (a.toNat == b.toNat && precedes s t)

/-- Items in ascending order of a text of theirs; items of one text keep their order. -/
def sortBy {α : Type} (key : α → Text) (items : List α) : List α :=
  items.mergeSort fun a b => precedes (key a) (key b)

theorem precedes_total (s t : Text) : precedes s t || precedes t s := by
  induction s generalizing t with
  | nil => simp [precedes]
  | cons a s ih =>
    cases t with
    | nil => simp [precedes]
    | cons b t =>
      have := ih t
      simp only [precedes, Bool.or_eq_true, Bool.and_eq_true, decide_eq_true_eq, beq_iff_eq]
        at this ⊢
      rcases Nat.lt_trichotomy a.toNat b.toNat with h | h | h
      · exact .inl (.inl h)
      · exact this.imp (fun p => .inr ⟨h, p⟩) fun p => .inr ⟨h.symm, p⟩
      · exact .inr (.inl h)

theorem precedes_trans {s t u : Text} (h : precedes s t = true) (h' : precedes t u = true) :
    precedes s u = true := by
  induction s generalizing t u with
  | nil => simp [precedes]
  | cons a s ih =>
    cases t with
    | nil => simp [precedes] at h
    | cons b t =>
      cases u with
      | nil => simp [precedes] at h'
      | cons c u =>
        simp only [precedes, Bool.or_eq_true, Bool.and_eq_true, decide_eq_true_eq, beq_iff_eq]
          at h h' ⊢
        rcases h with h | ⟨hab, h⟩
        · rcases h' with h' | ⟨hbc, -⟩ <;> left <;> omega
        · rcases h' with h' | ⟨hbc, h'⟩
          · left; omega
          · exact .inr ⟨hab.trans hbc, ih h h'⟩

theorem precedes_antisymm {s t : Text} (h : precedes s t = true) (h' : precedes t s = true) :
    s = t := by
  induction s generalizing t with
  | nil =>
    cases t with
    | nil => rfl
    | cons b t => simp [precedes] at h'
  | cons a s ih =>
    cases t with
    | nil => simp [precedes] at h
    | cons b t =>
      simp only [precedes, Bool.or_eq_true, Bool.and_eq_true, decide_eq_true_eq, beq_iff_eq]
        at h h'
      have hab : a.toNat = b.toNat := by omega
      rw [Char.toNat_inj.1 hab, ih (t := t) (by simpa [hab] using h) (by simpa [hab] using h')]

end CallDiagram.Text
