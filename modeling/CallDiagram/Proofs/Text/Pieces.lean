import CallDiagram.Text.Basic
import Mathlib.Tactic.Common

/-!
# Pieces between separators

* `pieces_append_cons` — the pieces of two texts with a separator between;
* `exists_pieces_append` — the first piece starts with what holds no separator;
* `pieces_of_not_mem` — a text without separators is one piece;
* `not_mem_of_mem_pieces`, `mem_of_mem_pieces` — the characters of a piece.
-/

namespace CallDiagram.Text

variable {separator : Char}

theorem exists_pieces (separator : Char) (t : Text) :
    ∃ piece more, pieces separator t = piece :: more := by
  cases t with
  | nil => exact ⟨[], [], rfl⟩
  | cons c t =>
    rw [pieces]
    split
    · exact ⟨_, _, rfl⟩
    · split <;> exact ⟨_, _, rfl⟩

theorem pieces_append_cons (t rest : Text) :
    pieces separator (t ++ separator :: rest) = pieces separator t ++ pieces separator rest := by
  induction t with
  | nil => simp [pieces]
  | cons c t ih =>
    by_cases hc : c = separator
    · simp [pieces, hc, ih]
    · obtain ⟨piece, more, hpieces⟩ := exists_pieces separator t
      simp [pieces, hc, ih, hpieces]

/-- What stands in front of the first separator stands in front of the first piece. -/
theorem exists_pieces_append {t : Text} (h : separator ∉ t) (rest : Text) :
    ∃ piece more, pieces separator (t ++ rest) = (t ++ piece) :: more := by
  induction t with
  | nil => exact exists_pieces separator rest
  | cons c t ih =>
    obtain ⟨hc, ht⟩ : separator ≠ c ∧ separator ∉ t := by simpa using h
    obtain ⟨piece, more, hpieces⟩ := ih ht
    exact ⟨piece, more, by simp [pieces, hpieces, Ne.symm hc]⟩

theorem pieces_of_not_mem {t : Text} (h : separator ∉ t) : pieces separator t = [t] := by
  induction t with
  | nil => rfl
  | cons c t ih =>
    obtain ⟨hc, ht⟩ : separator ≠ c ∧ separator ∉ t := by simpa using h
    simp [pieces, ih ht, Ne.symm hc]

theorem not_mem_of_mem_pieces {t piece : Text} (h : piece ∈ pieces separator t) :
    separator ∉ piece := by
  induction t generalizing piece with
  | nil =>
    obtain rfl := List.mem_singleton.1 h
    simp
  | cons c t ih =>
    obtain ⟨first, more, hpieces⟩ := exists_pieces separator t
    rw [pieces, hpieces] at h
    split at h
    · rcases List.mem_cons.1 h with rfl | h
      · simp
      · exact ih (hpieces ▸ h)
    · rename_i hc
      rcases List.mem_cons.1 h with rfl | h
      · simpa [Ne.symm hc] using ih (hpieces ▸ List.mem_cons_self)
      · exact ih (hpieces ▸ List.mem_cons_of_mem _ h)

theorem mem_of_mem_pieces {t piece : Text} (h : piece ∈ pieces separator t) {c : Char}
    (hc : c ∈ piece) : c ∈ t := by
  induction t generalizing piece with
  | nil =>
    obtain rfl := List.mem_singleton.1 h
    exact hc
  | cons d t ih =>
    obtain ⟨first, more, hpieces⟩ := exists_pieces separator t
    rw [pieces, hpieces] at h
    split at h
    · rcases List.mem_cons.1 h with rfl | h
      · simp at hc
      · exact List.mem_cons_of_mem _ (ih (hpieces ▸ h) hc)
    · rcases List.mem_cons.1 h with rfl | h
      · rcases List.mem_cons.1 hc with rfl | hc
        · exact List.mem_cons_self
        · exact List.mem_cons_of_mem _ (ih (hpieces ▸ List.mem_cons_self) hc)
      · exact List.mem_cons_of_mem _ (ih (hpieces ▸ List.mem_cons_of_mem _ h) hc)

end CallDiagram.Text
