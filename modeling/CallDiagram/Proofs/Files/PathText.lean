import CallDiagram.Proofs.Files.Access
import CallDiagram.Proofs.Text.Utf8
import Mathlib

/-!
# Texts of paths

A path drops the parts of its text that stay where they are.  Where the text leads, the text of the
path leads too; it need not be the other way round, since a text that ends in a slash leads to a
directory only.

* `join_pieces`, `pieces_join` — texts and their parts;
* `byteCount_join_sublist` — fewer parts make a shorter text;
* `follow_filter_still` — parts that stay where they are;
* `locate_ofText` — where a text and its path lead.
-/

namespace CallDiagram

/-! ## Texts and parts -/

theorem join_cons {part : Text} {parts : List Text} (h : parts ≠ []) :
    Path.join (part :: parts) = part ++ '/' :: Path.join parts := by
  cases parts with
  | nil => exact absurd rfl h
  | cons next parts => rfl

theorem join_pieces (text : Text) : Path.join (Text.pieces '/' text) = text := by
  induction text with
  | nil => rfl
  | cons c text ih =>
    obtain ⟨piece, more, hpieces⟩ := Text.exists_pieces '/' text
    rw [hpieces] at ih
    by_cases hc : c = '/'
    · subst hc
      rw [Text.pieces, if_pos rfl, hpieces, join_cons (by simp), ih]
      rfl
    · rw [Text.pieces, if_neg hc, hpieces]
      cases more with
      | nil => exact congrArg (c :: ·) ih
      | cons next more => exact congrArg (c :: ·) ih

theorem pieces_join {parts : List Text} (hne : parts ≠ []) (h : ∀ part ∈ parts, '/' ∉ part) :
    Text.pieces '/' (Path.join parts) = parts := by
  induction parts with
  | nil => exact absurd rfl hne
  | cons part rest ih =>
    have hpart := Text.pieces_of_not_mem (h part List.mem_cons_self)
    by_cases hrest : rest = []
    · subst hrest
      exact hpart
    · rw [join_cons hrest, Text.pieces_append_cons, hpart,
        ih hrest fun p hp => h p (List.mem_cons_of_mem _ hp)]
      rfl

theorem exists_join_eq {parts : List Text} (hne : parts ≠ [])
    (h : ∀ part ∈ parts, part ≠ [] ∧ '/' ∉ part) :
    ∃ c rest, Path.join parts = c :: rest ∧ c ≠ '/' := by
  obtain ⟨part, rest, rfl⟩ := List.exists_cons_of_ne_nil hne
  obtain ⟨hfilled, hslash⟩ := h part List.mem_cons_self
  obtain ⟨c, tail, rfl⟩ := List.exists_cons_of_ne_nil hfilled
  have hc : c ≠ '/' := by
    rintro rfl
    exact hslash List.mem_cons_self
  cases rest with
  | nil => exact ⟨c, tail, rfl, hc⟩
  | cons next rest => exact ⟨c, tail ++ '/' :: Path.join (next :: rest), rfl, hc⟩

theorem mem_join {parts : List Text} {c : Char} (h : c ∈ Path.join parts) :
    c = '/' ∨ ∃ part ∈ parts, c ∈ part := by
  induction parts with
  | nil => simp [Path.join] at h
  | cons part rest ih =>
    by_cases hrest : rest = []
    · subst hrest
      exact Or.inr ⟨part, List.mem_cons_self, h⟩
    · rw [join_cons hrest, List.mem_append, List.mem_cons] at h
      rcases h with h | h | h
      · exact Or.inr ⟨part, List.mem_cons_self, h⟩
      · exact Or.inl h
      · rcases ih h with hc | ⟨p, hp, hc⟩
        · exact Or.inl hc
        · exact Or.inr ⟨p, List.mem_cons_of_mem _ hp, hc⟩

namespace FileTree

/-- The bytes of a text are those of its parts and of the slashes between. -/
theorem byteCount_join {parts : List Text} (h : parts ≠ []) :
    byteCount (Path.join parts) + 1 = (parts.map fun part => byteCount part + 1).sum := by
  induction parts with
  | nil => exact absurd rfl h
  | cons part rest ih =>
    by_cases hrest : rest = []
    · subst hrest
      simp [Path.join]
    · have hslash : byteCount (part ++ '/' :: Path.join rest)
          = byteCount part + (byteCount (Path.join rest) + 1) := by
        rw [← List.singleton_append, byteCount, Utf8.encode_append, Utf8.encode_append,
          List.length_append, List.length_append, Nat.add_comm (Utf8.encode ['/']).length]
        rfl
      rw [join_cons hrest, List.map_cons, List.sum_cons, ← ih hrest, hslash]
      omega

/-- Fewer parts make a shorter text. -/
theorem byteCount_join_sublist {parts fewer : List Text} (h : fewer.Sublist parts)
    (hne : fewer ≠ []) : byteCount (Path.join fewer) ≤ byteCount (Path.join parts) := by
  have hparts : parts ≠ [] := by
    rintro rfl
    exact hne (List.sublist_nil.1 h)
  have hsum := (h.map fun part => byteCount part + 1).sum_le_sum fun _ _ => Nat.zero_le _
  rw [← byteCount_join hne, ← byteCount_join hparts] at hsum
  omega

/-! ## Where they lead -/

variable {t : FileTree}

/-- Parts that stay where they are may be left out. -/
theorem follow_filter_still {path : Text} {a b : Address} {parts : List Text}
    (h : t.follow path a parts = .ok b) :
    t.follow path a (parts.filter fun part => !Path.isStill part) = .ok b := by
  induction parts generalizing a with
  | nil => exact h
  | cons part rest ih =>
    rw [follow] at h
    by_cases hstill : Path.isStill part = true
    · rw [List.filter_cons_of_neg (by simp [hstill])]
      have hstep : step a part = a := by rw [step, if_pos hstill]
      split at h
      · simp at h
      · simp at h
      · split at h
        · simp at h
        · rw [hstep] at h
          exact ih h
    · rw [List.filter_cons_of_pos (by simpa using hstill), follow]
      split at h
      · simp at h
      · simp at h
      · split at h
        · simp at h
        · rename_i hshort
          rw [if_neg hshort]
          exact ih h

/-- Where a text leads, the text of its path leads. -/
theorem locate_ofText {path : Text} {a : Address} (h : t.locate path = .ok a) :
    t.locate (Path.ofText path).text = .ok a := by
  obtain ⟨hnull, hlong, -, hhere, hfollow⟩ := locate_eq_ok_iff.1 h
  have hparts := follow_filter_still hfollow
  by_cases hne : Path.partsOf path = []
  · have htext : (Path.ofText path).text = ['.'] := by
      rw [Path.ofText, hhere, hne]
      rfl
    have hstay : .ok [] = Except.ok (ε := FileError) a := by
      rw [← hparts, ← Path.partsOf, hne]
      rfl
    rw [htext, ← hstay]
    exact locate_eq_ok_iff.2 ⟨by decide, by decide, by decide, by decide, rfl⟩
  · have htext : (Path.ofText path).text = Path.join (Path.partsOf path) := by
      rw [Path.ofText, hhere]
      cases hcons : Path.partsOf path with
      | nil => exact absurd hcons hne
      | cons part rest => rfl
    have hpiece : ∀ part ∈ Path.partsOf path, part ∈ Text.pieces '/' path := fun part hpart =>
      (Path.mem_partsOf.1 hpart).1
    have hslash : ∀ part ∈ Path.partsOf path, '/' ∉ part := fun part hpart =>
      Text.not_mem_of_mem_pieces (hpiece part hpart)
    -- the first part is not empty, and holds no slash
    obtain ⟨c, rest, hstart, hc⟩ := exists_join_eq hne fun part hpart =>
      ⟨(Path.ofText_parts hpart).1, hslash part hpart⟩
    rw [htext]
    refine locate_eq_ok_iff.2 ⟨fun hmem => ?null, ?long, ?empty, ?here, ?follow⟩
    case null =>
      rcases mem_join hmem with hc | ⟨part, hpart, hc⟩
      · exact absurd hc (by decide)
      · exact hnull (Text.mem_of_mem_pieces (hpiece part hpart) hc)
    case long =>
      have hshort := byteCount_join_sublist (List.filter_sublist (l := Text.pieces '/' path)) hne
      rw [join_pieces] at hshort
      exact Nat.le_trans hshort hlong
    case empty => simp [hstart]
    case here =>
      rw [hstart]
      unfold Path.anchorOf
      split <;> simp_all
    case follow =>
      rw [pieces_join hne hslash]
      exact follow_eq_ok_iff.1 hparts

end FileTree

end CallDiagram
