/-!
# Results of parts

How a computation ends, by how its parts end.

* `except_bind_eq_ok_iff`, `except_bind_eq_error_iff` — sequences;
* `mapError_eq_ok_iff`, `mapError_eq_error_iff` — errors in other words;
* `filterM_eq_ok`, `exists_of_filterM_eq_error` — filters by tests that may fail.
-/

namespace CallDiagram

/-! ## Sequences -/

/-- A sequence succeeds if its parts do. -/
theorem except_bind_eq_ok_iff {ε α β : Type} {x : Except ε α} {f : α → Except ε β} {b : β} :
    (x >>= f) = .ok b ↔ ∃ a, x = .ok a ∧ f a = .ok b := by
  cases x with
  | error e => simp [bind, Except.bind]
  | ok a => simp [bind, Except.bind]

/-- A sequence fails with the error of one of its parts. -/
theorem except_bind_eq_error_iff {ε α β : Type} {x : Except ε α} {f : α → Except ε β} {e : ε} :
    (x >>= f) = .error e ↔ x = .error e ∨ ∃ a, x = .ok a ∧ f a = .error e := by
  cases x with
  | error e' => simp [bind, Except.bind]
  | ok a => simp [bind, Except.bind]

/-! ## Errors in other words -/

section MapError

variable {ε ε' α : Type} {x : Except ε α} {f : ε → ε'}

theorem mapError_eq_ok_iff {a : α} : x.mapError f = .ok a ↔ x = .ok a := by
  cases x with
  | error d => exact iff_of_false (fun h => nomatch h) (fun h => nomatch h)
  | ok b =>
    have hrun : (Except.ok b : Except ε α).mapError f = .ok b := rfl
    simp [hrun]

theorem mapError_eq_error_iff {e : ε'} : x.mapError f = .error e ↔ ∃ d, x = .error d ∧ f d = e := by
  cases x with
  | error d =>
    have hrun : (Except.error d : Except ε α).mapError f = .error (f d) := rfl
    simp [hrun]
  | ok b => exact iff_of_false (fun h => nomatch h) (fun ⟨d, h, _⟩ => nomatch h)

end MapError

/-! ## Filters -/

/-- If the tests of a filter do not fail, it keeps what they say. -/
theorem filterM_eq_ok {ε α : Type} {test : α → Except ε Bool} {items kept : List α}
    (h : items.filterM test = .ok kept) :
    ∃ keep : α → Bool, (∀ x ∈ items, test x = .ok (keep x)) ∧ kept = items.filter keep := by
  obtain ⟨keep, hkeep⟩ : ∃ keep : α → Bool, ∀ x b, test x = .ok b → keep x = b := by
    refine ⟨fun x => (test x).toOption.getD false, fun x b hx => ?_⟩
    simp [hx, Except.toOption]
  -- the accumulator holds what is kept so far, backwards
  have haux : ∀ (items front kept : List α), items.filterAuxM test front = .ok kept →
      (∀ x ∈ items, test x = .ok (keep x)) ∧ kept = (items.filter keep).reverse ++ front := by
    intro items
    induction items with
    | nil =>
      intro front kept h
      exact ⟨by simp, (Except.ok.inj h).symm⟩
    | cons x items ih =>
      intro front kept h
      rw [List.filterAuxM, except_bind_eq_ok_iff] at h
      obtain ⟨b, htest, h⟩ := h
      obtain ⟨hrest, rfl⟩ := ih _ _ h
      obtain rfl := hkeep x b htest
      refine ⟨?_, ?_⟩
      · simpa [htest] using hrest
      · cases hx : keep x <;> simp [hx]
  rw [List.filterM, except_bind_eq_ok_iff] at h
  obtain ⟨backwards, haccumulated, h⟩ := h
  obtain ⟨htests, rfl⟩ := haux items [] backwards haccumulated
  refine ⟨keep, htests, ?_⟩
  rw [← Except.ok.inj h]
  simp

/-- A filter by tests fails with the error of one of them. -/
theorem exists_of_filterM_eq_error {ε α : Type} {test : α → Except ε Bool} {items : List α} {e : ε}
    (h : items.filterM test = .error e) : ∃ x ∈ items, test x = .error e := by
  have haux : ∀ (items front : List α), items.filterAuxM test front = .error e →
      ∃ x ∈ items, test x = .error e := by
    intro items
    induction items with
    | nil =>
      intro front h
      cases h
    | cons x items ih =>
      intro front h
      rcases except_bind_eq_error_iff.1 h with htest | ⟨b, -, hrest⟩
      · exact ⟨x, List.mem_cons_self, htest⟩
      · obtain ⟨y, hy, htest⟩ := ih _ hrest
        exact ⟨y, List.mem_cons_of_mem _ hy, htest⟩
  rcases except_bind_eq_error_iff.1 h with haccumulated | ⟨backwards, -, h⟩
  · exact haux items [] haccumulated
  · cases h

end CallDiagram
