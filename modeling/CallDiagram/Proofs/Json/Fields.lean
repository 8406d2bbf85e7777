import CallDiagram.Json.Basic
import Mathlib.Data.List.Nodup

/-!
# Fields of objects

What is looked up in the fields of an object.

* `mem_of_field?`, `field?_eq_some_iff` — a value that is found is one of the fields;
* `field?_eq_of_perm` — where keys are distinct, the order of the fields does not matter;
* `field?_foldl_put` — what is found among fields that are bound one after the other.
-/

namespace CallDiagram.Json

theorem mem_of_field? {key : Text} {value : Json} {fields : List (Text × Json)}
    (h : field? key fields = some value) : (key, value) ∈ fields := by
  induction fields with
  | nil => simp [field?] at h
  | cons f rest ih =>
    obtain ⟨k, v⟩ := f
    by_cases hk : k = key
    · simp_all [field?]
    · rw [field?, if_neg hk] at h
      exact List.mem_cons_of_mem _ (ih h)

/-- In an object of distinct keys every field is found. -/
theorem field?_eq_some_iff {fields : List (Text × Json)} (h : (fields.map Prod.fst).Nodup)
    {key : Text} {value : Json} : field? key fields = some value ↔ (key, value) ∈ fields := by
  refine ⟨mem_of_field?, fun hmem => ?_⟩
  induction fields with
  | nil => simp at hmem
  | cons f rest ih =>
    obtain ⟨k, v⟩ := f
    obtain ⟨hk, hrest⟩ := List.nodup_cons.1 h
    rw [field?]
    rcases List.mem_cons.1 hmem with heq | hmem
    · obtain ⟨rfl, rfl⟩ := Prod.mk.inj heq
      exact if_pos rfl
    · have hne : k ≠ key := by
        rintro rfl
        exact hk (List.mem_map.2 ⟨_, hmem, rfl⟩)
      rw [if_neg hne, ih hrest hmem]

theorem field?_eq_of_perm {fields fields' : List (Text × Json)} (h : fields.Perm fields')
    (hkeys : (fields.map Prod.fst).Nodup) (key : Text) :
    field? key fields = field? key fields' := by
  have hkeys' : (fields'.map Prod.fst).Nodup := (h.map Prod.fst).nodup_iff.1 hkeys
  apply Option.ext
  intro value
  rw [field?_eq_some_iff hkeys, field?_eq_some_iff hkeys', h.mem_iff]

theorem mem_put {key : Text} {value : Json} {fields : List (Text × Json)} {e : Text × Json}
    (h : e ∈ put key value fields) : e = (key, value) ∨ e ∈ fields := by
  induction fields with
  | nil => exact Or.inl (List.mem_singleton.1 h)
  | cons f rest ih =>
    obtain ⟨k, v⟩ := f
    by_cases hk : k = key
    · rw [put, if_pos hk, List.mem_cons, hk] at h
      exact h.imp_right (List.mem_cons_of_mem _)
    · rw [put, if_neg hk, List.mem_cons] at h
      rcases h with rfl | h
      · exact Or.inr List.mem_cons_self
      · exact (ih h).imp_right (List.mem_cons_of_mem _)

/-- Fields that are bound one after the other are among these bindings. -/
theorem mem_foldl_put {entries fields : List (Text × Json)} {e : Text × Json}
    (h : e ∈ entries.foldl (fun fields (k, v) => put k v fields) fields) :
    e ∈ entries ∨ e ∈ fields := by
  induction entries generalizing fields with
  | nil => exact Or.inr h
  | cons f entries ih =>
    rcases ih h with h | h
    · exact Or.inl (List.mem_cons_of_mem _ h)
    · rcases mem_put h with rfl | h
      · exact Or.inl List.mem_cons_self
      · exact Or.inr h

/-- A key that is bound to no other value than one is found with this value. -/
theorem field?_foldl_put {key : Text} {value : Json} {entries : List (Text × Json)}
    (h : ∀ e ∈ entries, e.1 = key → e.2 = value) (fields : List (Text × Json)) :
    field? key (entries.foldl (fun fields (k, v) => put k v fields) fields)
      = if key ∈ entries.map Prod.fst then some value else field? key fields := by
  induction entries generalizing fields with
  | nil => rfl
  | cons e entries ih =>
    obtain ⟨k, v⟩ := e
    have hrest := ih fun e he => h e (List.mem_cons_of_mem _ he)
    rw [List.foldl_cons, hrest, field?_put, List.map_cons]
    by_cases hk : k = key
    · have hv : v = value := h (k, v) List.mem_cons_self hk
      simp [hk, hv]
    · have hmem : key ∈ k :: entries.map Prod.fst ↔ key ∈ entries.map Prod.fst := by
        simp [Ne.symm hk]
      simp only [hmem, if_neg hk]

end CallDiagram.Json
