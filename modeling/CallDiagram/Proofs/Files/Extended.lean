import CallDiagram.Proofs.Files.Access

/-!
# Trees that stay well-formed

A path leads up first and then down, under names that a directory lists.  So files and directories
can be made wherever a path leads, and the tree stays well-formed.

* `IsAddress`, `isAddress_of_locate` — where a path can lead;
* `WellFormed.put`, `WellFormed.of_write` — new files;
* `Extended`, `extended_ensureDirectory` — new directories.
-/

namespace CallDiagram.FileTree

variable {t t' : FileTree}

/-! ## Where a path leads -/

/-- An address that leads up first, then down. -/
def IsAddress (b : Address) : Prop :=
  ∃ ups names, b = ups ++ names ∧ isAbove ups = true ∧ ∀ name ∈ names, IsEntryName name

theorem IsAddress.step {a : Address} {part : Text} (h : IsAddress a) (hslash : '/' ∉ part)
    (hnull : '\x00' ∉ part) : IsAddress (step a part) := by
  obtain ⟨ups, names, rfl, hups, hnames⟩ := h
  unfold FileTree.step
  by_cases hstill : Path.isStill part = true
  · rw [if_pos hstill]
    exact ⟨ups, names, rfl, hups, hnames⟩
  rw [if_neg hstill]
  by_cases hup : part = ['.', '.'] ∧ isAbove (ups ++ names) = false
  · rw [if_pos hup]
    -- one of the names is left, since the address is not above
    have hne : names ≠ [] := by
      rintro rfl
      simp [hups] at hup
    refine ⟨ups, names.dropLast, List.dropLast_append_of_ne_nil hne, hups, fun name hname => ?_⟩
    exact hnames name (List.dropLast_subset _ hname)
  · rw [if_neg hup]
    by_cases hdots : part = ['.', '.']
    · subst hdots
      have habove : isAbove (ups ++ names) = true := by simpa using hup
      refine ⟨ups ++ names ++ [['.', '.']], [], by simp, ?_, by simp⟩
      rw [isAbove_append, habove]
      rfl
    · refine ⟨ups, names ++ [part], List.append_assoc .., hups, fun name hname => ?_⟩
      rcases List.mem_append.1 hname with hname | hname
      · exact hnames name hname
      · obtain rfl := List.mem_singleton.1 hname
        exact ⟨by simpa using hstill, hdots, hslash, hnull⟩

theorem IsAddress.of_follow {path : Text} {a b : Address} {parts : List Text} (h : IsAddress a)
    (hparts : ∀ part ∈ parts, '/' ∉ part ∧ '\x00' ∉ part)
    (hfollow : t.follow path a parts = .ok b) : IsAddress b := by
  induction parts generalizing a with
  | nil => exact Except.ok.inj hfollow ▸ h
  | cons part rest ih =>
    obtain ⟨hslash, hnull⟩ := hparts part List.mem_cons_self
    rw [follow] at hfollow
    split at hfollow
    · simp at hfollow
    · simp at hfollow
    · split at hfollow
      · simp at hfollow
      · exact ih (h.step hslash hnull) (fun p hp => hparts p (List.mem_cons_of_mem _ hp)) hfollow

theorem isAddress_of_locate {path : Text} {b : Address} (h : t.locate path = .ok b) :
    IsAddress b := by
  obtain ⟨hnull, -, -, -, hfollow⟩ := locate_eq_ok_iff.1 h
  have hstart : IsAddress [] := ⟨[], [], rfl, rfl, by simp⟩
  refine hstart.of_follow (fun part hpart => ⟨Text.not_mem_of_mem_pieces hpart, fun hmem => ?_⟩)
    hfollow
  exact hnull (Text.mem_of_mem_pieces hpart hmem)

/-- What is not above the working directory is an entry of a directory. -/
theorem IsAddress.exists_name {b : Address} (h : IsAddress b) (hb : isAbove b = false) :
    ∃ a name, b = a ++ [name] ∧ IsEntryName name := by
  obtain ⟨ups, names, rfl, hups, hnames⟩ := h
  rcases List.eq_nil_or_concat names with rfl | ⟨front, last, rfl⟩
  · simp [hups] at hb
  · exact ⟨ups ++ front, last, by simp, hnames last (by simp)⟩

/-! ## New entries -/

theorem map_fst_bind (b : Address) (entry : Entry) (entries : List (Address × Entry)) :
    (bind b entry entries).map Prod.fst = if b ∈ entries.map Prod.fst then entries.map Prod.fst
      else entries.map Prod.fst ++ [b] := by
  induction entries with
  | nil => rfl
  | cons e rest ih =>
    obtain ⟨c, other⟩ := e
    by_cases hc : c = b
    · simp [bind, hc]
    · by_cases hmem : b ∈ rest.map Prod.fst
      · rw [if_pos hmem] at ih
        simp [bind, hc, ih, List.mem_cons, hmem]
      · rw [if_neg hmem] at ih
        simp only [bind, if_neg hc, List.map_cons, ih]
        rw [if_neg (by simpa [Ne.symm hc] using hmem)]
        rfl

/-- A well-formed tree stays so when something new stands where a path leads. -/
theorem WellFormed.put (ht : t.WellFormed) {b : Address} (hb : IsAddress b)
    (habove : isAbove b = false) (entry : Entry) : (t.put b entry).WellFormed := by
  have hkeys := map_fst_bind b entry t.entries
  refine ⟨?_, fun e he => ?_⟩
  · show ((bind b entry t.entries).map Prod.fst).Nodup
    rw [hkeys]
    split
    · exact ht.distinct
    · rename_i hfresh
      rw [← List.concat_eq_append]
      exact ht.distinct.concat hfresh
  · have he : e.1 ∈ (bind b entry t.entries).map Prod.fst := List.mem_map_of_mem he
    have hcases : e.1 ∈ t.entries.map Prod.fst ∨ e.1 = b := by
      rw [hkeys] at he
      split at he
      · exact Or.inl he
      · simpa using he
    rcases hcases with hold | rfl
    · obtain ⟨e', he', heq⟩ := List.mem_map.1 hold
      exact heq ▸ ht.named e' he'
    · exact hb.exists_name habove

theorem WellFormed.of_write (ht : t.WellFormed) {path : Text} {content : Bytes}
    (h : t.write path content = .ok t') : t'.WellFormed := by
  obtain ⟨b, hlocate, hget, rfl⟩ := write_eq_ok_iff.1 h
  exact ht.put (isAddress_of_locate hlocate) (not_isAbove_of_get? hget) _

/-! ## New directories -/

/-- A tree with the same files and perhaps more directories. -/
structure Extended (t t' : FileTree) : Prop where
  wellFormed : t.WellFormed → t'.WellFormed
  directories : ∀ c, t.get? c = some .directory → t'.get? c = some .directory
  files : ∀ c content, t'.get? c = some (.file content) ↔ t.get? c = some (.file content)

theorem Extended.refl (t : FileTree) : Extended t t := ⟨id, fun _ h => h, fun _ _ => Iff.rfl⟩

theorem Extended.locate (h : Extended t t') {path : Text} {b : Address}
    (hlocate : t.locate path = .ok b) : t'.locate path = .ok b :=
  locate_of_directories h.directories hlocate

theorem Extended.trans {t'' : FileTree} (h : Extended t t') (h' : Extended t' t'') :
    Extended t t'' :=
  ⟨fun ht => h'.wellFormed (h.wellFormed ht), fun c hc => h'.directories c (h.directories c hc),
    fun c content => (h'.files c content).trans (h.files c content)⟩

theorem extended_of_makeDirectory {path : Text} (h : t.makeDirectory path = .ok t') :
    Extended t t' := by
  obtain ⟨b, hlocate, h⟩ := except_bind_eq_ok_iff.1 h
  cases hget : t.get? b with
  | some entry => simp [hget] at h
  | none =>
    rw [hget] at h
    obtain rfl := Except.ok.inj h
    have hfree : t.get? b ≠ some .directory := by simp [hget]
    have habove : isAbove b = false := not_isAbove_of_get? hfree
    have hput := t.get?_put habove
    refine ⟨fun ht => ht.put (isAddress_of_locate hlocate) habove _, fun c hc => ?_,
      fun c content => ?_⟩
    · rw [hput]
      split
      · rfl
      · exact hc
    · rw [hput]
      split
      · rename_i heq
        simp [← heq, hget]
      · rfl

theorem extended_makeMissing (t : FileTree) (path : Text) : Extended t (t.makeMissing path).2 := by
  unfold makeMissing
  split
  · rename_i t' h
    exact extended_of_makeDirectory h
  · exact Extended.refl t

theorem extended_ensure (fuel : Nat) (t : FileTree) (p : Path) :
    Extended t (ensure fuel t p).2 := by
  induction fuel generalizing t p with
  | zero => exact extended_makeMissing t p.text
  | succ fuel ih =>
    rw [ensure]
    split
    · split
      · exact Extended.refl t
      · have hparent := ih t p.parent
        split
        · rename_i t' heq
          rw [heq] at hparent
          exact hparent.trans (extended_makeMissing t' p.text)
        · rename_i e t' heq
          rw [heq] at hparent
          exact hparent
    · exact extended_makeMissing t p.text

/-- Directories are made without a change to files. -/
theorem extended_ensureDirectory (t : FileTree) (p : Path) : Extended t (t.ensureDirectory p).2 :=
  extended_ensure p.parts.length t p

end CallDiagram.FileTree
