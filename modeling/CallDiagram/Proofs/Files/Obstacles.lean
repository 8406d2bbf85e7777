import CallDiagram.Index.Basic
import CallDiagram.Proofs.Files.Extended
import CallDiagram.Proofs.Files.Sources

/-!
# Obstacles in file trees

An access is refused because nothing is there, or because something stands in its way: a directory
where a file should be, a file where a directory should be, or a name that is too long.

* `Obstructs` — what stands in the way;
* `obstructs_of_locate`, `obstructs_of_map_look`, `obstructs_of_read`, `obstructs_of_write`,
  `obstructs_of_sources`, `obstructs_of_ensureDirectory` — an access that is refused has its
  obstacle in the tree;
* `Grown`, `Grown.obstructs` — obstacles stay while files are written.
-/

namespace CallDiagram

namespace FileTree

variable {t t' : FileTree} {path : Text} {e : FileError}

/-- What stands in the way of an access that ends in an error.  If nothing is there, or the path is
no path at all, there is no obstacle to be named. -/
def Obstructs (t : FileTree) : FileError → Prop
  | .isDirectory path => t.isDirectory path = .ok true
  | .notDirectory path =>
      t.locate path = .error (.notDirectory path) ∨ t.isFile path = .ok true
  | .present path => t.isFile path = .ok true
  | .tooLong path => t.locate path = .error (.tooLong path)
  | .missing _ => True
  | .nullCharacter => True

/-! ## Access that is refused -/

/-- Parts that lead nowhere are refused because of what is missing, a file or a length. -/
theorem follow_eq_error {a : Address} {parts : List Text} (h : t.follow path a parts = .error e) :
    e = .missing path ∨ e = .notDirectory path ∨ e = .tooLong path := by
  induction parts generalizing a with
  | nil => simp [follow] at h
  | cons part rest ih =>
    rw [follow] at h
    split at h
    · exact Or.inl (Except.error.inj h).symm
    · exact Or.inr (Or.inl (Except.error.inj h).symm)
    · split at h
      · exact Or.inr (Or.inr (Except.error.inj h).symm)
      · exact ih h

theorem obstructs_of_locate (h : t.locate path = .error e) : t.Obstructs e := by
  have hlocate := h
  unfold locate at h
  split at h
  · rw [← Except.error.inj h]
    trivial
  · split at h
    · rw [← Except.error.inj h] at hlocate ⊢
      exact hlocate
    · split at h
      · rw [← Except.error.inj h]
        trivial
      · rcases follow_eq_error h with rfl | rfl | rfl
        · trivial
        · exact Or.inl hlocate
        · exact hlocate

theorem look_eq_some_iff {entry : Entry} :
    t.look path = .ok (some entry) ↔ ∃ a, t.locate path = .ok a ∧ t.get? a = some entry := by
  unfold look
  split <;> simp_all

theorem isDirectory_eq_true_iff :
    t.isDirectory path = .ok true ↔ ∃ a, t.locate path = .ok a ∧ t.get? a = some .directory := by
  rw [isDirectory, ← look_eq_some_iff]
  cases t.look path with
  | error e => simp [Except.map]
  | ok entry => simp [Except.map]

theorem isFile_eq_true_iff :
    t.isFile path = .ok true ↔
      ∃ a content, t.locate path = .ok a ∧ t.get? a = some (.file content) := by
  rw [exists_comm]
  simp only [← look_eq_some_iff, isFile]
  rcases t.look path with e | (- | (content | -)) <;> simp [Except.map]

theorem obstructs_of_look (h : t.look path = .error e) : t.Obstructs e := by
  unfold look at h
  split at h
  · simp at h
  · rename_i other hlocate
    rw [← Except.error.inj h]
    exact obstructs_of_locate hlocate
  · simp at h

/-- What is told from the entry at a path is refused with the entry. -/
theorem obstructs_of_map_look {α : Type} {f : Option Entry → α}
    (h : (t.look path).map f = .error e) : t.Obstructs e := by
  cases hlook : t.look path with
  | error e' =>
    rw [hlook] at h
    exact Except.error.inj h ▸ obstructs_of_look hlook
  | ok entry => simp [hlook, Except.map] at h

theorem obstructs_of_read (h : t.read path = .error e) : t.Obstructs e := by
  rcases except_bind_eq_error_iff.1 h with hlocate | ⟨a, hlocate, h⟩
  · exact obstructs_of_locate hlocate
  · cases ha : t.get? a with
    | none =>
      rw [ha] at h
      rw [← Except.error.inj h]
      trivial
    | some entry =>
      rw [ha] at h
      cases entry with
      | file content => simp at h
      | directory =>
        rw [← Except.error.inj h]
        exact isDirectory_eq_true_iff.2 ⟨a, hlocate, ha⟩

theorem obstructs_of_write {content : Bytes} (h : t.write path content = .error e) :
    t.Obstructs e := by
  rcases except_bind_eq_error_iff.1 h with hlocate | ⟨a, hlocate, h⟩
  · exact obstructs_of_locate hlocate
  · cases ha : t.get? a with
    | none => simp [ha] at h
    | some entry =>
      rw [ha] at h
      cases entry with
      | file content => simp at h
      | directory =>
        rw [← Except.error.inj h]
        exact isDirectory_eq_true_iff.2 ⟨a, hlocate, ha⟩

/-! ## Sources -/

theorem obstructs_of_names (h : t.names path = .error e) : t.Obstructs e := by
  rcases except_bind_eq_error_iff.1 h with hlocate | ⟨a, hlocate, h⟩
  · exact obstructs_of_locate hlocate
  · cases ha : t.get? a with
    | none =>
      rw [ha] at h
      rw [← Except.error.inj h]
      trivial
    | some entry =>
      rw [ha] at h
      cases entry with
      | file content =>
        rw [← Except.error.inj h]
        exact Or.inr (isFile_eq_true_iff.2 ⟨a, content, hlocate, ha⟩)
      | directory => simp at h

theorem obstructs_of_sources {directory : Path} {suffix : Text}
    (h : t.sources directory suffix = .error e) : t.Obstructs e := by
  rcases except_bind_eq_error_iff.1 h with hnames | ⟨names, -, h⟩
  · exact obstructs_of_names hnames
  · rcases except_bind_eq_error_iff.1 h with hfound | ⟨found, -, h⟩
    · obtain ⟨p, -, htest⟩ := exists_of_filterM_eq_error hfound
      rcases except_bind_eq_error_iff.1 htest with hfile | ⟨b, -, h⟩
      · exact obstructs_of_map_look hfile
      · cases h
    · cases h

theorem obstructs_of_index {directory : Path} {format suffix : Text}
    (h : t.index directory format suffix = .error e) : t.Obstructs e := by
  cases hfound : t.sources directory suffix with
  | error e' =>
    rw [index, hfound] at h
    exact Except.error.inj h ▸ obstructs_of_sources hfound
  | ok sources => simp [index, hfound, Except.map] at h

/-! ## Directories that are made -/

theorem obstructs_of_makeMissing (h : t.makeMissing path = (.error e, t')) : t'.Obstructs e := by
  unfold makeMissing at h
  cases hmade : t.makeDirectory path with
  | ok made => simp [hmade] at h
  | error e' =>
    rw [hmade] at h
    obtain ⟨hresult, rfl⟩ := Prod.mk.inj h
    rcases except_bind_eq_error_iff.1 hresult with hlook | ⟨b, hb, hresult⟩
    · exact obstructs_of_map_look hlook
    · cases b with
      | true => cases hresult
      | false =>
        obtain rfl := Except.error.inj hresult
        rcases except_bind_eq_error_iff.1 hmade with hlocate | ⟨a, hlocate, hmade⟩
        · exact obstructs_of_locate hlocate
        · cases ha : t.get? a with
          | none => simp [ha] at hmade
          | some entry =>
            rw [ha] at hmade
            obtain rfl := Except.error.inj hmade
            -- something is there, and it is no directory
            cases entry with
            | file content => exact isFile_eq_true_iff.2 ⟨a, content, hlocate, ha⟩
            | directory =>
              rw [isDirectory_eq_true_iff.2 ⟨a, hlocate, ha⟩] at hb
              cases hb

theorem obstructs_of_ensure {fuel : Nat} {p : Path} (h : ensure fuel t p = (.error e, t')) :
    t'.Obstructs e := by
  induction fuel generalizing t t' e p with
  | zero => exact obstructs_of_makeMissing h
  | succ fuel ih =>
    rw [ensure] at h
    split at h
    · split at h
      · rw [← Except.error.inj (Prod.mk.inj h).1]
        trivial
      · split at h
        · exact obstructs_of_makeMissing h
        · rename_i e' t₁ hparent
          obtain ⟨heq, rfl⟩ := Prod.mk.inj h
          exact Except.error.inj heq ▸ ih hparent
    · exact obstructs_of_makeMissing h

theorem obstructs_of_ensureDirectory {p : Path} (h : t.ensureDirectory p = (.error e, t')) :
    t'.Obstructs e := obstructs_of_ensure h

/-! ## Obstacles that stay -/

/-- A tree with the same directories or more, in which files are still files. -/
structure Grown (t t' : FileTree) : Prop where
  directories : ∀ b, t.get? b = some .directory → t'.get? b = some .directory
  files : ∀ b content, t.get? b = some (.file content) →
    ∃ content', t'.get? b = some (.file content')

theorem grown_of_write {content : Bytes} (h : t.write path content = .ok t') : Grown t t' := by
  obtain ⟨a, -, hchanged, hget⟩ := changedAt_of_write h
  refine ⟨fun b hb => (hchanged.directories b).2 hb, fun b content' hb => ?_⟩
  by_cases hab : b = a
  · exact ⟨content, hab ▸ hget⟩
  · exact ⟨content', by rw [hchanged.elsewhere b (by simpa using hab), hb]⟩

section Grown

variable (h : Grown t t')

include h

/-- A file on the way, or a length, still stops what it stopped. -/
theorem Grown.follow_eq_error {a : Address} {parts : List Text}
    (hfollow : t.follow path a parts = .error e) (he : e ≠ .missing path) :
    t'.follow path a parts = .error e := by
  induction parts generalizing a with
  | nil => simp [follow] at hfollow
  | cons part rest ih =>
    rw [follow] at hfollow ⊢
    split at hfollow
    · exact absurd (Except.error.inj hfollow).symm he
    · rename_i content ha
      obtain ⟨content', ha'⟩ := h.files a content ha
      simp only [ha']
      exact hfollow
    · rename_i ha
      simp only [h.directories a ha]
      split
      · rename_i hlong
        rwa [if_pos hlong] at hfollow
      · rename_i hlong
        rw [if_neg hlong] at hfollow
        exact ih hfollow

theorem Grown.locate_eq_error (hlocate : t.locate path = .error e) (he : e ≠ .missing path) :
    t'.locate path = .error e := by
  unfold locate at hlocate ⊢
  by_cases hnull : '\x00' ∈ path
  · rwa [if_pos hnull] at hlocate ⊢
  · rw [if_neg hnull] at hlocate ⊢
    by_cases hlong : pathLimit < byteCount path
    · rwa [if_pos hlong] at hlocate ⊢
    · rw [if_neg hlong] at hlocate ⊢
      by_cases hplace : (path.isEmpty || decide (Path.anchorOf path ≠ .here)) = true
      · rwa [if_pos hplace] at hlocate ⊢
      · rw [if_neg hplace] at hlocate ⊢
        exact h.follow_eq_error hlocate he

/-- What stands in the way stays there. -/
theorem Grown.obstructs (he : t.Obstructs e) : t'.Obstructs e := by
  have hfile : ∀ path, t.isFile path = .ok true → t'.isFile path = .ok true := by
    intro path hpath
    obtain ⟨a, content, hlocate, ha⟩ := isFile_eq_true_iff.1 hpath
    obtain ⟨content', ha'⟩ := h.files a content ha
    exact isFile_eq_true_iff.2 ⟨a, content', locate_of_directories h.directories hlocate, ha'⟩
  cases e with
  | nullCharacter => trivial
  | missing path => trivial
  | present path => exact hfile path he
  | notDirectory path =>
    rcases he with hlocate | hpath
    · exact Or.inl (h.locate_eq_error hlocate (by simp))
    · exact Or.inr (hfile path hpath)
  | isDirectory path =>
    obtain ⟨a, hlocate, ha⟩ := isDirectory_eq_true_iff.1 he
    exact isDirectory_eq_true_iff.2
      ⟨a, locate_of_directories h.directories hlocate, h.directories a ha⟩
  | tooLong path => exact h.locate_eq_error he (by simp)

end Grown

end FileTree

end CallDiagram
