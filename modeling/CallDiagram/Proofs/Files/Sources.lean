import CallDiagram.Files.Source
import CallDiagram.Proofs.Files.Access
import CallDiagram.Proofs.Text.Sorting

/-!
# The sources of a directory

The sources of a directory are its files with the suffix, each once and in ascending order of their
names, however the directory lists them.

* `FileTree.Sources` — what the sources of a directory are;
* `sources_of_eq_ok` — a directory whose sources are found.
-/

namespace CallDiagram

@[simp] theorem Path.name_child (p : Path) (name : Text) : (p.child name).name = name := by
  simp [Path.name, Path.child]

@[simp] theorem Path.parent_child (p : Path) (name : Text) : (p.child name).parent = p := by
  simp [Path.parent, Path.child]

namespace FileTree

variable {t : FileTree}

/-- The files with a suffix in the directory at an address, in ascending order. -/
structure Sources (t : FileTree) (directory : Path) (suffix : Text) (a : Address)
    (sources : List Path) : Prop where
  /-- Every file with the suffix is a source, and nothing else is. -/
  complete : ∀ p, p ∈ sources ↔ ∃ name content,
    p = directory.child name ∧ (a ++ [name], .file content) ∈ t.entries ∧ p.extension = suffix
  /-- Sources stand in the strict order of their names. -/
  ascending : sources.Pairwise fun p q => Text.precedes p.name q.name = true ∧ p.name ≠ q.name

/-- A path below a directory leads to a file if there is a file of that name. -/
theorem WellFormed.isFile_child (ht : t.WellFormed) {directory : Path} {a : Address}
    (hlocate : t.locate directory.text = .ok a) (ha : t.get? a = some .directory) {name : Text}
    {entry : Entry} (hmem : (a ++ [name], entry) ∈ t.entries) {b : Bool}
    (h : t.isFile (directory.child name).text = .ok b) :
    t.locate (directory.child name).text = .ok (a ++ [name]) ∧
      (b = true ↔ ∃ content, (a ++ [name], .file content) ∈ t.entries) := by
  have hname := ht.isEntryName hmem
  rcases locate_child hlocate ha hname with hchild | hchild
  · refine ⟨hchild, ?_⟩
    have hget := (ht.get?_eq_some_iff hname).2 hmem
    simp only [isFile, look, hchild, hget, Except.map, Except.ok.injEq] at h
    rw [← h]
    simp only [← ht.get?_eq_some_iff hname, hget, Option.some.injEq]
    cases entry <;> simp
  · simp [isFile, look, hchild, Except.map] at h

/-- If the sources of a directory are found, they are what they should be, and their paths lead to
them. -/
theorem WellFormed.sources_of_eq_ok (ht : t.WellFormed) {directory : Path} {suffix : Text}
    {sources : List Path} (h : t.sources directory suffix = .ok sources) :
    ∃ a, t.locate directory.text = .ok a ∧ t.get? a = some .directory ∧
      t.Sources directory suffix a sources ∧
      ∀ p ∈ sources, t.locate p.text = .ok (a ++ [p.name]) := by
  rw [FileTree.sources, except_bind_eq_ok_iff] at h
  obtain ⟨names, hnames, h⟩ := h
  rw [except_bind_eq_ok_iff] at h
  obtain ⟨found, hfound, h⟩ := h
  obtain ⟨a, hlocate, ha, rfl⟩ := names_eq_ok hnames
  obtain ⟨keep, htests, rfl⟩ := filterM_eq_ok hfound
  obtain rfl := Except.ok.inj h
  have hperm := sortBy_perm Path.name (((t.namesIn a).map directory.child).filter keep)
  -- a test looks at the entry and at the extension of its name
  have htest : ∀ name ∈ t.namesIn a,
      t.locate (directory.child name).text = .ok (a ++ [name]) ∧
        (keep (directory.child name) = true ↔
          (∃ content, (a ++ [name], .file content) ∈ t.entries) ∧
            (directory.child name).extension = suffix) := by
    intro name hname
    have hkeep := htests _ (List.mem_map_of_mem hname)
    rw [except_bind_eq_ok_iff] at hkeep
    obtain ⟨b, hfile, hkeep⟩ := hkeep
    obtain ⟨entry, hmem⟩ := mem_namesIn.1 hname
    obtain ⟨hchild, hb⟩ := ht.isFile_child hlocate ha hmem hfile
    refine ⟨hchild, ?_⟩
    rw [← Except.ok.inj hkeep, Bool.and_eq_true, beq_iff_eq, hb]
  refine ⟨a, hlocate, ha, ⟨fun p => ?complete, ?ascending⟩, fun p hp => ?located⟩
  case complete =>
    rw [hperm.mem_iff, List.mem_filter, List.mem_map]
    constructor
    · rintro ⟨⟨name, hname, rfl⟩, hkeep⟩
      obtain ⟨⟨content, hmem⟩, hextension⟩ := (htest name hname).2.1 hkeep
      exact ⟨name, content, rfl, hmem, hextension⟩
    · rintro ⟨name, content, rfl, hmem, hextension⟩
      have hname : name ∈ t.namesIn a := mem_namesIn.2 ⟨_, hmem⟩
      exact ⟨⟨name, hname, rfl⟩, (htest name hname).2.2 ⟨⟨content, hmem⟩, hextension⟩⟩
  case ascending =>
    refine ascending_sortBy ((List.filter_sublist.map Path.name).nodup ?_)
    rw [List.map_map]
    have hid : Path.name ∘ directory.child = id := funext fun name => by simp
    rw [hid, List.map_id]
    exact ht.nodup_namesIn a
  case located =>
    rw [hperm.mem_iff, List.mem_filter, List.mem_map] at hp
    obtain ⟨⟨name, hname, rfl⟩, -⟩ := hp
    rw [Path.name_child]
    exact (htest name hname).1

end FileTree

end CallDiagram
