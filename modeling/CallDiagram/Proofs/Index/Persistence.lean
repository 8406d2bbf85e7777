import CallDiagram.Proofs.Conversion.Places
import CallDiagram.Proofs.Files.PathText
import CallDiagram.Proofs.Index.File

/-!
# Indexes are kept

An index of texts is loaded as it was saved, and is saved in one form only, whatever the order of
its bindings.

* `ensureDirectory_run`, `saveIndex_run` — saving at a path that takes a file;
* `PersistenceLaw`, `persistenceLaw` — what is saved and loaded;
* `not_restored_unplaced` — paths of which only the directory can be made.
-/

namespace CallDiagram

open CallDiagram.Action

namespace Action

theorem ensureDirectory_run {path : Path} {w : World} {t : FileTree}
    (h : w.files.ensureDirectory path = (.ok (), t)) :
    ensureDirectory path w = .ok () (w.holding t) := by
  unfold ensureDirectory
  rw [get_bind_run, h]
  rfl

/-- If the directories above a path can be made, and it takes a file then, an index is saved there,
and is read by the very text of the path. -/
theorem saveIndex_run {path : Text} {w : World} {t : FileTree}
    (hparents : w.files.ensureDirectory (Path.ofText path).parent = (.ok (), t))
    (hfile : t.refusal? path = none) (links : Links) :
    ∃ w', saveIndex links (.ofText path) w = .ok () w' ∧
      w'.files.read path = .ok (Utf8.encode (indexText links)) := by
  obtain ⟨a, htakes⟩ := FileTree.exists_takes_iff.2 hfile
  have hplain : t.Takes (Path.ofText path).text a :=
    ⟨FileTree.locate_ofText htakes.located, htakes.free⟩
  obtain ⟨files, hwrite, hchanged, hheld⟩ := hplain.exists_write (Utf8.encode (indexText links))
  have hwritten : writeText (Path.ofText path).text (indexText links) (w.holding t)
      = .ok () ((w.holding t).holding files) := writeText_eq_ok_iff.2 ⟨files, hwrite, rfl⟩
  exact ⟨_, (bind_of_ok (ensureDirectory_run hparents) _).trans hwritten,
    FileTree.read_eq_ok_iff.2 ⟨a, hchanged.locate htakes.located, hheld⟩⟩

end Action

/-- What is kept of an index of texts that is saved at a path. -/
structure PersistenceLaw (links : Links) (path : Text) (w : World) : Prop where
  /-- It is loaded with the same bindings, as they stand in the file: in the strict order of their
  keys. -/
  restored : ∃ loaded w', saveIndex links (.ofText path) w = .ok () w' ∧
    loadIndex path w' = .ok loaded w' ∧
    loaded.Perm links ∧ (∀ k, Json.field? k loaded = Json.field? k links) ∧
    w'.files.read path = .ok (Utf8.encode (Json.indented (.object loaded))) ∧
    loaded.Pairwise fun e d => Text.precedes e.1 d.1 = true ∧ e.1 ≠ d.1
  /-- The order in which it was built does not show. -/
  canonical : ∀ links' : Links, links'.Perm links →
    saveIndex links' (.ofText path) w = saveIndex links (.ofText path) w

/-- The text of an index does not depend on the order in which it was built. -/
theorem indexText_eq_of_perm {links links' : Links} (h : BindsTexts links)
    (hperm : links'.Perm links) : indexText links' = indexText links := by
  have hkeys' := (hperm.map Prod.fst).nodup_iff.2 h.keys
  have h' : BindsTexts links' := ⟨hkeys', fun e he => h.texts e (hperm.mem_iff.1 he)⟩
  rw [indexText_of_texts h, indexText_of_texts h', sortBy_eq_of_perm hperm hkeys']

/-- If the directories above a path can be made, and it takes a file then, an index of texts is kept
there. -/
theorem persistenceLaw {links : Links} (h : BindsTexts links) {path : Text} {w : World}
    {t : FileTree} (hparents : w.files.ensureDirectory (Path.ofText path).parent = (.ok (), t))
    (hfile : t.refusal? path = none) : PersistenceLaw links path w := by
  obtain ⟨w', hsave, hread⟩ := saveIndex_run hparents hfile links
  have hperm := sortBy_perm Prod.fst links
  have hsame : ∀ k, Json.field? k (Text.sortBy Prod.fst links) = Json.field? k links :=
    Json.field?_eq_of_perm hperm h.sorted.keys
  refine ⟨⟨Text.sortBy Prod.fst links, w', hsave, loadIndex_run h hread, hperm, hsame, ?file,
    ascending_sortBy h.keys⟩, ?canonical⟩
  case file => rw [← indexText_of_texts h, hread]
  case canonical =>
    intro links' hperm'
    rw [saveIndex, saveIndex, indexText_eq_of_perm h hperm']

/-- An index with a character beyond the first plane, a quote, a backslash, a null character and a
carriage return, whose keys are not in order. -/
def oddIndex : Links :=
  [(['b', Char.ofNat 0x1F600], .str ['"', '\\', '\x00']),
    (['a', '"'], .str [Char.ofNat 0xE9, '\r'])]

/-- A world without files. -/
def blank : World where
  files := {}
  renderer := .missing

/-- That index is kept in a directory that has to be made. -/
theorem persistenceLaw_oddIndex :
    BindsTexts oddIndex ∧
      blank.files.ensureDirectory (Path.ofText "d/e/i.json").parent
        = (.ok (), ⟨[(["d"], .directory), (["d", "e"], .directory)]⟩) ∧
      FileTree.refusal? ⟨[(["d"], .directory), (["d", "e"], .directory)]⟩ "d/e/i.json" = none ∧
      PersistenceLaw oddIndex "d/e/i.json" blank := by
  have hbinds : BindsTexts oddIndex := ⟨by decide, by simp [oddIndex]⟩
  exact ⟨hbinds, rfl, rfl, persistenceLaw hbinds rfl rfl⟩

/-- Whether an index that is saved at a path is loaded from there. -/
def LoadedBack (links : Links) (path : Text) (w : World) : Prop :=
  ∃ loaded w₁ w₂, saveIndex links (.ofText path) w = .ok () w₁ ∧ loadIndex path w₁ = .ok loaded w₂

set_option maxRecDepth 20000 in
/-- An index is not kept at a path whose directory can be made if it ends like that of a directory,
or if its name is too long. -/
theorem not_restored_unplaced :
    (blank.files.ensureDirectory (Path.ofText "i.json/").parent).1 = .ok () ∧
      ¬ LoadedBack [(['a'], .str ['x'])] "i.json/" blank ∧
      (blank.files.ensureDirectory (Path.ofText (List.replicate 256 'b')).parent).1 = .ok () ∧
      ¬ LoadedBack [(['a'], .str ['x'])] (List.replicate 256 'b') blank := by
  refine ⟨rfl, ?slash, rfl, ?long⟩
  case slash =>
    rintro ⟨loaded, w₁, w₂, hsave, hload⟩
    obtain ⟨w₀, hsaved, v, hstopped⟩ : ∃ w₀,
        saveIndex [(['a'], .str ['x'])] (.ofText "i.json/") blank = .ok () w₀ ∧
          ∃ v, loadIndex "i.json/" w₀ = .error (.file (.notDirectory "i.json/")) v :=
      ⟨_, rfl, _, rfl⟩
    obtain rfl := (EStateM.Result.ok.inj (hsaved.symm.trans hsave)).2
    rw [hstopped] at hload
    simp at hload
  case long =>
    rintro ⟨loaded, w₁, w₂, hsave, -⟩
    obtain ⟨a, hlocate, -⟩ := FileTree.read_eq_ok_iff.1 (read_of_saveIndex hsave)
    exact FileTree.locate_ne_ok_of_long (List.replicate 256 'b') (by simp)
      (by decide +kernel) w₁.files a hlocate

end CallDiagram
