import CallDiagram.Proofs.Action.Attempts
import CallDiagram.Proofs.Conversion.Batch
import CallDiagram.Proofs.Files.Extended
import CallDiagram.Proofs.Index.File

/-!
# A batch that writes an index

The links of a batch are found before its index is written, and its sources afterwards.

* `announceIndex`, `Saved` — the index of a batch in its file;
* `batchLinks`, `convertDirectory_eq` — a batch with its links, its index and its sources;
* `Prepared`, `Prepared.run` — a batch with images as far as to its diagrams.
-/

namespace CallDiagram

open CallDiagram.Action

/-! ## The index -/

/-- Writes the index of a batch, if a path for it is given. -/
def Action.announceIndex (links : Links) : Option Path → Action Unit
  | some path => do
      saveIndex links path
      report batchLogger .info ("Wrote component index " ++ path.text)
  | none => pure ()

/-- The links of a batch.  Participants link to images only. -/
def Action.batchLinks (settings : Settings) (directory : Path) (format : Text) (images : Bool) :
    Action Links :=
  if images then do
    ofExcept .file ((← get).files.index directory format settings.suffix)
  else pure []

/-- A world in which an index may have been saved: no other file is changed, and no directory is
lost. -/
structure Saved (links : Links) (w w' : World) : Prop where
  drawing : w.SameDrawing w'
  wellFormed : w.files.WellFormed → w'.files.WellFormed
  directories : ∀ c, w.files.get? c = some .directory → w'.files.get? c = some .directory
  files : ∃ touched : List Address,
    (∀ c, c ∉ touched → ∀ content,
      w'.files.get? c = some (.file content) ↔ w.files.get? c = some (.file content)) ∧
    ∀ c ∈ touched, w'.files.get? c = some (.file (Utf8.encode (indexText links)))

theorem Saved.refl (links : Links) (w : World) : Saved links w w :=
  ⟨⟨rfl, rfl⟩, id, fun _ h => h, [], fun _ _ _ => Iff.rfl, by simp⟩

theorem ensureDirectory_eq_ok {path : Path} {w w' : World}
    (h : ensureDirectory path w = .ok () w') :
    w' = w.holding (w.files.ensureDirectory path).2 := by
  unfold ensureDirectory at h
  rw [get_bind_run] at h
  cases hmade : w.files.ensureDirectory path with
  | mk result files =>
    simp only [hmade] at h
    obtain ⟨u, w₁, hmodify, hresult⟩ := bind_eq_ok_iff.1 h
    obtain ⟨-, rfl⟩ := ofExcept_eq_ok_iff.1 hresult
    exact (EStateM.Result.ok.inj hmodify).2.symm

theorem saved_of_saveIndex {links : Links} {path : Path} {w w' : World}
    (h : saveIndex links path w = .ok () w') : Saved links w w' := by
  obtain ⟨u, w₁, hmade, hwritten⟩ := bind_eq_ok_iff.1 h
  obtain rfl := ensureDirectory_eq_ok hmade
  obtain ⟨files, hwrite, rfl⟩ := writeText_eq_ok_iff.1 hwritten
  have hextended := FileTree.extended_ensureDirectory w.files path.parent
  obtain ⟨b, -, hchanged, hcontent⟩ := FileTree.changedAt_of_write hwrite
  refine ⟨⟨rfl, rfl⟩, fun hfiles => (hextended.wellFormed hfiles).of_write hwrite, fun c hc => ?_,
    [b], fun c hc content => ?_, fun c hc => ?_⟩
  · exact (hchanged.directories c).2 (hextended.directories c hc)
  · rw [World.files_holding, hchanged.elsewhere c hc]
    exact hextended.files c content
  · obtain rfl := List.mem_singleton.1 hc
    exact hcontent

theorem saved_of_announceIndex {links : Links} {index : Option Path} {w w' : World}
    (h : announceIndex links index w = .ok () w') : Saved links w w' := by
  cases index with
  | none =>
    obtain rfl := (EStateM.Result.ok.inj h).2
    exact Saved.refl links w
  | some path =>
    obtain ⟨u, w₁, hsaved, hreport⟩ := bind_eq_ok_iff.1 h
    obtain ⟨lines, -, hrun⟩ := report_run batchLogger .info
      ("Wrote component index " ++ path.text) w₁
    rw [hrun] at hreport
    obtain rfl := (EStateM.Result.ok.inj hreport).2
    have hsaved := saved_of_saveIndex hsaved
    exact ⟨⟨hsaved.drawing.renderer, hsaved.drawing.attempts⟩, hsaved.wellFormed,
      hsaved.directories, hsaved.files⟩

/-! ## Diagrams -/

/-- A batch with images whose diagrams are written: it started in the first world, read its sources
in the second and has come to the third. -/
structure Prepared (settings : Settings) (directory : Path) (format : Text) (index : Option Path)
    (w₀ w w₁ : World) (links : Links) (sources : List Path) (results : List (Conversion × Path)) :
    Prop where
  linked : w₀.files.index directory format settings.suffix = .ok links
  saved : announceIndex links index w₀ = .ok () w
  found : w.files.sources directory settings.suffix = .ok sources
  diagrams : prepare settings format links {} sources w = .ok results w₁

section Images

variable {settings : Settings} {directory : Path} {requested : Option Text} {index : Option Path}
  {w₀ w w₁ : World} {links : Links} {sources : List Path} {results : List (Conversion × Path)}

/-- A batch finds its links, writes its index and then converts its sources. -/
theorem convertDirectory_eq (settings : Settings) (directory : Path) (requested : Option Text)
    (images : Bool) (index : Option Path) :
    convertDirectory settings directory requested images index
      = batchLinks settings directory ((Text.nonempty? requested).getD settings.format.name) images
          >>= fun links => announceIndex links index >>= fun _ => get >>= fun w =>
            ofExcept .file (w.files.sources directory settings.suffix) >>=
              convertSources settings directory
                ((Text.nonempty? requested).getD settings.format.name) images links := by
  unfold convertDirectory batchLinks
  cases index with
  | none => cases images <;> rfl
  | some path =>
    have hassoc : ∀ (links : Links) (rest : Action (List Conversion)),
        (announceIndex links (some path) >>= fun _ => rest)
          = (saveIndex links path >>= fun _ =>
              report batchLogger .info ("Wrote component index " ++ path.text) >>= fun _ => rest) :=
      fun links rest => bind_assoc _ _ _
    simp only [hassoc]
    cases images <;> rfl

theorem convertDirectory_images_run (settings : Settings) (directory : Path)
    (requested : Option Text) (index : Option Path) (w₀ : World) :
    convertDirectory settings directory requested true index w₀
      = (ofExcept .file (w₀.files.index directory
            ((Text.nonempty? requested).getD settings.format.name) settings.suffix) >>= fun links =>
          announceIndex links index >>= fun _ => get >>= fun w =>
            ofExcept .file (w.files.sources directory settings.suffix) >>=
              convertSources settings directory
                ((Text.nonempty? requested).getD settings.format.name) true links) w₀ := by
  rw [convertDirectory_eq]
  rfl

/-- A batch whose diagrams can be written goes on with its sources. -/
theorem Prepared.run (h : Prepared settings directory
      ((Text.nonempty? requested).getD settings.format.name) index w₀ w w₁ links sources results) :
    convertDirectory settings directory requested true index w₀
      = convertSources settings directory
          ((Text.nonempty? requested).getD settings.format.name) true links sources w := by
  rw [convertDirectory_images_run, bind_ofExcept_of_ok h.linked, bind_of_ok h.saved, get_bind_run,
    bind_ofExcept_of_ok h.found]

/-- A batch that ends well has written its diagrams. -/
theorem exists_prepared_of_convertDirectory {conversions : List Conversion} {w' : World}
    (h : convertDirectory settings directory requested true index w₀ = .ok conversions w') :
    ∃ w w₁ links sources results, Prepared settings directory
      ((Text.nonempty? requested).getD settings.format.name) index w₀ w w₁ links sources
        results := by
  rw [convertDirectory_images_run] at h
  obtain ⟨links, w₂, hlinked, hrest⟩ := bind_eq_ok_iff.1 h
  obtain ⟨hlinked, hsame⟩ := ofExcept_eq_ok_iff.1 hlinked
  obtain ⟨u, w, hsaved, hrest⟩ := bind_eq_ok_iff.1 hrest
  rw [get_bind_run] at hrest
  obtain ⟨sources, w₃, hfound, hrest⟩ := bind_eq_ok_iff.1 hrest
  obtain ⟨hfound, hsame'⟩ := ofExcept_eq_ok_iff.1 hfound
  obtain ⟨results, w₁, hdiagrams, -⟩ := bind_eq_ok_iff.1 hrest
  exact ⟨w, w₁, links, sources, results, hlinked, hsame ▸ hsaved, hfound, hsame' ▸ hdiagrams⟩

theorem Prepared.wellFormed {format : Text}
    (h : Prepared settings directory format index w₀ w w₁ links sources results)
    (hfiles : w₀.files.WellFormed) : w.files.WellFormed :=
  (saved_of_announceIndex h.saved).wellFormed hfiles

/-- The diagrams of a batch are what they should be. -/
theorem Prepared.law {format : Text}
    (h : Prepared settings directory format index w₀ w w₁ links sources results)
    (hfiles : w₀.files.WellFormed) :
    ∃ a, IsPlace w.files directory a ∧ sources.Nodup ∧
      w.files.Sources directory settings.suffix a sources ∧
      PreparedLaw settings format links directory a {} w w₁ sources results := by
  obtain ⟨a, hplace, hsources, hsource, hnodup⟩ := (h.wellFormed hfiles).isSource_of_sources h.found
  exact ⟨a, hplace, hnodup, hsources, preparedLaw hplace hsource hnodup h.diagrams⟩

/-- Nothing is drawn in front of the images. -/
theorem Prepared.sameDrawing {format : Text}
    (h : Prepared settings directory format index w₀ w w₁ links sources results) :
    w₀.SameDrawing w ∧ w₀.SameDrawing w₁ := by
  have hsaved := (saved_of_announceIndex h.saved).drawing
  have hdiagrams := DrawsNothing.prepare settings format links {} sources w
  rw [h.diagrams] at hdiagrams
  exact ⟨hsaved, hsaved.trans hdiagrams⟩

end Images

end CallDiagram
