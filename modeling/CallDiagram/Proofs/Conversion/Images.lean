import CallDiagram.Proofs.Conversion.Indexed
import CallDiagram.Proofs.Conversion.Underway

/-!
# What becomes of images

In whatever order the drawings of a batch end, each image is what its run has come to, a drawing
that is spoiled leaves the others alone, and the batch fails with the first fault by the order of
the sources.

* `Undisturbed` — diagrams that are written leave the places of images as they are;
* `Drawn.look_of_spoiled`, `Drawn.get?_elsewhere` — what the drawings leave alone;
* `ImagesLaw`, `imagesLaw_of_drawSteps`, `imagesLaw_of_endsAs` — a batch at its end.
-/

namespace CallDiagram

open CallDiagram.Action

/-! ## A batch with images -/

/-- What spoils an image is the same in worlds with one drawing program and the same places. -/
theorem imageFault?_congr {settings : Settings} {f : Format} {w w' : World}
    {r : Conversion × Path} (hrenderer : w'.renderer = w.renderer)
    (hrefusal : w'.files.refusal? r.2.text = w.files.refusal? r.2.text) :
    imageFault? settings f w' r = imageFault? settings f w r := by
  rw [imageFault?, imageFault?, hrenderer, hrefusal]

/-- What a batch with images comes to that read its sources in the second world and had written its
diagrams in the third. -/
structure ImagesLaw (settings : Settings) (f : Format) (w₀ w w₁ : World)
    (results : List (Conversion × Path)) (result : EStateM.Result Fault World (List Conversion)) :
    Prop where
  /-- The drawing program is called once for each document. -/
  attempts : ∃ tried, (worldBehind result).attempts = w₀.attempts ++ tried ∧
    tried.Perm (results.map fun r => w.renderer.attempt settings f r.1.diagram)
  /-- The diagrams stay, with a line break at the end. -/
  diagrams : ∀ r ∈ results, (worldBehind result).files.read r.1.diagramPath.text
    = .ok (Utf8.encode (r.1.diagram ++ ['\n']))
  /-- A run that ends well leaves its image. -/
  images : ∀ r ∈ results, ∀ image, w.renderer.drawn settings f r.1.diagram = .ok image →
    w.files.isDirectory r.2.text = .ok false →
      (worldBehind result).files.read r.2.text = .ok image
  /-- A drawing that is spoiled leaves what was there. -/
  spoiled : ∀ r ∈ results, imageFault? settings f w r ≠ none →
    (worldBehind result).files.look r.2.text = w.files.look r.2.text
  /-- Nothing else is changed. -/
  elsewhere : ∀ b, (∀ r ∈ results, w.files.locate r.2.text ≠ .ok b) →
    (worldBehind result).files.get? b = w₁.files.get? b
  /-- The batch fails with the first fault by the order of the sources. -/
  ending : match result with
    | .ok conversions _ => (∀ r ∈ results, imageFault? settings f w r = none) ∧
        conversions = results.map fun r => { r.1 with imagePath := some r.2 }
    | .error fault _ => results.findSome? (imageFault? settings f w) = some fault

section Batch

variable {settings : Settings} {format : Text} {f : Format} {limit : Nat} {directory : Path}
  {index : Option Path} {w₀ w w₁ : World} {links : Links} {sources : List Path}
  {results : List (Conversion × Path)}

/-- The images of a batch are apart, and the diagrams have not changed what was there nor what
spoils them. -/
structure Undisturbed (settings : Settings) (f : Format) (directory : Path)
    (results : List (Conversion × Path)) (w w₁ : World) : Prop where
  apart : Apart directory results
  fault : ∀ r ∈ results, imageFault? settings f w₁ r = imageFault? settings f w r
  look : ∀ r ∈ results, w₁.files.look r.2.text = w.files.look r.2.text
  /-- No image stands where a diagram stands. -/
  diagram : ∀ r ∈ results, ∀ r' ∈ results, r.2.name ≠ r'.1.diagramPath.name

theorem undisturbed_of_prepared {a : Address} (hread : Format.read format = .ok f)
    (hplace : IsPlace w.files directory a) (hnodup : sources.Nodup)
    (hlaw : PreparedLaw settings format links directory a {} w w₁ sources results)
    (hrenderer : w₁.renderer = w.renderer) :
    Undisturbed settings f directory results w w₁ := by
  have hapart : Apart directory results :=
    apart_of_beside hread hlaw.beside (hlaw.each.symm ▸ hnodup)
  have hdiagram : ∀ r ∈ results, ∀ r' ∈ results, r.2.name ≠ r'.1.diagramPath.name := by
    intro r hr r' hr'
    obtain ⟨front, hbeside⟩ := hlaw.beside r hr
    obtain ⟨front', hbeside'⟩ := hlaw.beside r' hr'
    rw [hbeside.image, hbeside'.diagram, Path.name_child, Path.name_child]
    exact image_ne_diagram hread front front'
  refine ⟨hapart, fun r hr => imageFault?_congr hrenderer ?_, fun r hr => ?_, hdiagram⟩
  · rw [hapart.child r hr]
    exact hplace.refusal?_of_changed hlaw.changed (hapart.entry r hr)
  · rw [hapart.child r hr]
    refine hplace.look_of_changed hlaw.changed (hapart.entry r hr) fun hmem => ?_
    obtain ⟨r', hr', heq⟩ := List.mem_map.1 hmem
    exact hdiagram r hr r' hr' (by simpa using heq.symm)

/-- A drawing that is spoiled has left what was there. -/
theorem Drawn.look_of_spoiled {a : Address} {w' : World} (h : Drawn settings f a results w w')
    (hplace : IsPlace w.files directory a) (hapart : Apart directory results)
    {r : Conversion × Path} (hr : r ∈ results) (hspoiled : imageFault? settings f w r ≠ none) :
    w'.files.look r.2.text = w.files.look r.2.text := by
  rw [hapart.child r hr]
  refine hplace.look_of_changed h.changed (hapart.entry r hr) fun hmem => ?_
  obtain ⟨r', hr', heq⟩ := List.mem_map.1 hmem
  obtain ⟨hmem', hgood⟩ := List.mem_filter.1 hr'
  have hsame : r' = r := List.inj_on_of_nodup_map hapart.nodup hmem' hr (by simpa using heq)
  exact hspoiled (by simpa [hsame] using hgood)

/-- Where no image stands, nothing is changed. -/
theorem Drawn.get?_elsewhere {a : Address} {w' : World} (h : Drawn settings f a results w w')
    (hplace : IsPlace w.files directory a) (hapart : Apart directory results) {b : Address}
    (hb : ∀ r ∈ results, w.files.locate r.2.text ≠ .ok b) :
    w'.files.get? b = w.files.get? b := by
  refine h.changed.elsewhere b fun hmem => ?_
  obtain ⟨r, hr, rfl⟩ := List.mem_map.1 hmem
  obtain ⟨hmem, hgood⟩ := List.mem_filter.1 hr
  obtain ⟨image, -, hwritten⟩ := h.written r hmem (by simpa using hgood)
  -- the image was written where its path leads
  apply hb r hmem
  rw [hapart.child r hmem] at hwritten
  rw [hapart.child r hmem, Path.name_child]
  obtain ⟨b, hlocate, -⟩ := FileTree.read_eq_ok_iff.1 hwritten
  have hback := h.changed.symm.locate hlocate
  rcases FileTree.locate_child hplace.located hplace.directory (hapart.entry r hmem) with
    hchild | hchild
  · exact hchild
  · simp [hback] at hchild

/-- In whatever order the drawings have ended, the batch comes to the same. -/
theorem imagesLaw_of_drawSteps (hfiles : w₀.files.WellFormed)
    (hread : Format.read format = .ok f)
    (hprepared : Prepared settings directory format index w₀ w w₁ links sources results)
    {result : EStateM.Result Fault World (List Conversion)}
    (h : EndsAs settings format limit directory results w₁ result) :
    ImagesLaw settings f w₀ w w₁ results result := by
  obtain ⟨a, hplace, hnodup, -, hlaw⟩ := hprepared.law hfiles
  obtain ⟨hsame, hsame₁⟩ := hprepared.sameDrawing
  obtain ⟨w₂, jobs, hsteps, hended, hresult⟩ := h
  have hplace₁ : IsPlace w₁.files directory a := hplace.of_changed hlaw.changed
  have hrenderer : w₁.renderer = w.renderer := hsame₁.renderer.trans hsame.renderer.symm
  have hkept := undisturbed_of_prepared hread hplace hnodup hlaw hrenderer
  obtain ⟨hdrawn, hfaults⟩ :=
    (underway_of_drawSteps hread hplace₁ hkept.apart hsteps).drawn hended
  have hfaults : faultsIn jobs = results.filterMap (imageFault? settings f w) :=
    hfaults.trans (List.filterMap_congr hkept.fault)
  have hnone : results = [] → faultsIn jobs = [] := by
    rintro rfl
    exact hfaults
  obtain ⟨lines, hrun⟩ := finishImages_run hnone settings directory w₂
  rw [hrun] at hresult
  have hbehind : (worldBehind result).files = w₂.files ∧
      (worldBehind result).attempts = w₂.attempts := by
    rw [hresult]
    cases faultsIn jobs <;> exact ⟨rfl, rfl⟩
  refine ⟨?attempts, ?diagrams, ?images, ?spoiled, ?elsewhere, ?ending⟩
  case attempts =>
    obtain ⟨tried, htried, hperm⟩ := hdrawn.attempts
    refine ⟨tried, ?_, hrenderer ▸ hperm⟩
    rw [hbehind.2, htried, hsame₁.attempts]
  case diagrams =>
    intro r hr
    rw [hbehind.1]
    refine (hdrawn.changed.read (hlaw.changed.locate (hlaw.located r hr)) fun hmem => ?_).2
      (hlaw.written r hr)
    obtain ⟨r', hr', heq⟩ := List.mem_map.1 hmem
    exact hkept.diagram r' (List.mem_of_mem_filter hr') r hr (by simpa using heq)
  case images =>
    intro r hr image himage hfree
    rw [hkept.apart.child r hr] at hfree
    have hplaceable := (hplace.refusal?_eq_none_iff (hkept.apart.entry r hr)).2 hfree
    have hgood : imageFault? settings f w₁ r = none := by
      rw [hkept.fault r hr, imageFault?, himage, hkept.apart.child r hr, hplaceable]
      rfl
    obtain ⟨image', himage', hwritten⟩ := hdrawn.written r hr hgood
    rw [hrenderer, himage] at himage'
    rw [hbehind.1, hwritten, Except.ok.inj himage']
  case spoiled =>
    intro r hr hspoiled
    rw [hbehind.1, ← hkept.look r hr]
    rw [← hkept.fault r hr] at hspoiled
    exact hdrawn.look_of_spoiled hplace₁ hkept.apart hr hspoiled
  case elsewhere =>
    intro b hb
    rw [hbehind.1]
    refine hdrawn.get?_elsewhere hplace₁ hkept.apart fun r hr hlocate => ?_
    exact hb r hr (hlaw.changed.symm.locate hlocate)
  case ending =>
    cases hlist : faultsIn jobs with
    | nil =>
      rw [hlist] at hresult hfaults
      subst hresult
      exact ⟨List.filterMap_eq_nil_iff.1 hfaults.symm, rfl⟩
    | cons fault faults =>
      rw [hlist] at hresult hfaults
      subst hresult
      show results.findSome? (imageFault? settings f w) = some fault
      rw [← List.head?_filterMap, ← hfaults]
      rfl

end Batch

/-- However the drawings of a batch have begun, they come to an end; drawing one after the other is
one of the ways to it, and all ends are as they should be. -/
theorem imagesLaw_of_endsAs {settings : Settings} {directory : Path} {requested : Option Text}
    {index : Option Path} {f : Format} {w₀ w w₁ : World} {links : Links} {sources : List Path}
    {results : List (Conversion × Path)} (hfiles : w₀.files.WellFormed)
    (hjobs : 0 < settings.maxJobs)
    (hread : Format.read ((Text.nonempty? requested).getD settings.format.name) = .ok f)
    (hprepared : Prepared settings directory
      ((Text.nonempty? requested).getD settings.format.name) index w₀ w w₁ links sources results) :
    results.map (fun r => r.1.source) = sources ∧
      (∀ r ∈ results, ∃ front, Beside directory settings.suffix
        ((Text.nonempty? requested).getD settings.format.name) front r) ∧
      NeverStuck settings ((Text.nonempty? requested).getD settings.format.name) settings.maxJobs
        results w₁ ∧
      EndsAs settings ((Text.nonempty? requested).getD settings.format.name) settings.maxJobs
        directory results w₁ (convertDirectory settings directory requested true index w₀) ∧
      ∀ result, EndsAs settings ((Text.nonempty? requested).getD settings.format.name)
          settings.maxJobs directory results w₁ result →
        ImagesLaw settings f w₀ w w₁ results result := by
  obtain ⟨a, -, -, -, hlaw⟩ := hprepared.law hfiles
  refine ⟨hlaw.each, hlaw.beside, neverStuck hjobs results w₁, ?_, fun result h => ?_⟩
  · rw [hprepared.run]
    exact endsAs_convertSources (fun _ => hjobs) hjobs hprepared.diagrams
  · exact imagesLaw_of_drawSteps hfiles hread hprepared h

/-- A directory with three sources; the second of their documents is not drawn. -/
def halfDrawn : World where
  files := ⟨[
    (["b.svg"], .file (Utf8.encode "old")),
    (["c.code"], .file (Utf8.encode "C#h()\n")),
    (["b.code"], .file (Utf8.encode "B#g()\n")),
    (["a.code"], .file (Utf8.encode "A#f()\n"))]⟩
  renderer := .present fun _ _ _ document =>
    if 'B' ∈ document then .exited 1 [] (Utf8.encode "bad") else .exited 0 (Utf8.encode document) []

/-- The sources of that directory. -/
def halfDrawnSources : List Path := [⟨.here, ["a.code"]⟩, ⟨.here, ["b.code"]⟩, ⟨.here, ["c.code"]⟩]

theorem wellFormed_halfDrawn : halfDrawn.files.WellFormed := by decide

theorem sources_halfDrawn :
    halfDrawn.files.sources ⟨.here, []⟩ ".code" = .ok halfDrawnSources := by cbv

theorem exists_prepared_halfDrawn : ∃ w₁ results, Prepared {} ⟨.here, []⟩ "svg" none halfDrawn
    halfDrawn w₁ (indexOf "svg" ".code" halfDrawnSources) halfDrawnSources results := by
  obtain ⟨results, w₁, h⟩ : ∃ results w₁, prepare {} "svg"
      (indexOf "svg" ".code" halfDrawnSources) {} halfDrawnSources halfDrawn
        = .ok results w₁ := exists_of_endsWell (by decide +kernel)
  refine ⟨w₁, results, ?_, rfl, sources_halfDrawn, h⟩
  rw [FileTree.index, sources_halfDrawn]
  rfl

/-- The other two documents are drawn, in whatever order. -/
theorem imagesLaw_halfDrawn : ∃ w₁ results,
    halfDrawn.files.WellFormed ∧ 0 < ({} : Settings).maxJobs ∧ Format.read "svg" = .ok .svg ∧
      Prepared {} ⟨.here, []⟩ "svg" none halfDrawn halfDrawn w₁
        (indexOf "svg" ".code" halfDrawnSources) halfDrawnSources results ∧
      results.map (fun r => r.1.source) = halfDrawnSources ∧
      (∀ r ∈ results, ∃ front, Beside ⟨.here, []⟩ ".code" "svg" front r) ∧
      NeverStuck {} "svg" 4 results w₁ ∧
      EndsAs {} "svg" 4 ⟨.here, []⟩ results w₁
        (convertDirectory {} ⟨.here, []⟩ none true none halfDrawn) ∧
      ∀ result, EndsAs {} "svg" 4 ⟨.here, []⟩ results w₁ result →
        ImagesLaw {} .svg halfDrawn halfDrawn w₁ results result := by
  obtain ⟨w₁, results, hprepared⟩ := exists_prepared_halfDrawn
  refine ⟨w₁, results, wellFormed_halfDrawn, by decide, rfl, hprepared, ?_⟩
  exact @imagesLaw_of_endsAs {} ⟨.here, []⟩ none none .svg halfDrawn halfDrawn w₁
    (indexOf "svg" ".code" halfDrawnSources) halfDrawnSources results wellFormed_halfDrawn
    (by decide) rfl hprepared

/-- The name of a source that leaves room for the extension of diagrams, but not for a longer
one. -/
def longName : Text := List.replicate 250 'a'

/-- A directory with that source. -/
def cramped : World where
  files := ⟨[([longName ++ (".code" : Text)], .file (Utf8.encode "A#f()\n"))]⟩
  renderer := .present fun _ _ _ _ => .exited 0 (Utf8.encode "<image/>") []

theorem wellFormed_cramped : cramped.files.WellFormed := by decide

set_option maxRecDepth 20000 in
theorem sources_cramped : cramped.files.sources ⟨.here, []⟩ ".code"
    = .ok [⟨.here, [longName ++ (".code" : Text)]⟩] := by cbv

theorem exists_prepared_cramped : ∃ w₁ results, Prepared {} ⟨.here, []⟩ "..svg" none cramped
    cramped w₁ (indexOf "..svg" ".code" [⟨.here, [longName ++ (".code" : Text)]⟩])
    [⟨.here, [longName ++ (".code" : Text)]⟩] results := by
  obtain ⟨results, w₁, h⟩ : ∃ results w₁, prepare {} "..svg"
      (indexOf "..svg" ".code" [⟨.here, [longName ++ (".code" : Text)]⟩]) {}
      [⟨.here, [longName ++ (".code" : Text)]⟩] cramped
        = .ok results w₁ := exists_of_endsWell (by decide +kernel)
  refine ⟨w₁, results, ?_, rfl, sources_cramped, h⟩
  rw [FileTree.index, sources_cramped]
  rfl

/-- The path for the image of that source leads nowhere in any tree. -/
theorem locate_longName (t : FileTree) : t.locate (longName ++ ("...svg" : Text))
    = .error (.tooLong (longName ++ ("...svg" : Text))) := by
  have hpieces : Text.pieces '/' (longName ++ ("...svg" : Text))
      = [longName ++ ("...svg" : Text)] := Text.pieces_of_not_mem (by decide +kernel)
  have hhere : t.get? [] = some .directory := rfl
  rw [FileTree.locate, if_neg (by decide +kernel), if_neg (by decide +kernel),
    if_neg (by decide +kernel), hpieces, FileTree.follow, hhere]
  exact if_pos (by decide +kernel)

/-- A run that ends well does not leave its image if the path for that is too long, although it
leads to no directory. -/
theorem not_drawn_cramped :
    ¬ ∀ (settings : Settings) (directory : Path) (requested : Option Text) (f : Format)
      (w w₁ : World) (links : Links) (sources : List Path) (results : List (Conversion × Path)),
      w.files.WellFormed → 0 < settings.maxJobs →
      Format.read ((Text.nonempty? requested).getD settings.format.name) = .ok f →
      Prepared settings directory ((Text.nonempty? requested).getD settings.format.name) none w w
        w₁ links sources results →
      ∀ r ∈ results, ∀ image, w.renderer.drawn settings f r.1.diagram = .ok image →
        w.files.look r.2.text ≠ .ok (some .directory) →
        (worldBehind (convertDirectory settings directory requested true none w)).files.read
          r.2.text = .ok image := by
  intro h
  obtain ⟨w₁, results, hprepared⟩ := exists_prepared_cramped
  obtain ⟨a, -, -, -, hlaw⟩ := hprepared.law wellFormed_cramped
  obtain ⟨r, rest, rfl, hsource, -⟩ := List.map_eq_cons_iff.1 hlaw.each
  obtain ⟨front, hbeside⟩ := hlaw.beside r List.mem_cons_self
  -- the image has the long name, too
  have hfront : front ++ (".code" : Text) = longName ++ (".code" : Text) := by
    have hname := congrArg Path.name (hbeside.source.symm.trans hsource)
    rw [Path.name_child] at hname
    exact hname
  have hpath : r.2.text = longName ++ ("...svg" : Text) := by
    rw [hbeside.image, List.append_cancel_right hfront]
    rfl
  have hlook : cramped.files.look r.2.text ≠ .ok (some .directory) := by
    rw [hpath, FileTree.look, locate_longName]
    simp
  have hread := h {} ⟨.here, []⟩ (some "..svg") .svg cramped w₁ _ _ _ wellFormed_cramped (by decide)
    rfl hprepared r List.mem_cons_self _ rfl hlook
  rw [hpath, FileTree.read_of_error (locate_longName _)] at hread
  simp at hread

end CallDiagram
