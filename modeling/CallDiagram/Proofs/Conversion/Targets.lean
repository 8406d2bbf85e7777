import CallDiagram.Proofs.Conversion.Listed
import CallDiagram.Settings.Basic

/-!
# What a batch writes, and what it spares

The files that a batch writes stand in its directory, each in a place of its own.  They spare its
sources unless the suffix of sources is the extension of diagrams or of images: with such a suffix,
which nothing refuses, a batch writes over its own sources.

* `targets`, `Placed` — the files of a batch, and where they stand;
* `Placed.source_not_mem`, `Placed.disjoint` — the products of a source are apart from the sources
  and from the products of others;
* `Converted`, `exists_converted_of_convertSources` — a batch that ends well;
* `TargetsLaw`, `targetsLaw_of_convertDirectory` — a whole directory;
* `not_spared_namedLikeDiagram` — a suffix with which a source is lost.
-/

namespace CallDiagram

open CallDiagram.Action

/-- The files that some conversions have written. -/
def targets (conversions : List Conversion) : List Path :=
  conversions.flatMap fun c => c.diagramPath :: c.imagePath.toList

/-! ## Extensions -/

/-- A suffix stands where its only dot is the last one of a name. -/
theorem suffix_of_append_eq {front front' back extension : Text} (hback : '.' ∉ back)
    (h : front ++ '.' :: back = front' ++ '.' :: extension) :
    '.' :: back <:+ '.' :: extension := by
  have hback' : '.' :: back <:+ front' ++ '.' :: extension := ⟨front, h⟩
  rcases List.suffix_or_suffix_of_suffix hback' (List.suffix_append front' _) with hself | hself
  · exact hself
  · -- the dot of the extension is that of the suffix
    rcases List.suffix_cons_iff.1 hself with heq | hinside
    · exact heq ▸ List.suffix_refl _
    · exact absurd (hinside.mem List.mem_cons_self) hback

/-- The products of a source, which is named by its beginning, and the source itself. -/
structure Placed (settings : Settings) (format : Text) (images : Bool) (directory : Path)
    (front : Text) (c : Conversion) : Prop where
  named : front ≠ []
  extension : ∃ back, settings.suffix = '.' :: back ∧ '.' ∉ back
  entry : FileTree.IsEntryName (front ++ settings.suffix)
  source : c.source = directory.child (front ++ settings.suffix)
  diagram : c.diagramPath = directory.child (front ++ diagramExtension)
  image : c.imagePath = if images then some (directory.child (front ++ '.' :: format)) else none

section Names

variable {settings : Settings} {format : Text} {images : Bool} {directory : Path}
  {front front' : Text} {c c' : Conversion}

theorem Placed.mem_targets_iff (h : Placed settings format images directory front c) {p : Path} :
    p ∈ c.diagramPath :: c.imagePath.toList ↔
      p = directory.child (front ++ diagramExtension) ∨
        images = true ∧ p = directory.child (front ++ '.' :: format) := by
  rw [h.diagram, h.image]
  cases images <;> simp

theorem child_inj {name name' : Text} (h : directory.child name = directory.child name') :
    name = name' := by
  have hname := congrArg Path.name h
  rwa [Path.name_child, Path.name_child] at hname

/-- A source is apart from all products if its suffix is no extension of products. -/
theorem Placed.source_not_mem (h : Placed settings format images directory front c)
    (h' : Placed settings format images directory front' c')
    (hdiagram : settings.suffix ≠ diagramExtension)
    (himage : images = true → ¬ settings.suffix <:+ '.' :: format) :
    c.source ∉ c'.diagramPath :: c'.imagePath.toList := by
  obtain ⟨back, hsuffix, hback⟩ := h.extension
  intro hmem
  rcases h'.mem_targets_iff.1 hmem with heq | ⟨himages, heq⟩
  · rw [h.source] at heq
    have hname := child_inj heq
    rw [hsuffix] at hname
    apply hdiagram
    rw [hsuffix, (append_extension_inj hback (by decide) hname).2]
    rfl
  · rw [h.source] at heq
    have hname := child_inj heq
    rw [hsuffix] at hname
    apply himage himages
    rw [hsuffix]
    exact suffix_of_append_eq hback hname

/-- The products of a source stand in different places. -/
theorem Placed.nodup (h : Placed settings format images directory front c)
    (hread : images = true → ∃ f, Format.read format = .ok f) :
    (c.diagramPath :: c.imagePath.toList).Nodup := by
  rw [h.diagram, h.image]
  cases images with
  | false => simp
  | true =>
    obtain ⟨f, hread⟩ := hread rfl
    have hne : directory.child (front ++ diagramExtension)
        ≠ directory.child (front ++ '.' :: format) := by
      intro heq
      exact image_ne_diagram hread front front (child_inj heq).symm
    simpa using hne

/-- The products of different sources stand in different places. -/
theorem Placed.disjoint (h : Placed settings format images directory front c)
    (h' : Placed settings format images directory front' c')
    (hread : images = true → ∃ f, Format.read format = .ok f) (hne : c.source ≠ c'.source) :
    List.Disjoint (c.diagramPath :: c.imagePath.toList)
      (c'.diagramPath :: c'.imagePath.toList) := by
  have hfronts : front ≠ front' := by
    rintro rfl
    exact hne (h.source.trans h'.source.symm)
  intro p hp hp'
  rcases h.mem_targets_iff.1 hp with rfl | ⟨himages, rfl⟩
  · rcases h'.mem_targets_iff.1 hp' with heq | ⟨himages, heq⟩
    · exact hfronts (List.append_cancel_right (child_inj heq))
    · obtain ⟨f, hread⟩ := hread himages
      exact image_ne_diagram hread front' front (child_inj heq).symm
  · obtain ⟨f, hread⟩ := hread himages
    rcases h'.mem_targets_iff.1 hp' with heq | ⟨-, heq⟩
    · exact image_ne_diagram hread front front' (child_inj heq)
    · exact hfronts (List.append_cancel_right (child_inj heq))

end Names

/-! ## A batch that ends well -/

/-- What a batch has written that found its directory at an address. -/
structure Converted (settings : Settings) (format : Text) (images : Bool) (directory : Path)
    (a : Address) (w w' : World) (sources : List Path) (conversions : List Conversion) :
    Prop where
  each : conversions.map Conversion.source = sources
  placed : ∀ c ∈ conversions, ∃ front, Placed settings format images directory front c
  read : images = true → conversions ≠ [] → ∃ f, Format.read format = .ok f
  /-- Nothing but the files of the batch is changed. -/
  changed : FileTree.ChangedAt w.files w'.files
    ((targets conversions).map fun p => a ++ [p.name])

theorem imagePath_of_prepareOne {settings : Settings} {format : Text} {links : Links} {p : Path}
    {counter next : Counter} {r : Conversion × Path} {w w' : World}
    (h : prepareOne settings format links p counter w = .ok (r, next) w') :
    r.1.imagePath = none := by
  unfold prepareOne at h
  obtain ⟨⟨diagram, behind⟩, w₁, -, h⟩ := bind_eq_ok_iff.1 h
  obtain ⟨stem, w₂, -, h⟩ := bind_eq_ok_iff.1 h
  obtain ⟨diagramPath, w₃, -, h⟩ := bind_eq_ok_iff.1 h
  obtain ⟨u, w₄, -, h⟩ := bind_eq_ok_iff.1 h
  obtain ⟨imagePath, w₅, -, h⟩ := bind_eq_ok_iff.1 h
  obtain ⟨u', w₆, -, h⟩ := bind_eq_ok_iff.1 h
  simp only [pure_run, EStateM.Result.ok.injEq, Prod.mk.injEq] at h
  obtain ⟨⟨rfl, -⟩, -⟩ := h
  rfl

/-- What is prepared has no image yet. -/
theorem imagePath_of_prepare {settings : Settings} {format : Text} {links : Links}
    {counter : Counter} {sources : List Path} {results : List (Conversion × Path)} {w w' : World}
    (h : prepare settings format links counter sources w = .ok results w') :
    ∀ r ∈ results, r.1.imagePath = none := by
  induction sources generalizing counter results w with
  | nil =>
    obtain ⟨rfl, -⟩ := EStateM.Result.ok.inj h
    simp
  | cons p sources ih =>
    unfold prepare at h
    obtain ⟨⟨r, next⟩, w₁, hone, h⟩ := bind_eq_ok_iff.1 h
    obtain ⟨others, w₂, hothers, h⟩ := bind_eq_ok_iff.1 h
    obtain ⟨rfl, rfl⟩ := EStateM.Result.ok.inj h
    intro r' hr'
    rcases List.mem_cons.1 hr' with rfl | hr'
    · exact imagePath_of_prepareOne hone
    · exact ih hothers r' hr'

section Batch

variable {settings : Settings} {format : Text} {images : Bool} {directory : Path} {links : Links}
  {sources : List Path} {w w₁ w' : World} {conversions : List Conversion}

/-- The conversions of what was prepared, if nothing but their files is changed. -/
theorem converted_of_prepared {a : Address} {results : List (Conversion × Path)}
    (image : Conversion × Path → Conversion)
    (hlaw : PreparedLaw settings format links directory a {} w w₁ sources results)
    (himage : ∀ r ∈ results, (image r).source = r.1.source ∧
      (image r).diagramPath = r.1.diagramPath ∧
        (image r).imagePath = if images then some r.2 else none)
    (hread : images = true → results ≠ [] → ∃ f, Format.read format = .ok f)
    (hchanged : FileTree.ChangedAt w₁.files w'.files
      (if images then results.map fun r => a ++ [r.2.name] else [])) :
    Converted settings format images directory a w w' sources (results.map image) := by
  refine ⟨?each, ?placed, fun himages hne => hread himages (by simpa using hne), ?changed⟩
  case each =>
    rw [List.map_map, ← hlaw.each]
    exact List.map_congr_left fun r hr => (himage r hr).1
  case placed =>
    intro c hc
    obtain ⟨r, hr, rfl⟩ := List.mem_map.1 hc
    obtain ⟨front, hbeside⟩ := hlaw.beside r hr
    obtain ⟨hsource, hdiagram, hpath⟩ := himage r hr
    exact ⟨front, hbeside.named, hbeside.extension, hbeside.entry, hsource.trans hbeside.source,
      hdiagram.trans hbeside.diagram, by rw [hpath, hbeside.image]⟩
  case changed =>
    refine (hlaw.changed.trans hchanged).mono fun b hb => ?_
    rw [List.mem_map]
    rcases List.mem_append.1 hb with hb | hb
    · obtain ⟨r, hr, rfl⟩ := List.mem_map.1 hb
      refine ⟨r.1.diagramPath, ?_, rfl⟩
      refine List.mem_flatMap.2 ⟨image r, List.mem_map_of_mem hr, ?_⟩
      rw [(himage r hr).2.1]
      exact List.mem_cons_self
    · cases images with
      | false => simp at hb
      | true =>
        obtain ⟨r, hr, rfl⟩ := List.mem_map.1 hb
        refine ⟨r.2, ?_, rfl⟩
        refine List.mem_flatMap.2 ⟨image r, List.mem_map_of_mem hr, ?_⟩
        rw [(himage r hr).2.2]
        simp

/-- A batch that ends well has written the files of its conversions and nothing else. -/
theorem exists_converted_of_convertSources (hfiles : w.files.WellFormed) (hformat : format ≠ [])
    (hfound : w.files.sources directory settings.suffix = .ok sources)
    (h : convertSources settings directory format images links sources w = .ok conversions w') :
    ∃ a, IsPlace w.files directory a ∧ sources.Nodup ∧
      Converted settings format images directory a w w' sources conversions := by
  unfold convertSources at h
  obtain ⟨results, w₁, hprepare, hrest⟩ := bind_eq_ok_iff.1 h
  obtain ⟨a, hplace, -, hsource, hnodup⟩ := hfiles.isSource_of_sources hfound
  have hlaw := preparedLaw hplace hsource hnodup hprepare
  refine ⟨a, hplace, hnodup, ?_⟩
  by_cases hempty : results.isEmpty = true
  · obtain rfl := List.isEmpty_iff.1 hempty
    obtain ⟨lines, -, hreport⟩ := report_run batchLogger .warning
      ("No " ++ settings.suffix ++ " sources found in " ++ directory.text) w₁
    rw [if_pos hempty, bind_of_ok hreport] at hrest
    obtain ⟨rfl, rfl⟩ := EStateM.Result.ok.inj hrest
    refine converted_of_prepared Prod.fst hlaw (by simp) (by simp) ?_
    cases images <;> exact FileTree.ChangedAt.refl _
  · rw [if_neg hempty] at hrest
    cases images with
    | false =>
      obtain ⟨rfl, rfl⟩ := EStateM.Result.ok.inj hrest
      exact converted_of_prepared Prod.fst hlaw
        (fun r hr => ⟨rfl, rfl, imagePath_of_prepare hprepare r hr⟩) (by simp)
        (FileTree.ChangedAt.refl _)
    | true =>
      obtain ⟨u, w₂, hdraw, hend⟩ := bind_eq_ok_iff.1 hrest
      obtain ⟨rfl, rfl⟩ := EStateM.Result.ok.inj hend
      obtain ⟨hchanged, hread⟩ := drawEach_eq_nil hformat (hplace.of_changed hlaw.changed)
        hlaw.beside (drawAll_eq_ok hdraw)
      refine converted_of_prepared _ hlaw (fun r _ => ⟨rfl, rfl, rfl⟩) (fun _ hne => ?_) hchanged
      obtain ⟨r, hr⟩ := List.exists_mem_of_ne_nil _ hne
      exact hread r hr

/-! ## Diagrams over sources -/

theorem exists_diagramText_eq {f : Forest Node} {text : Text} (h : diagramText f = .ok text) :
    ∃ rest, text = '@' :: rest := by
  cases f with
  | nil => simp [diagramText, diagram, Except.map] at h
  | node n below after =>
    cases hcall : n.call? with
    | none => simp [diagramText, diagram, hcall, Except.map] at h
    | some first =>
      cases hbody : sections (.node n below after) with
      | error e => simp [diagramText, diagram, hcall, hbody, Except.map] at h
      | ok body =>
        simp only [diagramText, diagram, hcall, hbody, Except.map, Except.ok.injEq] at h
        exact ⟨_, h.symm⟩

/-- The diagram in its file is never the text that its source was, because it is no document. -/
theorem BatchLaw.read_diagramPath_ne {text : Path → Text}
    (h : BatchLaw settings directory links w w' text conversions) {c : Conversion}
    (hc : c ∈ conversions) :
    w'.files.read c.diagramPath.text ≠ w.files.read c.source.text := by
  intro heq
  obtain ⟨front, rest, hsplit⟩ := List.append_of_mem hc
  have hdrawn := h.drawn front c rest hsplit
  obtain ⟨f, -, htext⟩ := drawing_eq_ok_iff.1 hdrawn
  obtain ⟨more, hmore⟩ := exists_diagramText_eq htext
  have hfile : w.files.read c.source.text = .ok (Utf8.encode ('@' :: (more ++ ['\n']))) := by
    rw [← heq, h.written c hc, hmore]
    rfl
  obtain ⟨e, hrefused⟩ := exists_error_of_drawing_file (by decide) (by decide) (by decide) hfile
    (h.read c hc) (counterBehind (front.map fun b => text b.source)) links
  simp [hdrawn] at hrefused

/-! ## A whole directory -/

/-- What becomes of the files of a batch and of its sources. -/
structure TargetsLaw (settings : Settings) (format : Text) (images : Bool) (directory : Path)
    (w w' : World) (conversions : List Conversion) : Prop where
  /-- All files of a batch stand in its directory. -/
  inside : ∀ p ∈ targets conversions, p = directory.child p.name
  /-- No two of them are in one place. -/
  distinct : (targets conversions).Nodup
  /-- Sources whose suffix is no extension of products are spared. -/
  spared : settings.suffix ≠ diagramExtension →
    (images = true → ¬ settings.suffix <:+ '.' :: format) →
      ∀ c ∈ conversions, c.source ∉ targets conversions ∧
        w'.files.read c.source.text = w.files.read c.source.text
  /-- Sources with the extension of diagrams are lost. -/
  lost : settings.suffix = diagramExtension → ∀ c ∈ conversions, c.diagramPath = c.source ∧
    w'.files.read c.source.text ≠ w.files.read c.source.text
  /-- Sources with the extension of images are written over, too. -/
  drawnOver : images = true → settings.suffix = '.' :: format →
    ∀ c ∈ conversions, c.imagePath = some c.source

theorem Converted.targetsLaw {a : Address} (hplace : IsPlace w.files directory a)
    (hnodup : sources.Nodup)
    (h : Converted settings format images directory a w w' sources conversions)
    {text : Path → Text} (hbatch : BatchLaw settings directory links w w' text conversions) :
    TargetsLaw settings format images directory w w' conversions := by
  have hmem : ∀ p, p ∈ targets conversions ↔
      ∃ c ∈ conversions, p ∈ c.diagramPath :: c.imagePath.toList := fun p => List.mem_flatMap
  have hinside : ∀ p ∈ targets conversions, p = directory.child p.name := by
    intro p hp
    obtain ⟨c, hc, hp⟩ := (hmem p).1 hp
    obtain ⟨front, hplaced⟩ := h.placed c hc
    rcases hplaced.mem_targets_iff.1 hp with rfl | ⟨-, rfl⟩
    · rw [Path.name_child]
    · rw [Path.name_child]
  refine ⟨hinside, ?distinct, ?spared, ?lost, ?drawnOver⟩
  case distinct =>
    have hread : ∀ c ∈ conversions, images = true → ∃ f, Format.read format = .ok f :=
      fun c hc himages => h.read himages (List.ne_nil_of_mem hc)
    rw [targets, List.nodup_flatMap]
    constructor
    · intro c hc
      obtain ⟨front, hplaced⟩ := h.placed c hc
      exact hplaced.nodup (hread c hc)
    · have hsources : conversions.Pairwise fun c c' => c.source ≠ c'.source := by
        rw [← List.pairwise_map, h.each]
        exact hnodup
      refine hsources.imp_of_mem fun hc hc' hne => ?_
      obtain ⟨front, hplaced⟩ := h.placed _ hc
      obtain ⟨front', hplaced'⟩ := h.placed _ hc'
      exact hplaced.disjoint hplaced' (hread _ hc) hne
  case spared =>
    intro hdiagram himage c hc
    obtain ⟨front, hplaced⟩ := h.placed c hc
    have hapart : c.source ∉ targets conversions := by
      intro hsource
      obtain ⟨c', hc', hsource⟩ := (hmem _).1 hsource
      obtain ⟨front', hplaced'⟩ := h.placed c' hc'
      exact hplaced.source_not_mem hplaced' hdiagram himage hsource
    refine ⟨hapart, ?_⟩
    rw [hplaced.source]
    refine hplace.read_of_changed h.changed hplaced.entry fun htouched => ?_
    obtain ⟨p, hp, heq⟩ := List.mem_map.1 htouched
    have hname : p.name = front ++ settings.suffix := by simpa using heq
    apply hapart
    rw [hplaced.source, ← hname, ← hinside p hp]
    exact hp
  case lost =>
    intro hsuffix c hc
    obtain ⟨front, hplaced⟩ := h.placed c hc
    have hsame : c.diagramPath = c.source := by rw [hplaced.diagram, hplaced.source, hsuffix]
    have hne := hbatch.read_diagramPath_ne hc
    rw [hsame] at hne
    exact ⟨hsame, hne⟩
  case drawnOver =>
    intro himages hsuffix c hc
    obtain ⟨front, hplaced⟩ := h.placed c hc
    rw [hplaced.image, if_pos himages, hplaced.source, hsuffix]

/-- Whatever settings it has, a batch that writes no index and ends well writes each of its files in
a place of its own in the directory, and no file over a source unless the suffix of sources is the
extension of diagrams or of images. -/
theorem targetsLaw_of_convertDirectory {requested : Option Text} (hfiles : w.files.WellFormed)
    (h : convertDirectory settings directory requested images none w = .ok conversions w') :
    TargetsLaw settings ((Text.nonempty? requested).getD settings.format.name) images directory w w'
      conversions := by
  rw [convertDirectory_run] at h
  cases hfound : w.files.sources directory settings.suffix with
  | error e => simp [hfound] at h
  | ok sources =>
    simp only [hfound] at h
    have hformat := format_ne_nil settings requested
    obtain ⟨a, hplace, hnodup, hconverted⟩ :=
      exists_converted_of_convertSources hfiles hformat hfound h
    exact hconverted.targetsLaw hplace hnodup (batchLaw_of_convertSources hfiles hformat hfound h)

end Batch

/-- The two sources of a directory are spared. -/
theorem targetsLaw_listedBackwards :
    ∃ conversions w', listedBackwards.files.WellFormed ∧
      convertDirectory {} ⟨.here, []⟩ (some "..SVG") true none listedBackwards
        = .ok conversions w' ∧
      TargetsLaw {} "..SVG" true ⟨.here, []⟩ listedBackwards w' conversions := by
  obtain ⟨conversions, w', h⟩ : ∃ conversions w',
      convertDirectory {} ⟨.here, []⟩ (some "..SVG") true none listedBackwards
        = .ok conversions w' := by
    rw [convertDirectory_run, sources_listedBackwards]
    exact exists_of_endsWell (by decide +kernel)
  exact ⟨conversions, w', wellFormed_listedBackwards, h,
    targetsLaw_of_convertDirectory wellFormed_listedBackwards h⟩

/-- A directory with a source that is named like a diagram. -/
def namedLikeDiagram : World where
  files := ⟨[(["A#f.puml"], .file (Utf8.encode "A#f()\n"))]⟩
  renderer := .missing

/-- The settings of an environment that takes such names for those of sources. -/
def namedLikeDiagramSettings : Settings := { suffix := ".puml" }

theorem wellFormed_namedLikeDiagram : namedLikeDiagram.files.WellFormed := by decide

theorem sources_namedLikeDiagram : namedLikeDiagram.files.sources ⟨.here, []⟩ ".puml"
    = .ok [⟨.here, ["A#f.puml"]⟩] := by cbv

/-- An environment may set the suffix of sources to the extension of diagrams, and then a batch that
ends well has lost its sources. -/
theorem not_spared_namedLikeDiagram :
    ¬ ∀ (env : Environment) (settings : Settings) (directory : Path) (requested : Option Text)
      (images : Bool) (w w' : World) (conversions : List Conversion),
      Settings.ofEnvironment env = .ok settings → w.files.WellFormed →
      convertDirectory settings directory requested images none w = .ok conversions w' →
      ∀ c ∈ conversions, c.source ∉ targets conversions ∧
        w'.files.read c.source.text = w.files.read c.source.text := by
  intro h
  have hwell := wellFormed_namedLikeDiagram
  have hsources := sources_namedLikeDiagram
  obtain ⟨conversions, w', hrun⟩ : ∃ conversions w',
      convertDirectory namedLikeDiagramSettings ⟨.here, []⟩ none false none namedLikeDiagram
        = .ok conversions w' := by
    rw [convertDirectory_run]
    simp only [namedLikeDiagramSettings, hsources]
    exact exists_of_endsWell (by decide +kernel)
  have hspared := h [(Settings.suffixVariable, ".puml")] namedLikeDiagramSettings _ _ _ _ _ _ rfl
    hwell hrun
  rw [convertDirectory_run] at hrun
  simp only [namedLikeDiagramSettings, hsources] at hrun
  have hformat := format_ne_nil namedLikeDiagramSettings none
  obtain ⟨a, hplace, hnodup, hconverted⟩ :=
    exists_converted_of_convertSources hwell hformat hsources hrun
  have hlaw := hconverted.targetsLaw hplace hnodup
    (batchLaw_of_convertSources hwell hformat hsources hrun)
  obtain ⟨c, rest, rfl, -, -⟩ := List.map_eq_cons_iff.1 hconverted.each
  exact (hlaw.lost rfl c List.mem_cons_self).2 (hspared c List.mem_cons_self).2

end CallDiagram
