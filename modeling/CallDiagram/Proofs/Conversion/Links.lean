import CallDiagram.Proofs.Conversion.Images
import CallDiagram.Proofs.Conversion.Listed
import CallDiagram.Proofs.Diagram.Boxes
import CallDiagram.Proofs.Index.Lookup

/-!
# Links in a batch

In the diagrams that a batch with images leaves, a participant carries a link exactly if the batch
has a source that is named for its component, and the link leads to the image of this source.

* `boundTo_indexOf_iff` — what the sources of a batch bind a component to;
* `LeadsTo`, `LinkLaw` — where a link leads, and what a line says about the component it declares;
* `Illustrated`, `illustrated_of_convertDirectory` — the images of a batch that ends well;
* `linkLaw_of_convertDirectory` — a whole directory.
-/

namespace CallDiagram

open CallDiagram.Action

/-! ## What is linked -/

/-- The sources of a directory link a component exactly if one of them is named for it. -/
theorem boundTo_indexOf_iff {format suffix : Text} (hsuffix : suffix ≠ []) {directory : Path}
    {sources : List Path}
    (hsources : ∀ p ∈ sources, p = directory.child p.name ∧ p.extension = suffix) {e : Call}
    {group : Text} (hgroup : e.group = some group) (hname : IsName group)
    (hmethod : IsName e.method) {shown : Text} :
    BoundTo (indexOf format suffix sources) e shown ↔
      directory.child (group ++ '#' :: (e.method ++ suffix)) ∈ sources ∧
        shown = Percent.encode (group ++ '#' :: (e.method ++ '.' :: format)) := by
  have hidentifier : e.identifier = group ++ '#' :: e.method := by
    rw [Call.identifier, hgroup]
    rfl
  have hfield := @field?_indexOf format suffix hsuffix directory sources hsources _
    (isIdentifier_of_isName hname hmethod)
  simp only [List.append_assoc, List.cons_append] at hfield
  rw [BoundTo, hidentifier, hfield]
  have hnot : Percent.encode (group ++ '#' :: (e.method ++ '.' :: format)) ≠ [] :=
    encode_ne_nil (by simp)
  generalize Percent.encode (group ++ '#' :: (e.method ++ '.' :: format)) = link at hnot ⊢
  by_cases hmem : directory.child (group ++ '#' :: (e.method ++ suffix)) ∈ sources
  · rw [if_pos hmem]
    constructor
    · rintro ⟨v, hv, -, rfl⟩
      obtain rfl := Option.some.inj hv
      exact ⟨hmem, rfl⟩
    · rintro ⟨-, rfl⟩
      exact ⟨_, rfl, by simpa [Json.isVoid] using hnot, rfl⟩
  · rw [if_neg hmem]
    refine iff_of_false ?_ fun h => hmem h.1
    rintro ⟨v, hv, -⟩
    simp at hv

/-- A link leads to the image of a conversion: decoded, it names a file in the directory, and this
file holds what the drawing program makes of the diagram. -/
def LeadsTo (settings : Settings) (format : Text) (directory : Path) (w w' : World) (link : Text)
    (d : Conversion) : Prop :=
  ∃ name f image, Utf8.decode (Percent.decode link) = .ok name ∧
    d.imagePath = some (directory.child name) ∧ Format.read format = .ok f ∧
      w.renderer.drawn settings f d.diagram = .ok image ∧
        w'.files.read (directory.child name).text = .ok image

/-- A line behind others declares a participant for a method of a group, under an alias, and links
it as the batch has it. -/
structure LinkLaw (settings : Settings) (format : Text) (directory : Path) (w w' : World)
    (conversions : List Conversion) (before : List Text) (line group method name : Text) :
    Prop where
  /-- The participant stands in the box of the group. -/
  box : boxBehind none before = some group
  numbered : ∃ k, name = 'C' :: Text.integer k
  /-- The line ends with a link, or without one. -/
  declared : line = participantText (method ++ "()") name ∨
    ∃ link, line = participantText (method ++ "()") name ++ hyperlink link
  linked : (∃ link, line = participantText (method ++ "()") name ++ hyperlink link) ↔
    ∃ d ∈ conversions, d.source.name = group ++ '#' :: (method ++ settings.suffix)
  leads : ∀ link, line = participantText (method ++ "()") name ++ hyperlink link →
    ∀ d ∈ conversions, d.source.name = group ++ '#' :: (method ++ settings.suffix) →
      LeadsTo settings format directory w w' link d

/-! ## Images -/

/-- A batch with images at its end: each conversion is made of a source, named like it, and both its
diagram and its image are in their files. -/
structure Illustrated (settings : Settings) (format : Text) (directory : Path) (links : Links)
    (w w' : World) (d : Conversion) : Prop where
  named : ∃ front, d.source = directory.child (front ++ settings.suffix) ∧
    d.diagramPath = directory.child (front ++ diagramExtension) ∧
    d.imagePath = some (directory.child (front ++ '.' :: format)) ∧
    ∃ f image, Format.read format = .ok f ∧ w.renderer.drawn settings f d.diagram = .ok image ∧
      w'.files.read (directory.child (front ++ '.' :: format)).text = .ok image
  suffix : settings.suffix ≠ []
  written : w'.files.read d.diagramPath.text = .ok (Utf8.encode (d.diagram ++ ['\n']))
  drawn : ∃ counter text, counter.stem = ['C'] ∧ drawing counter links text = .ok d.diagram

section Batch

variable {settings : Settings} {directory : Path} {requested : Option Text} {index : Option Path}
  {w₀ w w₁ w' : World} {links : Links} {sources : List Path}
  {results : List (Conversion × Path)} {conversions : List Conversion}

/-- A batch that has drawn an image may draw. -/
theorem Prepared.maxJobs_pos
    (h : Prepared settings directory ((Text.nonempty? requested).getD settings.format.name) index
      w₀ w w₁ links sources results)
    (hend : convertDirectory settings directory requested true index w₀ = .ok conversions w')
    (hsome : results ≠ []) : 0 < settings.maxJobs := by
  rw [h.run, convertSources, bind_of_ok h.diagrams, if_neg (by simpa using hsome),
    if_pos rfl] at hend
  obtain ⟨u, w₂, hdraw, -⟩ := bind_eq_ok_iff.1 hend
  obtain ⟨_, w₃, hjobs, -⟩ := bind_eq_ok_iff.1 hdraw
  exact (requireJobs_eq_ok_iff.1 hjobs).1

/-- The format of a batch that has drawn an image is known. -/
theorem Prepared.exists_format (hfiles : w₀.files.WellFormed)
    (h : Prepared settings directory ((Text.nonempty? requested).getD settings.format.name) index
      w₀ w w₁ links sources results)
    (hend : convertDirectory settings directory requested true index w₀ = .ok conversions w')
    {r : Conversion × Path} (hr : r ∈ results) :
    ∃ f, Format.read ((Text.nonempty? requested).getD settings.format.name) = .ok f := by
  obtain ⟨a, hplace, -, -, hlaw⟩ := h.law hfiles
  rw [h.run, convertSources, bind_of_ok h.diagrams,
    if_neg (by simpa using List.ne_nil_of_mem hr), if_pos rfl] at hend
  obtain ⟨u, w₂, hdraw, -⟩ := bind_eq_ok_iff.1 hend
  obtain ⟨-, hread⟩ := drawEach_eq_nil (format_ne_nil settings requested)
    (hplace.of_changed hlaw.changed) hlaw.beside (drawAll_eq_ok hdraw)
  exact hread r hr

/-- A batch that ends well returns what it has prepared, with the images. -/
theorem Prepared.conversions_eq
    (h : Prepared settings directory ((Text.nonempty? requested).getD settings.format.name) index
      w₀ w w₁ links sources results)
    (hend : convertDirectory settings directory requested true index w₀ = .ok conversions w') :
    conversions = results.map fun r => { r.1 with imagePath := some r.2 } := by
  rw [h.run, convertSources, bind_of_ok h.diagrams] at hend
  by_cases hempty : results.isEmpty = true
  · rw [if_pos hempty] at hend
    obtain ⟨u, w₂, -, hend⟩ := bind_eq_ok_iff.1 hend
    rw [List.isEmpty_iff.1 hempty]
    exact (EStateM.Result.ok.inj hend).1.symm
  · rw [if_neg hempty, if_pos rfl] at hend
    obtain ⟨u, w₂, -, hend⟩ := bind_eq_ok_iff.1 hend
    exact (EStateM.Result.ok.inj hend).1.symm

/-- A place in a directory that spoils no image of a good run takes this image. -/
theorem exists_drawn_of_imageFault? {f : Format} {r : Conversion × Path}
    (h : imageFault? settings f w r = none) :
    ∃ image, w.renderer.drawn settings f r.1.diagram = .ok image ∧
      w.files.refusal? r.2.text = none := by
  rw [imageFault?] at h
  cases hdrawn : w.renderer.drawn settings f r.1.diagram with
  | error failure => simp [hdrawn] at h
  | ok image => exact ⟨image, rfl, by simpa [hdrawn] using h⟩

/-- All images of a batch with images that ends well are there, and its links are made from the
sources that it converts. -/
theorem illustrated_of_convertDirectory (hfiles : w₀.files.WellFormed)
    (h : convertDirectory settings directory requested true index w₀ = .ok conversions w') :
    w₀.files.sources directory settings.suffix = .ok (conversions.map Conversion.source) ∧
      ∀ d ∈ conversions, Illustrated settings
        ((Text.nonempty? requested).getD settings.format.name) directory
        (indexOf ((Text.nonempty? requested).getD settings.format.name) settings.suffix
          (conversions.map Conversion.source)) w₀ w' d := by
  obtain ⟨w, w₁, links, sources, results, hprepared⟩ := exists_prepared_of_convertDirectory h
  obtain ⟨hfound, rfl⟩ := hprepared.found_first hfiles
  obtain ⟨a, hplace, -, -, hlaw⟩ := hprepared.law hfiles
  have hends : EndsAs settings ((Text.nonempty? requested).getD settings.format.name) 1 directory
      results w₁ (.ok conversions w') := by
    rw [← h, hprepared.run]
    exact endsAs_convertSources (hprepared.maxJobs_pos h) Nat.one_pos hprepared.diagrams
  have hconversions := hprepared.conversions_eq h
  have hsource : conversions.map Conversion.source = sources := by
    rw [hconversions, List.map_map]
    exact hlaw.each
  refine ⟨hsource ▸ hfound, fun d hd => ?_⟩
  rw [hconversions] at hd
  obtain ⟨r, hr, rfl⟩ := List.mem_map.1 hd
  obtain ⟨f, hread⟩ := hprepared.exists_format hfiles h hr
  have himages := imagesLaw_of_drawSteps hfiles hread hprepared hends
  obtain ⟨hnone, -⟩ := himages.ending
  obtain ⟨front, hbeside⟩ := hlaw.beside r hr
  obtain ⟨image, hdrawn, hrefusal⟩ := exists_drawn_of_imageFault? (hnone r hr)
  have hentry := isEntryName_image hbeside.entry hbeside.named hread
  have hfree : w.files.isDirectory r.2.text = .ok false := by
    rw [hbeside.image] at hrefusal ⊢
    exact (hplace.refusal?_eq_none_iff hentry).1 hrefusal
  have himage := himages.images r hr image hdrawn hfree
  refine ⟨⟨front, hbeside.source, hbeside.diagram, congrArg some hbeside.image, f, image, hread, ?_,
    ?_⟩, ?_, himages.diagrams r hr, ?_⟩
  · rw [← hprepared.sameDrawing.1.renderer]
    exact hdrawn
  · rw [← hbeside.image]
    exact himage
  · obtain ⟨back, hsuffix, -⟩ := hbeside.extension
    simp [hsuffix]
  · obtain ⟨before, rest, hsplit⟩ := List.append_of_mem hr
    rw [hsource]
    exact ⟨_, _, rfl, hlaw.drawn before r rest hsplit⟩

/-- A link that is made for the source of a conversion leads to the image of this conversion. -/
theorem Illustrated.leadsTo {format : Text} {d : Conversion} {stem : Text}
    (h : Illustrated settings format directory links w w' d)
    (hname : d.source.name = stem ++ settings.suffix) :
    LeadsTo settings format directory w w' (Percent.encode (stem ++ '.' :: format)) d := by
  obtain ⟨front, hsource, -, himage, f, image, hread, hdrawn, hwritten⟩ := h.named
  obtain rfl : front = stem := by
    rw [hsource, Path.name_child] at hname
    exact List.append_cancel_right hname
  exact ⟨_, f, image, decode_link _, himage, hread, hdrawn, hwritten⟩

/-- Whatever settings, format and file for the index it has, a batch with images that ends well
leaves no link to nothing and no component without its link: in each diagram that it wrote, a
participant carries a link exactly if the batch has a source that is named for its component, and
the link leads to the image of this source. -/
theorem linkLaw_of_convertDirectory (hfiles : w₀.files.WellFormed)
    (h : convertDirectory settings directory requested true index w₀ = .ok conversions w') :
    w₀.files.sources directory settings.suffix = .ok (conversions.map Conversion.source) ∧
      ∀ c ∈ conversions,
        (∃ front, c.diagramPath = directory.child (front ++ diagramExtension)) ∧
        w'.files.read c.diagramPath.text = .ok (Utf8.encode (c.diagram ++ ['\n'])) ∧
        ∀ before line after, Text.pieces '\n' c.diagram = before ++ line :: after →
          participantStart <+: line →
            ∃ group method name, LinkLaw settings
              ((Text.nonempty? requested).getD settings.format.name) directory w₀ w' conversions
                before line group method name := by
  obtain ⟨hfound, hall⟩ := illustrated_of_convertDirectory hfiles h
  generalize (Text.nonempty? requested).getD settings.format.name = format at hall ⊢
  obtain ⟨a, -, -, hsource, -⟩ := hfiles.isSource_of_sources hfound
  refine ⟨hfound, fun c hc => ?_⟩
  have hc := hall c hc
  obtain ⟨front, -, hpath, -⟩ := hc.named
  refine ⟨⟨front, hpath⟩, hc.written, fun before line after hsplit hstart => ?_⟩
  obtain ⟨counter, text, hstem, hdrawing⟩ := hc.drawn
  obtain ⟨f, hparse, htext⟩ := drawing_eq_ok_iff.1 hdrawing
  obtain ⟨e, -, ⟨group, hgroup, hname, hmethod⟩, hbox, hnumbered, hshows⟩ :=
    exists_call_of_line hparse hstem (fun l hl => not_mem_break_indexOf hl) htext hsplit hstart
  have hmem : directory.child (group ++ '#' :: (e.method ++ settings.suffix))
        ∈ conversions.map Conversion.source ↔
      ∃ d ∈ conversions, d.source.name = group ++ '#' :: (e.method ++ settings.suffix) := by
    rw [List.mem_map]
    refine exists_congr fun d => and_congr_right fun hd => ?_
    constructor
    · intro heq
      rw [heq, Path.name_child]
    · intro heq
      rw [(hsource d.source (List.mem_map_of_mem hd)).child, heq]
  have hlinked : ∀ link, line = participantText e.label e.aliasName ++ hyperlink link ↔
      (∃ d ∈ conversions, d.source.name = group ++ '#' :: (e.method ++ settings.suffix)) ∧
        link = Percent.encode (group ++ '#' :: (e.method ++ '.' :: format)) := by
    intro link
    rw [hshows.linked link, boundTo_indexOf_iff hc.suffix
      (fun p hp => ⟨(hsource p hp).child, (hsource p hp).extension⟩) hgroup hname hmethod, hmem]
  refine ⟨group, e.method, e.aliasName, hbox.trans hgroup, hnumbered, ?declared, ?linked, ?leads⟩
  case declared =>
    by_cases hlink : ∃ link, line = participantText e.label e.aliasName ++ hyperlink link
    · exact Or.inr hlink
    · refine Or.inl (hshows.unlinked.2 fun shown hshown => hlink ⟨shown, ?_⟩)
      exact (hshows.linked shown).2 hshown
  case linked =>
    constructor
    · rintro ⟨link, hline⟩
      exact ((hlinked link).1 hline).1
    · intro hnamed
      exact ⟨_, (hlinked _).2 ⟨hnamed, rfl⟩⟩
  case leads =>
    intro link hline d hd hdname
    have hstem : d.source.name = (group ++ '#' :: e.method) ++ settings.suffix := by
      simpa using hdname
    have hleads := (hall d hd).leadsTo hstem
    rw [((hlinked link).1 hline).2]
    simpa using hleads

end Batch

/-- A directory with two sources that call each other; the name of one is encoded in links, and the
other also calls a component without a source. -/
def crossLinked : World where
  files := ⟨[
    (["B#g$.code"], .file (Utf8.encode "B#g$()\n  A#f(): back\n")),
    (["A#f.code"], .file (Utf8.encode "A#f()\n  B#g$()\n    h()\n"))]⟩
  renderer := .present fun _ _ _ document => .exited 0 (Utf8.encode document) []

theorem wellFormed_crossLinked : crossLinked.files.WellFormed := by decide

theorem sources_crossLinked : crossLinked.files.sources ⟨.here, []⟩ ".code"
    = .ok [⟨.here, ["A#f.code"]⟩, ⟨.here, ["B#g$.code"]⟩] := by cbv

/-- The diagrams of that directory link to each other. -/
theorem linkLaw_crossLinked :
    ∃ conversions w', crossLinked.files.WellFormed ∧
      convertDirectory {} ⟨.here, []⟩ (some "png") true none crossLinked = .ok conversions w' ∧
      crossLinked.files.sources ⟨.here, []⟩ ".code" = .ok (conversions.map Conversion.source) ∧
      ∀ c ∈ conversions,
        (∃ front, c.diagramPath = Path.child ⟨.here, []⟩ (front ++ diagramExtension)) ∧
        w'.files.read c.diagramPath.text = .ok (Utf8.encode (c.diagram ++ ['\n'])) ∧
        ∀ before line after, Text.pieces '\n' c.diagram = before ++ line :: after →
          participantStart <+: line →
            ∃ group method name,
              LinkLaw {} "png" ⟨.here, []⟩ crossLinked w' conversions before line group method
                name := by
  obtain ⟨conversions, w', h⟩ : ∃ conversions w',
      convertDirectory {} ⟨.here, []⟩ (some "png") true none crossLinked
        = .ok conversions w' := by
    rw [convertDirectory_run, sources_crossLinked]
    exact exists_of_endsWell (by decide +kernel)
  exact ⟨conversions, w', wellFormed_crossLinked, h,
    linkLaw_of_convertDirectory wellFormed_crossLinked h⟩

end CallDiagram
