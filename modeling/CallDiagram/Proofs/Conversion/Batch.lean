import CallDiagram.Conversion.Batch
import CallDiagram.Proofs.Conversion.Diagram
import CallDiagram.Proofs.Conversion.Products
import CallDiagram.Proofs.Diagram.Aliases

/-!
# The documents of a batch

A batch reads every source as it stood before the batch, although it writes beside the sources, and
numbers each document from behind the calls of those before it.

* `IsSource`, `prepareOne_eq_ok` — one source;
* `PreparedLaw`, `preparedLaw` — the loop over the sources;
* `drawEach_eq_nil` — the loop over the images leaves the diagrams alone;
* `BatchLaw`, `batchLaw_of_convertDirectory` — a whole directory.
-/

namespace CallDiagram

open CallDiagram.Action

/-! ## One source -/

/-- A path that leads to an entry of the directory at an address, with the suffix. -/
structure IsSource (t : FileTree) (directory : Path) (a : Address) (suffix : Text) (p : Path) :
    Prop where
  child : p = directory.child p.name
  entry : FileTree.IsEntryName p.name
  extension : p.extension = suffix
  located : t.locate p.text = .ok (a ++ [p.name])

theorem IsSource.of_changed {t t' : FileTree} {touched : List Address} {directory : Path}
    {a : Address} {suffix : Text} {p : Path} (h : IsSource t directory a suffix p)
    (hchanged : FileTree.ChangedAt t t' touched) : IsSource t' directory a suffix p :=
  ⟨h.child, h.entry, h.extension, hchanged.locate h.located⟩

/-- A directory that a path leads to. -/
structure IsPlace (t : FileTree) (directory : Path) (a : Address) : Prop where
  located : t.locate directory.text = .ok a
  directory : t.get? a = some .directory

theorem IsPlace.of_changed {t t' : FileTree} {touched : List Address} {directory : Path}
    {a : Address} (h : IsPlace t directory a) (hchanged : FileTree.ChangedAt t t' touched) :
    IsPlace t' directory a :=
  ⟨hchanged.locate h.located, (hchanged.directories a).2 h.directory⟩

/-- The sources of a directory are different sources in one place. -/
theorem FileTree.WellFormed.isSource_of_sources {t : FileTree} (ht : t.WellFormed)
    {directory : Path} {suffix : Text} {sources : List Path}
    (h : t.sources directory suffix = .ok sources) :
    ∃ a, IsPlace t directory a ∧ t.Sources directory suffix a sources ∧
      (∀ p ∈ sources, IsSource t directory a suffix p) ∧ sources.Nodup := by
  obtain ⟨a, hlocate, hdirectory, hsources, hlocated⟩ := ht.sources_of_eq_ok h
  refine ⟨a, ⟨hlocate, hdirectory⟩, hsources, fun p hp => ?_, ?_⟩
  · obtain ⟨name, content, rfl, hmem, hextension⟩ := (hsources.complete p).1 hp
    refine ⟨by rw [Path.name_child], ?_, hextension, hlocated _ hp⟩
    rw [Path.name_child]
    exact ht.isEntryName hmem
  · exact hsources.ascending.imp fun hnames heq => hnames.2 (congrArg Path.name heq)

/-- What is written beside a source changes the entry of its name. -/
theorem IsPlace.changedAt_of_write {t t' : FileTree} {directory : Path} {a : Address}
    (h : IsPlace t directory a) {name : Text} (hname : FileTree.IsEntryName name)
    {content : Bytes} (hwrite : t.write (directory.child name).text content = .ok t') :
    t.locate (directory.child name).text = .ok (a ++ [name]) ∧
      FileTree.ChangedAt t t' [a ++ [name]] := by
  obtain ⟨b, hlocate, hchanged, -⟩ := FileTree.changedAt_of_write hwrite
  rcases FileTree.locate_child h.located h.directory hname with hchild | hchild
  · obtain rfl := Except.ok.inj (hlocate.symm.trans hchild)
    exact ⟨hlocate, hchanged⟩
  · simp [hchild] at hlocate

/-- A conversion with the path for its image, made from a source: the names are one beginning with
different extensions. -/
structure Beside (directory : Path) (suffix format front : Text) (r : Conversion × Path) :
    Prop where
  named : front ≠ []
  extension : ∃ back, suffix = '.' :: back ∧ '.' ∉ back
  entry : FileTree.IsEntryName (front ++ suffix)
  source : r.1.source = directory.child (front ++ suffix)
  diagram : r.1.diagramPath = directory.child (front ++ diagramExtension)
  image : r.2 = directory.child (front ++ '.' :: format)

/-- The text of a file, as far as it has one. -/
def textAt (w : World) (p : Path) : Text :=
  match readText p.text w with
  | .ok text _ => text
  | .error _ _ => []

theorem textAt_eq {w w' : World} {p : Path} {text : Text} (h : readText p.text w = .ok text w') :
    textAt w p = text := by
  rw [textAt, h]

section Loop

variable {settings : Settings} {format : Text} {links : Links} {directory : Path} {a : Address}
  {w w' : World}

/-- A source that is prepared is read first, then its diagram is written. -/
theorem prepareOne_eq_ok {p : Path} {counter next : Counter} {r : Conversion × Path}
    (hp : IsSource w.files directory a settings.suffix p)
    (h : prepareOne settings format links p counter w = .ok (r, next) w') :
    r.1.source = p ∧ (∃ front, Beside directory settings.suffix format front r) ∧
      readText p.text w = .ok (textAt w p) w ∧
      drawing counter links (textAt w p) = .ok r.1.diagram ∧
      next = counter.advance (callLines (textAt w p)) ∧
      w.files.write r.1.diagramPath.text (Utf8.encode (diagramFile r.1.diagram))
        = .ok w'.files := by
  unfold prepareOne at h
  obtain ⟨⟨diagram, behind⟩, w₁, hdiagram, h⟩ := bind_eq_ok_iff.1 h
  obtain ⟨text, lines, hread, hdrawing, rfl, rfl⟩ := diagramOf_eq_ok hdiagram
  obtain ⟨stem, w₂, hrun, h⟩ := bind_eq_ok_iff.1 h
  obtain ⟨hstem, rfl⟩ := ofExcept_eq_ok_iff.1 hrun
  obtain ⟨diagramPath, w₃, hrun, h⟩ := bind_eq_ok_iff.1 h
  obtain ⟨hpath, rfl⟩ := ofExcept_eq_ok_iff.1 hrun
  obtain ⟨u, w₄, hrun, h⟩ := bind_eq_ok_iff.1 h
  obtain ⟨files, hwrite, rfl⟩ := writeText_eq_ok_iff.1 hrun
  obtain ⟨imagePath, w₅, hrun, h⟩ := bind_eq_ok_iff.1 h
  obtain ⟨himage, rfl⟩ := ofExcept_eq_ok_iff.1 hrun
  obtain ⟨more, -, hreport⟩ := report_run batchLogger .debug ("Wrote " ++ diagramPath.text)
    ((w.warned lines).holding files)
  rw [bind_of_ok hreport] at h
  simp only [pure_run, EStateM.Result.ok.injEq, Prod.mk.injEq] at h
  obtain ⟨⟨rfl, rfl⟩, rfl⟩ := h
  have hextension := hp.extension
  rw [hp.child] at hextension hstem
  obtain ⟨front, back, hname, hfront, hsuffix, hback, rfl⟩ := outputStem_eq_ok hextension hstem
  have hsource : p = directory.child (front ++ settings.suffix) := hname ▸ hp.child
  obtain ⟨f, hparse, -⟩ := drawing_eq_ok_iff.1 hdrawing
  rw [textAt_eq hread]
  refine ⟨rfl, ⟨front, ?_⟩, hread, hdrawing, parseText_counter_of_ok hparse, hwrite⟩
  exact ⟨hfront, ⟨back, hsuffix, hback⟩, hname ▸ hp.entry, hsource, diagramPathOf_eq_ok hpath,
    imagePathOf_eq_ok himage⟩

/-! ## All sources -/

/-- What the preparation of some sources comes to. -/
structure PreparedLaw (settings : Settings) (format : Text) (links : Links) (directory : Path)
    (a : Address) (counter : Counter) (w w' : World) (sources : List Path)
    (results : List (Conversion × Path)) : Prop where
  /-- There is a result for each source. -/
  each : results.map (fun r => r.1.source) = sources
  /-- Nothing but the diagrams is changed. -/
  changed : FileTree.ChangedAt w.files w'.files
    (results.map fun r => a ++ [r.1.diagramPath.name])
  beside : ∀ r ∈ results, ∃ front, Beside directory settings.suffix format front r
  located : ∀ r ∈ results, w.files.locate r.1.diagramPath.text = .ok (a ++ [r.1.diagramPath.name])
  read : ∀ p ∈ sources, readText p.text w = .ok (textAt w p) w
  written : ∀ r ∈ results,
    w'.files.read r.1.diagramPath.text = .ok (Utf8.encode (diagramFile r.1.diagram))
  /-- A document is numbered from behind the calls of those before it. -/
  drawn : ∀ front r rest, results = front ++ r :: rest →
    drawing (counter.advance (front.map fun b => callLines (textAt w b.1.source)).sum) links
      (textAt w r.1.source) = .ok r.1.diagram

/-- Two products of different sources do not share a diagram, and no diagram stands where another
source stands. -/
theorem Beside.apart {suffix front front' : Text} {r r' : Conversion × Path}
    (h : Beside directory suffix format front r) (h' : Beside directory suffix format front' r')
    (hne : r.1.source ≠ r'.1.source) :
    r.1.diagramPath.name ≠ r'.1.diagramPath.name ∧ r'.1.source.name ≠ r.1.diagramPath.name := by
  obtain ⟨back, hsuffix, hback⟩ := h.extension
  have hfronts : front ≠ front' := by
    rintro rfl
    exact hne (h.source.trans h'.source.symm)
  rw [h.diagram, h'.diagram, h'.source]
  simp only [Path.name_child]
  constructor
  · intro heq
    exact hfronts (List.append_cancel_right heq)
  · intro heq
    rw [hsuffix] at heq
    exact hfronts (append_extension_inj hback (by decide) heq).1.symm

/-- The preparation of sources reads them as they stood before it. -/
theorem preparedLaw {counter : Counter} {sources : List Path} {results : List (Conversion × Path)}
    (hplace : IsPlace w.files directory a)
    (hsources : ∀ p ∈ sources, IsSource w.files directory a settings.suffix p)
    (hnodup : sources.Nodup)
    (h : prepare settings format links counter sources w = .ok results w') :
    PreparedLaw settings format links directory a counter w w' sources results := by
  induction sources generalizing counter results w with
  | nil =>
    simp only [prepare, pure_run, EStateM.Result.ok.injEq] at h
    obtain ⟨rfl, rfl⟩ := h
    exact ⟨rfl, FileTree.ChangedAt.refl _, by simp, by simp, by simp, by simp, by simp⟩
  | cons p sources ih =>
    obtain ⟨hfresh, hnodup⟩ := List.nodup_cons.1 hnodup
    unfold prepare at h
    obtain ⟨⟨r, next⟩, w₁, hone, h⟩ := bind_eq_ok_iff.1 h
    obtain ⟨others, w₂, hothers, h⟩ := bind_eq_ok_iff.1 h
    simp only [pure_run, EStateM.Result.ok.injEq] at h
    obtain ⟨rfl, rfl⟩ := h
    obtain ⟨hsource, ⟨front, hbeside⟩, hread, hdrawing, rfl, hwrite⟩ :=
      prepareOne_eq_ok (hsources p List.mem_cons_self) hone
    -- the diagram of the first source is the only change in front of the others
    have hfirst : w.files.locate r.1.diagramPath.text = .ok (a ++ [r.1.diagramPath.name]) ∧
        FileTree.ChangedAt w.files w₁.files [a ++ [r.1.diagramPath.name]] := by
      rw [hbeside.diagram] at hwrite ⊢
      rw [Path.name_child]
      exact hplace.changedAt_of_write (isEntryName_diagram hbeside.entry) hwrite
    obtain ⟨hlocate, hchanged⟩ := hfirst
    have hrest := ih (hplace.of_changed hchanged)
      (fun q hq => (hsources q (List.mem_cons_of_mem _ hq)).of_changed hchanged) hnodup hothers
    have hapart : ∀ r' ∈ others, r.1.diagramPath.name ≠ r'.1.diagramPath.name ∧
        r'.1.source.name ≠ r.1.diagramPath.name := by
      intro r' hr'
      obtain ⟨front', hbeside'⟩ := hrest.beside r' hr'
      refine hbeside.apart hbeside' fun heq => hfresh ?_
      rw [← hsource, heq, ← hrest.each]
      exact List.mem_map_of_mem hr'
    -- the other sources still hold what they held
    have hkept : ∀ q ∈ sources, readText q.text w = .ok (textAt w q) w ∧
        textAt w₁ q = textAt w q := by
      intro q hq
      obtain ⟨r', hr', rfl⟩ := List.mem_map.1 (hrest.each ▸ hq)
      have hentry := (hsources _ (List.mem_cons_of_mem _ hq)).located
      obtain ⟨-, content, raw, hcontent, hraw, htext⟩ := readText_eq_ok_iff.1 (hrest.read _ hq)
      have hsame : readText r'.1.source.text w = .ok (textAt w₁ r'.1.source) w := by
        refine readText_eq_ok_iff.2 ⟨rfl, content, raw, ?_, hraw, htext⟩
        refine (hchanged.read hentry ?_).1 hcontent
        simpa using (hapart r' hr').2
      rw [textAt_eq hsame]
      exact ⟨hsame, rfl⟩
    refine ⟨?each, ?changed, ?beside, ?located, ?read, ?written, ?drawn⟩
    case each => rw [List.map_cons, hsource, hrest.each]
    case changed => exact hchanged.trans hrest.changed
    case beside =>
      intro r' hr'
      rcases List.mem_cons.1 hr' with rfl | hr'
      · exact ⟨front, hbeside⟩
      · exact hrest.beside r' hr'
    case located =>
      intro r' hr'
      rcases List.mem_cons.1 hr' with rfl | hr'
      · exact hlocate
      · exact hchanged.symm.locate (hrest.located r' hr')
    case read =>
      intro q hq
      rcases List.mem_cons.1 hq with rfl | hq
      · exact hread
      · exact (hkept q hq).1
    case written =>
      intro r' hr'
      rcases List.mem_cons.1 hr' with rfl | hr'
      · refine (hrest.changed.read (hchanged.locate hlocate) fun hmem => ?_).2
          (FileTree.read_of_write hwrite)
        obtain ⟨r'', hr'', heq⟩ := List.mem_map.1 hmem
        exact (hapart r'' hr'').1 (by simpa using heq.symm)
      · exact hrest.written r' hr'
    case drawn =>
      intro before r' rest hsplit
      cases before with
      | nil =>
        obtain ⟨rfl, -⟩ := List.cons.inj hsplit
        rw [List.map_nil, List.sum_nil, Counter.advance_zero, hsource]
        exact hdrawing
      | cons b before =>
        obtain ⟨rfl, rfl⟩ := List.cons.inj hsplit
        have hlater := hrest.drawn before r' rest rfl
        have htexts : ∀ s ∈ before ++ r' :: rest,
            textAt w₁ s.1.source = textAt w s.1.source := fun s hs =>
          (hkept _ (hrest.each ▸ List.mem_map_of_mem hs)).2
        have hsum : (before.map fun s => callLines (textAt w₁ s.1.source))
            = before.map fun s => callLines (textAt w s.1.source) :=
          List.map_congr_left fun s hs => by rw [htexts s (by simp [hs])]
        rw [hsum, htexts r' (by simp), Counter.advance_advance] at hlater
        rw [List.map_cons, List.sum_cons, hsource]
        exact hlater

/-! ## Images -/

/-- A document that is drawn changes no file, and its format is known. -/
theorem draw_eq_ok {launch : Launch} {source document : Text} {image : Bytes}
    (hformat : format ≠ []) (h : draw settings launch format source document w = .ok image w') :
    w'.files = w.files ∧ ∃ f, Format.read format = .ok f := by
  have hrequested : (Text.nonempty? (some format)).getD settings.format.name = format := by
    cases format with
    | nil => exact absurd rfl hformat
    | cons c rest => rfl
  unfold draw at h
  rw [get_bind_run] at h
  cases hrender : render settings w.renderer launch (some format) (some source) document with
  | mk attempts result =>
    simp only [hrender] at h
    obtain ⟨u, w₁, hattempts, h⟩ := bind_eq_ok_iff.1 h
    obtain ⟨bytes, w₂, hresult, hend⟩ := bind_eq_ok_iff.1 h
    obtain ⟨rfl, rfl⟩ := ofExcept_eq_ok_iff.1 hresult
    have hfiles : w₂.files = w.files := by
      rw [← (EStateM.Result.ok.inj hattempts).2]
    constructor
    · by_cases hlaunch : launch = .concurrent
      · obtain ⟨lines, -, hreport⟩ := report_run renderLogger .debug
          ("Rendered " ++ source ++ " (" ++ Text.natural bytes.length ++ " bytes)") w₂
        rw [if_pos hlaunch, bind_of_ok hreport] at hend
        rw [← (EStateM.Result.ok.inj hend).2]
        exact hfiles
      · rw [if_neg hlaunch] at hend
        rw [← (EStateM.Result.ok.inj hend).2]
        exact hfiles
    · unfold render at hrender
      rw [hrequested, Settings.drawingAs] at hrender
      cases hread : Format.read format with
      | error e => simp [hread, Except.map] at hrender
      | ok f => exact ⟨f, rfl⟩

theorem drawOne_eq_ok {c : Conversion} {imagePath : Path} (hformat : format ≠ [])
    (h : drawOne settings format c imagePath w = .ok () w') :
    (∃ f, Format.read format = .ok f) ∧
      ∃ image, w.files.write imagePath.text image = .ok w'.files := by
  unfold drawOne at h
  obtain ⟨image, w₁, hdraw, h⟩ := bind_eq_ok_iff.1 h
  obtain ⟨hfiles, hread⟩ := draw_eq_ok hformat hdraw
  obtain ⟨u, w₂, hrun, h⟩ := bind_eq_ok_iff.1 h
  obtain ⟨files, hwrite, rfl⟩ := writeBytes_eq_ok_iff.1 hrun
  obtain ⟨lines, -, hreport⟩ := report_run batchLogger .info
    ("Rendered " ++ c.source.text ++ " -> " ++ imagePath.text) (w₁.holding files)
  rw [reportImage, hreport] at h
  obtain rfl := (EStateM.Result.ok.inj h).2
  exact ⟨hread, image, hfiles ▸ hwrite⟩

/-- If no image is spoiled, nothing but images is changed. -/
theorem drawEach_eq_nil {results : List (Conversion × Path)} {suffix : Text}
    (hformat : format ≠ []) (hplace : IsPlace w.files directory a)
    (hbeside : ∀ r ∈ results, ∃ front, Beside directory suffix format front r)
    (h : drawEach settings format results w = .ok [] w') :
    FileTree.ChangedAt w.files w'.files (results.map fun r => a ++ [r.2.name]) ∧
      ∀ r ∈ results, ∃ f, Format.read format = .ok f := by
  induction results generalizing w with
  | nil =>
    obtain rfl := (EStateM.Result.ok.inj h).2
    exact ⟨FileTree.ChangedAt.refl _, by simp⟩
  | cons r results ih =>
    obtain ⟨c, imagePath⟩ := r
    unfold drawEach at h
    obtain ⟨result, w₁, hresult, h⟩ := bind_eq_ok_iff.1 h
    obtain ⟨others, w₂, hothers, h⟩ := bind_eq_ok_iff.1 h
    rw [outcome_run] at hresult
    cases result with
    | error fault => simp at h
    | ok u =>
      simp only [pure_run, EStateM.Result.ok.injEq] at h
      obtain ⟨rfl, rfl⟩ := h
      have hone : drawOne settings format c imagePath w = .ok () w₁ := by
        split at hresult
        · rename_i u' w' hrun
          simp only [EStateM.Result.ok.injEq] at hresult
          rw [hrun, hresult.2]
        · simp at hresult
      obtain ⟨⟨f, hread⟩, image, hwrite⟩ := drawOne_eq_ok hformat hone
      obtain ⟨front, hfront⟩ := hbeside _ List.mem_cons_self
      have himage : imagePath = directory.child (front ++ '.' :: format) := hfront.image
      rw [himage] at hwrite
      obtain ⟨-, hchanged⟩ := hplace.changedAt_of_write
        (isEntryName_image hfront.entry hfront.named hread) hwrite
      obtain ⟨hrest, -⟩ := ih (hplace.of_changed hchanged)
        (fun r hr => hbeside r (List.mem_cons_of_mem _ hr)) hothers
      refine ⟨?_, fun _ _ => ⟨f, hread⟩⟩
      have hall := hchanged.trans hrest
      rw [List.map_cons, himage, Path.name_child]
      exact hall

end Loop

/-! ## The end of the drawings -/

theorem requireJobs_eq_ok_iff {settings : Settings} {w w' : World} :
    requireJobs settings w = .ok () w' ↔ 0 < settings.maxJobs ∧ w' = w := by
  unfold requireJobs
  split
  · rename_i hnone
    simp [hnone]
  · rename_i hsome
    simp [Nat.pos_of_ne_zero hsome, eq_comm]

/-- Reports of faults write to the error stream only. -/
theorem reports_run (faults : List Fault) (w : World) :
    ∃ lines, (faults.forM fun fault => report batchLogger .error fault.message) w
      = .ok () (w.warned lines) := by
  induction faults generalizing w with
  | nil => exact ⟨[], by rw [World.warned_nil]; rfl⟩
  | cons fault faults ih =>
    obtain ⟨line, -, hreport⟩ := report_run batchLogger .error fault.message w
    obtain ⟨lines, hreports⟩ := ih (w.warned line)
    refine ⟨line ++ lines, ?_⟩
    rw [← World.warned_warned]
    exact (bind_of_ok hreport _).trans hreports

/-- Of several faults the first one is raised when all are reported. -/
theorem raiseFirst_run (faults : List Fault) (w : World) :
    ∃ lines, raiseFirst faults w = match faults with
      | [] => .ok () w
      | fault :: _ => .error fault (w.warned lines) := by
  obtain ⟨lines, hreports⟩ := reports_run faults w
  refine ⟨lines, ?_⟩
  cases faults with
  | nil => rfl
  | cons fault faults => exact bind_of_ok hreports _

section DrawAll

variable {settings : Settings} {format : Text} {results : List (Conversion × Path)} {w w' : World}

/-- Drawings that may be run come to what the first of their faults says. -/
theorem drawAll_run (hjobs : 0 < settings.maxJobs) {faults : List Fault}
    (h : drawEach settings format results w = .ok faults w') :
    drawAll settings format results w = raiseFirst faults w' :=
  (bind_of_ok (requireJobs_eq_ok_iff.2 ⟨hjobs, rfl⟩) _).trans (bind_of_ok h _)

theorem drawAll_eq_ok (h : drawAll settings format results w = .ok () w') :
    drawEach settings format results w = .ok [] w' := by
  unfold drawAll at h
  obtain ⟨_, w₁, hjobs, hdraw⟩ := bind_eq_ok_iff.1 h
  obtain ⟨-, rfl⟩ := requireJobs_eq_ok_iff.1 hjobs
  have hraised : (drawEach settings format results >>= raiseFirst) w₁ = .ok () w' := hdraw
  obtain ⟨faults, w₂, heach, h⟩ := bind_eq_ok_iff.1 hraised
  obtain ⟨lines, hraise⟩ := raiseFirst_run faults w₂
  rw [hraise] at h
  cases faults with
  | nil =>
    obtain rfl := (EStateM.Result.ok.inj h).2
    exact heach
  | cons fault faults => simp at h

end DrawAll

/-! ## A whole directory -/

/-- The counter behind some texts. -/
def counterBehind (texts : List Text) : Counter :=
  { stem := ['C'], next := 1 + ((texts.map callLines).sum : Nat) }

theorem counterBehind_append (front rest : List Text) :
    counterBehind (front ++ rest) = (counterBehind front).advance (rest.map callLines).sum := by
  simp [counterBehind, Counter.advance, Int.add_assoc]

/-- What a batch makes of the sources in a directory. -/
structure BatchLaw (settings : Settings) (directory : Path) (links : Links) (w w' : World)
    (text : Path → Text) (conversions : List Conversion) : Prop where
  /-- There is a conversion for each file with the suffix, by name. -/
  sources : ∃ a, w.files.locate directory.text = .ok a ∧
    w.files.Sources directory settings.suffix a (conversions.map Conversion.source)
  /-- The name of a diagram is that of its source, with another extension. -/
  beside : ∀ c ∈ conversions, ∃ front,
    c.source = directory.child (front ++ settings.suffix) ∧
      c.diagramPath = directory.child (front ++ diagramExtension)
  /-- Sources are read as they stood before the batch. -/
  read : ∀ c ∈ conversions, readText c.source.text w = .ok (text c.source) w
  /-- A document is that of its text alone, numbered from behind the calls of those before it. -/
  drawn : ∀ front c rest, conversions = front ++ c :: rest →
    drawing (counterBehind (front.map fun b => text b.source)) links (text c.source)
      = .ok c.diagram
  /-- When the batch is done, the diagrams are in their files. -/
  written : ∀ c ∈ conversions,
    w'.files.read c.diagramPath.text = .ok (Utf8.encode (c.diagram ++ ['\n']))
  /-- No alias is in two documents. -/
  apart : ∀ front c between d rest, conversions = front ++ c :: (between ++ d :: rest) →
    ∀ f g,
      (parseText (counterBehind (front.map fun b => text b.source)) links (text c.source)).1
        = .ok f →
      (parseText (counterBehind ((front ++ c :: between).map fun b => text b.source)) links
        (text d.source)).1 = .ok g →
      ∀ name ∈ aliasesOf f, name ∉ aliasesOf g

/-- Documents that are numbered from behind each other share no alias. -/
theorem disjoint_aliasesOf_behind {links : Links} {front between : List Text} {t t' : Text}
    {f g : Forest Node} (hf : (parseText (counterBehind front) links t).1 = .ok f)
    (hg : (parseText (counterBehind (front ++ t :: between)) links t').1 = .ok g) :
    ∀ name ∈ aliasesOf f, name ∉ aliasesOf g := by
  rw [counterBehind_append] at hg
  apply disjoint_aliasesOf hf _ hg
  rw [List.map_cons, List.sum_cons]
  exact Nat.le_add_right _ _

/-- The conversions of prepared sources, whatever becomes of their images, keep to the law as long
as the diagrams stay. -/
theorem batchLaw_of_prepared {settings : Settings} {format : Text} {links : Links}
    {directory : Path} {a : Address} {w w₁ w' : World} {sources : List Path}
    {results : List (Conversion × Path)} {image : Conversion × Path → Conversion}
    (hlocate : w.files.locate directory.text = .ok a)
    (hsources : w.files.Sources directory settings.suffix a sources)
    (h : PreparedLaw settings format links directory a {} w w₁ sources results)
    (hkept : ∀ r ∈ results, ∀ content, w₁.files.read r.1.diagramPath.text = .ok content →
      w'.files.read r.1.diagramPath.text = .ok content)
    (himage : ∀ r, (image r).source = r.1.source ∧ (image r).diagramPath = r.1.diagramPath ∧
      (image r).diagram = r.1.diagram) :
    BatchLaw settings directory links w w' (textAt w) (results.map image) := by
  have hsource : (results.map image).map Conversion.source = sources := by
    rw [List.map_map, ← h.each]
    exact List.map_congr_left fun r _ => (himage r).1
  refine ⟨⟨a, hlocate, hsource ▸ hsources⟩, ?beside, ?read, ?drawn, ?written, ?apart⟩
  case beside =>
    intro c hc
    obtain ⟨r, hr, rfl⟩ := List.mem_map.1 hc
    obtain ⟨front, hbeside⟩ := h.beside r hr
    refine ⟨front, ?_, ?_⟩
    · rw [(himage r).1, hbeside.source]
    · rw [(himage r).2.1, hbeside.diagram]
  case read =>
    intro c hc
    exact h.read c.source (hsource ▸ List.mem_map_of_mem hc)
  case drawn =>
    intro front c rest hsplit
    obtain ⟨before, behind, rfl, rfl, hbehind⟩ := List.map_eq_append_iff.1 hsplit
    obtain ⟨r, after, rfl, rfl, -⟩ := List.map_eq_cons_iff.1 hbehind
    have hdrawn := h.drawn before r after rfl
    have hcounter : counterBehind ((before.map image).map fun b => textAt w b.source)
        = Counter.advance {} (before.map fun b => callLines (textAt w b.1.source)).sum := by
      rw [counterBehind, Counter.advance, List.map_map, List.map_map]
      simp [Function.comp_def, himage]
    rw [hcounter, (himage r).1, (himage r).2.2]
    exact hdrawn
  case written =>
    intro c hc
    obtain ⟨r, hr, rfl⟩ := List.mem_map.1 hc
    rw [(himage r).2.1, (himage r).2.2]
    exact hkept r hr _ (h.written r hr)
  case apart =>
    intro front c between d rest _ f g hf hg
    rw [List.map_append, List.map_cons] at hg
    exact disjoint_aliasesOf_behind hf hg

/-- A batch whose sources and links are found. -/
def convertSources (settings : Settings) (directory : Path) (format : Text) (images : Bool)
    (links : Links) (sources : List Path) : Action (List Conversion) := do
  let results ← prepare settings format links {} sources
  if results.isEmpty then
    report batchLogger .warning ("No " ++ settings.suffix ++ " sources found in " ++ directory.text)
    pure []
  else if images then
    drawAll settings format results
    pure (results.map fun (conversion, path) => { conversion with imagePath := some path })
  else
    pure (results.map Prod.fst)

/-- A batch that writes no index finds its sources and links, then converts. -/
theorem convertDirectory_run (settings : Settings) (directory : Path) (requested : Option Text)
    (images : Bool) (w : World) :
    convertDirectory settings directory requested images none w
      = match w.files.sources directory settings.suffix with
        | .ok sources =>
            convertSources settings directory
              ((Text.nonempty? requested).getD settings.format.name) images
              (if images then
                indexOf ((Text.nonempty? requested).getD settings.format.name) settings.suffix
                  sources
              else []) sources w
        | .error e => .error (.file e) w := by
  generalize hformat : (Text.nonempty? requested).getD settings.format.name = format
  -- the sources are listed again behind the links
  have hagain : ∀ links, (ofExcept .file (w.files.sources directory settings.suffix) >>=
        convertSources settings directory format images links) w
      = match w.files.sources directory settings.suffix with
        | .ok sources => convertSources settings directory format images links sources w
        | .error e => .error (.file e) w := by
    intro links
    cases w.files.sources directory settings.suffix <;> rfl
  cases images with
  | true =>
    have hlinks : convertDirectory settings directory requested true none w
        = (ofExcept .file (w.files.index directory format settings.suffix) >>= fun links =>
            get >>= fun w => ofExcept .file (w.files.sources directory settings.suffix) >>=
              convertSources settings directory format true links) w := by
      subst hformat
      rfl
    rw [hlinks, FileTree.index]
    cases hfound : w.files.sources directory settings.suffix with
    | error e => rfl
    | ok sources =>
      refine (hagain (indexOf format settings.suffix sources)).trans ?_
      rw [hfound]
      rfl
  | false =>
    subst hformat
    exact hagain []

theorem batchLaw_of_convertSources {settings : Settings} {directory : Path} {format : Text}
    {images : Bool} {links : Links} {sources : List Path} {w w' : World}
    {conversions : List Conversion} (hfiles : w.files.WellFormed) (hformat : format ≠ [])
    (hfound : w.files.sources directory settings.suffix = .ok sources)
    (h : convertSources settings directory format images links sources w = .ok conversions w') :
    BatchLaw settings directory links w w' (textAt w) conversions := by
  unfold convertSources at h
  obtain ⟨results, w₁, hprepare, hrest⟩ := bind_eq_ok_iff.1 h
  obtain ⟨a, hplace, hsources, hsource, hnodup⟩ := hfiles.isSource_of_sources hfound
  have hlocate := hplace.located
  have hlaw := preparedLaw hplace hsource hnodup hprepare
  by_cases hempty : results.isEmpty = true
  · -- no sources, no conversions
    obtain rfl := List.isEmpty_iff.1 hempty
    obtain ⟨lines, -, hreport⟩ := report_run batchLogger .warning
      ("No " ++ settings.suffix ++ " sources found in " ++ directory.text) w₁
    rw [if_pos hempty, bind_of_ok hreport] at hrest
    obtain ⟨rfl, rfl⟩ := EStateM.Result.ok.inj hrest
    exact batchLaw_of_prepared hlocate hsources hlaw (by simp) fun r => ⟨rfl, rfl, rfl⟩
  · rw [if_neg hempty] at hrest
    cases images with
    | false =>
      obtain ⟨rfl, rfl⟩ := EStateM.Result.ok.inj hrest
      exact batchLaw_of_prepared hlocate hsources hlaw (fun _ _ _ hread => hread)
        fun r => ⟨rfl, rfl, rfl⟩
    | true =>
      obtain ⟨u, w₂, hdraw, hend⟩ := bind_eq_ok_iff.1 hrest
      obtain ⟨rfl, rfl⟩ := EStateM.Result.ok.inj hend
      obtain ⟨hchanged, hread⟩ := drawEach_eq_nil hformat (hplace.of_changed hlaw.changed)
        hlaw.beside (drawAll_eq_ok hdraw)
      refine batchLaw_of_prepared hlocate hsources hlaw (fun r hr content hcontent => ?_)
        fun r => ⟨rfl, rfl, rfl⟩
      refine (hchanged.read (hlaw.changed.locate (hlaw.located r hr)) fun hmem => ?_).2 hcontent
      -- the address of an image is not that of a diagram
      obtain ⟨r', hr', heq⟩ := List.mem_map.1 hmem
      obtain ⟨front, hbeside⟩ := hlaw.beside r hr
      obtain ⟨front', hbeside'⟩ := hlaw.beside r' hr'
      obtain ⟨f, hf⟩ := hread r hr
      rw [hbeside.diagram, hbeside'.image, Path.name_child, Path.name_child] at heq
      exact image_ne_diagram hf front' front (by simpa using heq)

/-- Whatever the order in which a directory lists its entries, a batch that ends well converts the
files with the suffix, by name, each into the document that its text alone makes behind the calls of
those before it. -/
theorem batchLaw_of_convertDirectory {settings : Settings} {directory : Path}
    {requested : Option Text} {images : Bool} {w w' : World} {conversions : List Conversion}
    (hfiles : w.files.WellFormed)
    (h : convertDirectory settings directory requested images none w = .ok conversions w') :
    ∃ links text,
      (if images then
          w.files.index directory ((Text.nonempty? requested).getD settings.format.name)
            settings.suffix = .ok links
        else links = []) ∧
      BatchLaw settings directory links w w' text conversions := by
  have hformat : (Text.nonempty? requested).getD settings.format.name ≠ [] := by
    rcases requested with - | (- | ⟨c, rest⟩)
    · cases settings.format <;> decide
    · cases settings.format <;> decide
    · simp [Text.nonempty?]
  rw [convertDirectory_run] at h
  cases hfound : w.files.sources directory settings.suffix with
  | error e => simp [hfound] at h
  | ok sources =>
    simp only [hfound] at h
    refine ⟨_, textAt w, ?_, batchLaw_of_convertSources hfiles hformat hfound h⟩
    cases images with
    | true => simp [FileTree.index, hfound, Except.map]
    | false => rfl

/-- A directory that lists its two sources in descending order, around a directory. -/
def listedBackwards : World where
  files := ⟨[
    (["b.code"], .file (Utf8.encode "B#g()\n  A#f()\n")),
    (["d"], .directory),
    (["a.code"], .file (Utf8.encode "A#f()\r\n  g()"))]⟩
  renderer := .present fun _ _ _ document => .exited 0 (Utf8.encode document) []

theorem wellFormed_listedBackwards : listedBackwards.files.WellFormed := by decide

theorem sources_listedBackwards : listedBackwards.files.sources ⟨.here, []⟩ ".code"
    = .ok [⟨.here, ["a.code"]⟩, ⟨.here, ["b.code"]⟩] := by cbv

/-- The sources of that directory are converted in ascending order. -/
theorem batchLaw_listedBackwards :
    ∃ conversions w', listedBackwards.files.WellFormed ∧
      convertDirectory {} ⟨.here, []⟩ none true none listedBackwards = .ok conversions w' ∧
      ∃ links text, listedBackwards.files.index ⟨.here, []⟩ "svg" ".code" = .ok links ∧
        BatchLaw {} ⟨.here, []⟩ links listedBackwards w' text conversions := by
  obtain ⟨conversions, w', h⟩ : ∃ conversions w',
      convertDirectory {} ⟨.here, []⟩ none true none listedBackwards = .ok conversions w' := by
    rw [convertDirectory_run, sources_listedBackwards]
    exact exists_of_endsWell (by decide +kernel)
  refine ⟨conversions, w', wellFormed_listedBackwards, h, ?_⟩
  exact batchLaw_of_convertDirectory wellFormed_listedBackwards h

end CallDiagram
