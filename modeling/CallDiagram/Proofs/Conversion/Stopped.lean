import CallDiagram.Proofs.Action.Attempts
import CallDiagram.Proofs.Conversion.Places
import CallDiagram.Proofs.Document.Session

/-!
# A batch that is stopped

A source without a diagram stops a batch before anything is drawn.  The diagrams of the sources in
front of it are written by then, and that is all that has changed.

* `map_unit_drawing` — counters and links do not decide whether a text has a diagram;
* `refusalOf`, `Ready` — sources without and with a diagram;
* `prepareOne_of_ready`, `prepare_stopped` — the loop over the sources until it is stopped;
* `StoppedLaw`, `stoppedLaw_of_convertDirectory` — a whole directory.
-/

namespace CallDiagram

open CallDiagram.Action

/-! ## Why a text has no diagram -/

/-- Counters and links change nothing of the places of a document's nodes. -/
theorem map_place_parse (counter counter' : Counter) (links links' : Links) (document : List Text) :
    (parse counter links document).1.map (Forest.map Node.place)
      = (parse counter' links' document).1.map (Forest.map Node.place) := by
  have hlinks : ∀ (c : Counter) (links : Links),
      (parse c links document).1.map (Forest.map Node.place)
        = (parse c [] document).1.map (Forest.map Node.place) := by
    intro c links
    cases hscan : (scan 0 document).2 with
    | some e => rw [parse_of_failure hscan, parse_of_failure hscan]
    | none =>
      rw [parse_of_no_failure hscan, parse_of_no_failure hscan]
      cases arrange (number c (scan 0 document).1) with
      | error e => rfl
      | ok f =>
        refine congrArg Except.ok ?_
        rw [map_place_resolve, map_place_resolve]
  have haliases : ∀ result : Except ParseError (Forest Node),
      (result.map (Forest.map (Node.withAlias []))).map (Forest.map Node.place)
        = result.map (Forest.map Node.place) := by
    intro result
    cases result with
    | error e => rfl
    | ok f =>
      refine congrArg Except.ok ?_
      rw [Forest.map_map]
      exact Forest.map_congr fun n _ => Node.place_withAlias [] n
  rw [hlinks counter, hlinks counter', ← haliases, withoutAliases_parse counter counter',
    haliases]

/-- Whether a text has a diagram, and why not, is decided by the text alone. -/
theorem map_unit_drawing (counter counter' : Counter) (links links' : Links) (text : Text) :
    (drawing counter links text).map (fun _ => ())
      = (drawing counter' links' text).map (fun _ => ()) := by
  -- a forest has a diagram if there is a tree in it
  have hplaces : ∀ (c : Counter) (links : Links), (drawing c links text).map (fun _ => ())
      = ((parse c links (Text.lines text)).1.map (Forest.map Node.place)).bind fun places =>
          if places.first?.isSome then .ok () else .error ⟨.noComponents, 0, []⟩ := by
    intro c links
    rw [drawing, parseText]
    cases hparse : (parse c links (Text.lines text)).1 with
    | error e => rfl
    | ok f =>
      cases f with
      | nil => rfl
      | node n below after =>
        obtain ⟨first, -, -, hdiagram⟩ := exists_diagram_of_parse hparse (by simp)
        simp only [Except.bind, diagramText, hdiagram]
        rfl
  rw [hplaces, hplaces, map_place_parse counter counter' links links']

/-! ## Why a source has no diagram -/

/-- What stops the diagram of a source that is by itself. -/
def refusalOf (w : World) (source : Path) : Option Fault :=
  match diagramOf source [] {} w with
  | .ok _ _ => none
  | .error fault _ => some fault

/-- A source has a diagram unless its text is not read or has none. -/
theorem refusalOf_eq (w : World) (source : Path) :
    refusalOf w source = match w.files.text source.text with
      | .error fault => some fault
      | .ok text =>
          match drawing {} [] text with
          | .error e => some (.document e)
          | .ok _ => none := by
  have hread := readText_run source.text w
  cases htext : w.files.text source.text with
  | error fault =>
    rw [htext] at hread
    have hrun : diagramOf source [] {} w = .error fault w := bind_of_error hread _
    simp only [refusalOf, hrun]
  | ok text =>
    rw [htext] at hread
    obtain ⟨lines, -, hrun⟩ := diagramOf_run hread [] {}
    rw [refusalOf, hrun]
    cases hdrawing : drawing {} [] text <;> simp only [hdrawing]

/-- Whether a source has a diagram is decided by its content. -/
theorem refusalOf_congr {w w' : World} {source : Path}
    (h : w'.files.read source.text = w.files.read source.text) :
    refusalOf w' source = refusalOf w source := by
  rw [refusalOf_eq, refusalOf_eq, FileTree.text, FileTree.text, h]

/-- In a batch a source has a diagram if it has one by itself, and is stopped by the same fault. -/
theorem diagramOf_run_of_refusalOf (w : World) (source : Path) (links : Links)
    (counter : Counter) :
    ∃ lines, match refusalOf w source with
      | none => ∃ r, diagramOf source links counter w = .ok r (w.warned lines)
      | some fault => diagramOf source links counter w = .error fault (w.warned lines) := by
  have hread := readText_run source.text w
  rw [refusalOf_eq]
  cases htext : w.files.text source.text with
  | error fault =>
    rw [htext] at hread
    exact ⟨[], by rw [World.warned_nil]; exact bind_of_error hread _⟩
  | ok text =>
    rw [htext] at hread
    obtain ⟨lines, -, hrun⟩ := diagramOf_run hread links counter
    have hunit := map_unit_drawing {} counter [] links text
    refine ⟨lines, ?_⟩
    rw [hrun]
    cases halone : drawing {} [] text with
    | ok diagram =>
      cases hbatch : drawing counter links text with
      | ok diagram' => simp [halone]
      | error e => simp [halone, hbatch, Except.map] at hunit
    | error e =>
      cases hbatch : drawing counter links text with
      | ok diagram' => simp [halone, hbatch, Except.map] at hunit
      | error e' =>
        rw [halone, hbatch] at hunit
        obtain rfl : e = e' := Except.error.inj hunit
        simp [halone]

/-! ## The loop until it is stopped -/

/-- A source with a diagram and a place for it. -/
structure Ready (settings : Settings) (w : World) (source : Path) : Prop where
  drawn : refusalOf w source = none
  free : ∃ path, diagramPathFor source settings.suffix = .ok path ∧
    w.files.isDirectory path.text = .ok false

section Loop

variable {settings : Settings} {format : Text} {links : Links} {directory : Path} {a : Address}
  {w w' : World}

/-- A source that is ready is prepared. -/
theorem prepareOne_of_ready {p : Path} {f : Format} (hplace : IsPlace w.files directory a)
    (hp : IsSource w.files directory a settings.suffix p) (hread : Format.read format = .ok f)
    (hready : Ready settings w p) (links : Links) (counter : Counter) :
    ∃ r w', prepareOne settings format links p counter w = .ok r w' := by
  obtain ⟨lines, hdiagram⟩ := diagramOf_run_of_refusalOf w p links counter
  rw [hready.drawn] at hdiagram
  obtain ⟨⟨diagram, next⟩, hdiagram⟩ := hdiagram
  obtain ⟨path, hpath, hfree⟩ := hready.free
  have hextension := hp.extension
  rw [hp.child] at hextension hpath
  obtain ⟨front, back, hname, hfront, hsuffix, hback, hstem, rfl⟩ :=
    diagramPathFor_eq_ok hextension hpath
  rw [← hp.child] at hstem
  have hentry : FileTree.IsEntryName (front ++ settings.suffix) := hname ▸ hp.entry
  have hdiagramPath : diagramPathOf (directory.child front)
      = .ok (directory.child (front ++ diagramExtension)) := by
    rw [diagramPathOf, Path.name_child]
    exact withName_child hfront (isEntryName_diagram hentry)
  have himagePath : imagePathOf (directory.child front) format
      = .ok (directory.child (front ++ '.' :: format)) := by
    rw [imagePathOf, Path.name_child]
    exact withName_child hfront (isEntryName_image hentry hfront hread)
  obtain ⟨files, hwrite⟩ := FileTree.exists_write_iff.2
    ((hplace.refusal?_eq_none_iff (isEntryName_diagram hentry)).2 hfree)
  have hwritten : writeText (directory.child (front ++ diagramExtension)).text
      (diagramFile diagram) (w.warned lines) = .ok () ((w.warned lines).holding files) :=
    writeText_eq_ok_iff.2 ⟨files, hwrite, rfl⟩
  obtain ⟨more, -, hreport⟩ := report_run batchLogger .debug
    ("Wrote " ++ (directory.child (front ++ diagramExtension)).text)
    ((w.warned lines).holding files)
  unfold prepareOne
  rw [bind_of_ok hdiagram]
  dsimp only
  rw [bind_ofExcept_of_ok hstem, bind_ofExcept_of_ok hdiagramPath, bind_of_ok hwritten,
    bind_ofExcept_of_ok himagePath, bind_of_ok hreport]
  exact ⟨_, _, rfl⟩

/-- A diagram that has no place stops its source. -/
theorem prepareOne_of_refusal? {p path : Path} {e : FileError} (hdrawn : refusalOf w p = none)
    (hpath : diagramPathFor p settings.suffix = .ok path)
    (hrefusal : w.files.refusal? path.text = some e) (format : Text) (links : Links)
    (counter : Counter) :
    ∃ w', prepareOne settings format links p counter w = .error (.file e) w' := by
  obtain ⟨lines, hdiagram⟩ := diagramOf_run_of_refusalOf w p links counter
  rw [hdrawn] at hdiagram
  obtain ⟨⟨diagram, next⟩, hdiagram⟩ := hdiagram
  obtain ⟨stem, hstem, hpath⟩ := except_bind_eq_ok_iff.1 hpath
  have hunwritten : writeText path.text (diagramFile diagram) (w.warned lines)
      = .error (.file e) (w.warned lines) :=
    writeBytes_of_error (FileTree.write_eq_error_iff.2 hrefusal)
  unfold prepareOne
  rw [bind_of_ok hdiagram]
  dsimp only
  rw [bind_ofExcept_of_ok hstem, bind_ofExcept_of_ok hpath, bind_of_error hunwritten]
  exact ⟨_, rfl⟩

/-- A diagram does not stand where another source stands. -/
theorem Beside.ne_name {t : FileTree} {suffix front : Text} {r : Conversion × Path} {q : Path}
    (h : Beside directory suffix format front r) (hq : IsSource t directory a suffix q)
    (hne : r.1.source ≠ q) : q.name ≠ r.1.diagramPath.name := by
  obtain ⟨back, hsuffix, hback⟩ := h.extension
  intro heq
  rw [h.diagram, Path.name_child] at heq
  obtain ⟨front', back', hname, -, hsuffix', hback'⟩ :=
    Path.extension_eq_cons hq.extension (by simp [hsuffix])
  rw [heq, hsuffix'] at hname
  obtain ⟨rfl, -⟩ := append_extension_inj (by decide) hback' hname
  apply hne
  rw [h.source, hq.child, heq, hsuffix', ← hname]

/-- What is written beside other sources leaves a source as it is. -/
theorem Ready.of_changed {q : Path} {name : Text} (hplace : IsPlace w.files directory a)
    (hq : IsSource w.files directory a settings.suffix q)
    (hchanged : FileTree.ChangedAt w.files w'.files [a ++ [name]]) (hne : q.name ≠ name)
    (hready : Ready settings w q) : Ready settings w' q := by
  obtain ⟨path, hpath, hfree⟩ := hready.free
  refine ⟨?_, path, hpath, ?_⟩
  · rw [refusalOf_congr, hready.drawn]
    rw [hq.child]
    exact hplace.read_of_changed hchanged hq.entry (by simpa using hne)
  · have hextension := hq.extension
    rw [hq.child] at hextension hpath
    obtain ⟨front, back, hname, -, -, -, -, rfl⟩ := diagramPathFor_eq_ok hextension hpath
    exact (hplace.isDirectory_of_changed hchanged (isEntryName_diagram (hname ▸ hq.entry))).2 hfree

/-- The preparation of sources is stopped by the first that has no diagram; those in front of it are
prepared. -/
theorem prepare_stopped {front rest : List Path} {p : Path} {f : Format} {fault : Fault}
    (hplace : IsPlace w.files directory a)
    (hsources : ∀ q ∈ front ++ p :: rest, IsSource w.files directory a settings.suffix q)
    (hnodup : (front ++ p :: rest).Nodup) (hread : Format.read format = .ok f)
    (hready : ∀ q ∈ front, Ready settings w q) (hrefused : refusalOf w p = some fault)
    (links : Links) (counter : Counter) :
    ∃ results w₁ lines, prepare settings format links counter front w = .ok results w₁ ∧
      prepare settings format links counter (front ++ p :: rest) w
        = .error fault (w₁.warned lines) := by
  induction front generalizing counter w with
  | nil =>
    obtain ⟨lines, hdiagram⟩ := diagramOf_run_of_refusalOf w p links counter
    rw [hrefused] at hdiagram
    exact ⟨[], w, lines, rfl, bind_of_error (bind_of_error hdiagram _) _⟩
  | cons q front ih =>
    obtain ⟨hfresh, hnodup⟩ := List.nodup_cons.1 hnodup
    have hq := hsources q (by simp)
    obtain ⟨⟨r, next⟩, w₁, hone⟩ := prepareOne_of_ready hplace hq hread (hready q (by simp))
      links counter
    obtain ⟨hsource, ⟨begin, hbeside⟩, -, -, -, hwrite⟩ := prepareOne_eq_ok hq hone
    have hchanged : FileTree.ChangedAt w.files w₁.files [a ++ [r.1.diagramPath.name]] := by
      rw [hbeside.diagram] at hwrite ⊢
      rw [Path.name_child]
      exact (hplace.changedAt_of_write (isEntryName_diagram hbeside.entry) hwrite).2
    -- the other sources are as they were
    have hapart : ∀ q' ∈ front ++ p :: rest, q'.name ≠ r.1.diagramPath.name := fun q' hq' =>
      hbeside.ne_name (hsources q' (List.mem_cons_of_mem _ hq')) fun heq =>
        hfresh (hsource ▸ heq ▸ hq')
    have hp := hsources p (by simp)
    have hrefused' : refusalOf w₁ p = some fault := by
      rw [refusalOf_congr, hrefused]
      rw [hp.child]
      exact hplace.read_of_changed hchanged hp.entry (by simpa using hapart p (by simp))
    obtain ⟨results, w₂, lines, hfront, hstopped⟩ := ih
      (hplace.of_changed hchanged)
      (fun q' hq' => (hsources q' (List.mem_cons_of_mem _ hq')).of_changed hchanged) hnodup
      (fun q' hq' => (hready q' (List.mem_cons_of_mem _ hq')).of_changed hplace
        (hsources q' (List.mem_cons_of_mem _ (List.mem_append_left _ hq'))) hchanged
        (hapart q' (List.mem_append_left _ hq'))) hrefused' next
    refine ⟨r :: results, w₂, lines, ?_, ?_⟩
    · rw [prepare, bind_of_ok hone]
      dsimp only
      rw [bind_of_ok hfront]
      rfl
    · rw [List.cons_append, prepare, bind_of_ok hone]
      exact bind_of_error hstopped _

end Loop

/-! ## A whole directory -/

/-- The path of a diagram is that by which it was written. -/
theorem Beside.eq_diagramPath {directory path : Path} {suffix format front : Text}
    {r : Conversion × Path} (h : Beside directory suffix format front r)
    (hextension : r.1.source.extension = suffix)
    (hpath : diagramPathFor r.1.source suffix = .ok path) : path = r.1.diagramPath := by
  rw [h.source] at hextension hpath
  obtain ⟨front', -, hname, -, -, -, -, rfl⟩ := diagramPathFor_eq_ok hextension hpath
  rw [h.diagram, List.append_cancel_right hname]

/-- What a batch leaves that is stopped at a source: the diagrams of the sources in front of it, and
nothing else that is new. -/
structure StoppedLaw (settings : Settings) (format : Text) (links : Links) (w w' : World)
    (front : List Path) (p : Path) (rest : List Path) : Prop where
  /-- The drawing program is not called. -/
  attempts : w'.attempts = w.attempts
  read : ∀ q ∈ front, readText q.text w = .ok (textAt w q) w
  /-- The diagrams of the sources in front are those of a batch. -/
  written : ∀ before q after, front = before ++ q :: after →
    ∃ path diagram, diagramPathFor q settings.suffix = .ok path ∧
      drawing (counterBehind (before.map (textAt w))) links (textAt w q) = .ok diagram ∧
      w'.files.read path.text = .ok (Utf8.encode (diagramFile diagram))
  /-- Nothing changes but where they stand. -/
  elsewhere : ∀ b, (∀ q ∈ front, ∀ path, diagramPathFor q settings.suffix = .ok path →
    w.files.locate path.text ≠ .ok b) → w'.files.get? b = w.files.get? b
  /-- The other sources get no diagram. -/
  later : ∀ q ∈ p :: rest, ∀ path, diagramPathFor q settings.suffix = .ok path →
    w'.files.look path.text = w.files.look path.text
  /-- No source gets an image. -/
  images : ∀ q ∈ front ++ p :: rest, ∀ path, imagePathFor q settings.suffix format = .ok path →
    w'.files.look path.text = w.files.look path.text

/-- Sources that are prepared, and a world that holds what is prepared then. -/
theorem stoppedLaw_of_prepared {settings : Settings} {format : Text} {links : Links}
    {directory : Path} {a : Address} {w w₁ w' : World} {front rest : List Path} {p : Path}
    {results : List (Conversion × Path)} {f : Format} (hplace : IsPlace w.files directory a)
    (hsources : ∀ q ∈ front ++ p :: rest, IsSource w.files directory a settings.suffix q)
    (hnodup : (front ++ p :: rest).Nodup) (hread : Format.read format = .ok f)
    (hready : ∀ q ∈ front, Ready settings w q)
    (h : PreparedLaw settings format links directory a {} w w₁ front results)
    (hfiles : w'.files = w₁.files) (hattempts : w'.attempts = w.attempts) :
    StoppedLaw settings format links w w' front p rest := by
  have hmem : ∀ r ∈ results, r.1.source ∈ front := fun r hr => h.each ▸ List.mem_map_of_mem hr
  have hsource : ∀ r ∈ results, IsSource w.files directory a settings.suffix r.1.source :=
    fun r hr => hsources _ (List.mem_append_left _ (hmem r hr))
  have hpaths : ∀ r ∈ results, diagramPathFor r.1.source settings.suffix = .ok r.1.diagramPath := by
    intro r hr
    obtain ⟨path, hpath, -⟩ := (hready _ (hmem r hr)).free
    obtain ⟨begin, hbeside⟩ := h.beside r hr
    rw [hpath, hbeside.eq_diagramPath (hsource r hr).extension hpath]
  have hlook : ∀ {name : Text}, FileTree.IsEntryName name →
      (∀ r ∈ results, name ≠ r.1.diagramPath.name) →
        w'.files.look (directory.child name).text = w.files.look (directory.child name).text := by
    intro name hname hne
    rw [hfiles]
    refine hplace.look_of_changed h.changed hname fun htouched => ?_
    obtain ⟨r, hr, heq⟩ := List.mem_map.1 htouched
    exact hne r hr (by simpa using heq.symm)
  refine ⟨hattempts, h.read, ?written, ?elsewhere, ?later, ?images⟩
  case written =>
    intro before q after hsplit
    obtain ⟨first, others, rfl, rfl, hothers⟩ := List.map_eq_append_iff.1 (h.each.trans hsplit)
    obtain ⟨r, last, rfl, rfl, -⟩ := List.map_eq_cons_iff.1 hothers
    have hr : r ∈ first ++ r :: last := by simp
    refine ⟨r.1.diagramPath, r.1.diagram, hpaths r hr, ?_, hfiles ▸ h.written r hr⟩
    have hcounter : counterBehind ((first.map fun b => b.1.source).map (textAt w))
        = Counter.advance {} (first.map fun b => callLines (textAt w b.1.source)).sum := by
      simp [counterBehind, Counter.advance, Function.comp_def]
    rw [hcounter]
    exact h.drawn first r last rfl
  case elsewhere =>
    intro b hb
    rw [hfiles]
    refine h.changed.elsewhere b fun htouched => ?_
    obtain ⟨r, hr, rfl⟩ := List.mem_map.1 htouched
    exact hb _ (hmem r hr) _ (hpaths r hr) (h.located r hr)
  case later =>
    intro q hq path hpath
    have hsourceq := hsources q (List.mem_append_right _ hq)
    have hextension := hsourceq.extension
    have hentry := hsourceq.entry
    rw [hsourceq.child] at hextension hpath
    obtain ⟨begin, -, hname, -, -, -, -, rfl⟩ := diagramPathFor_eq_ok hextension hpath
    refine hlook (isEntryName_diagram (hname ▸ hentry)) fun r hr heq => ?_
    obtain ⟨begin', hbeside⟩ := h.beside r hr
    rw [hbeside.diagram, Path.name_child] at heq
    obtain rfl := List.append_cancel_right heq
    -- the source that the diagram belongs to is in front
    have hsame : r.1.source = q := by rw [hbeside.source, hsourceq.child, hname]
    exact (List.disjoint_of_nodup_append hnodup) (hsame ▸ hmem r hr) hq
  case images =>
    intro q hq path hpath
    have hsourceq := hsources q hq
    have hextension := hsourceq.extension
    have hentry := hsourceq.entry
    rw [hsourceq.child] at hextension hpath
    obtain ⟨begin, hname, hbegin, rfl⟩ := imagePathFor_eq_ok hextension hpath
    refine hlook (isEntryName_image (hname ▸ hentry) hbegin hread) fun r hr heq => ?_
    obtain ⟨begin', hbeside⟩ := h.beside r hr
    rw [hbeside.diagram, Path.name_child] at heq
    exact image_ne_diagram hread begin begin' heq

/-- If the sources in front of one without a diagram are ready, a batch is stopped by what stops
that one. -/
theorem stoppedLaw_of_convertDirectory {settings : Settings} {directory : Path}
    {requested : Option Text} {images : Bool} {w : World} {front rest : List Path} {p : Path}
    {f : Format} {fault : Fault} (hfiles : w.files.WellFormed)
    (hformat : Format.read ((Text.nonempty? requested).getD settings.format.name) = .ok f)
    (hfound : w.files.sources directory settings.suffix = .ok (front ++ p :: rest))
    (hready : ∀ q ∈ front, Ready settings w q) (hrefused : refusalOf w p = some fault) :
    ∃ links w',
      (if images then
          w.files.index directory ((Text.nonempty? requested).getD settings.format.name)
            settings.suffix = .ok links
        else links = []) ∧
      convertDirectory settings directory requested images none w = .error fault w' ∧
      StoppedLaw settings ((Text.nonempty? requested).getD settings.format.name) links w w'
        front p rest := by
  obtain ⟨a, hplace, -, hsources, hnodup⟩ := hfiles.isSource_of_sources hfound
  rw [convertDirectory_run, hfound]
  generalize (Text.nonempty? requested).getD settings.format.name = format at *
  refine ⟨if images then indexOf format settings.suffix (front ++ p :: rest) else [], ?_⟩
  generalize hlinks : (if images then indexOf format settings.suffix (front ++ p :: rest) else [])
    = links
  obtain ⟨results, w₁, lines, hprepare, hstopped⟩ :=
    prepare_stopped hplace hsources hnodup hformat hready hrefused links {}
  have hsame := DrawsNothing.prepare settings format links {} (front ++ p :: rest) w
  rw [hstopped] at hsame
  refine ⟨w₁.warned lines, ?links, ?stopped, ?law⟩
  case links =>
    subst hlinks
    cases images with
    | true => simp [FileTree.index, hfound, Except.map]
    | false => rfl
  case stopped =>
    simp only [hlinks]
    exact bind_of_error hstopped _
  case law =>
    exact stoppedLaw_of_prepared hplace hsources hnodup hformat hready
      (preparedLaw hplace (fun q hq => hsources q (List.mem_append_left _ hq))
        (List.nodup_append.1 hnodup).1 hprepare) rfl hsame.attempts

/-- A directory with a bad source between two good ones, and an old diagram of it. -/
def interrupted : World where
  files := ⟨[
    (["c.code"], .file (Utf8.encode "C#h()\n")),
    (["b.puml"], .file (Utf8.encode "old\n")),
    (["a.code"], .file (Utf8.encode "A#f()\n  B#g()\n")),
    (["b.code"], .file (Utf8.encode "B#g()\n???\n"))]⟩
  renderer := .present fun _ _ _ document => .exited 0 (Utf8.encode document) []

theorem wellFormed_interrupted : interrupted.files.WellFormed := by decide

theorem sources_interrupted : interrupted.files.sources ⟨.here, []⟩ ".code"
    = .ok ([⟨.here, ["a.code"]⟩] ++ ⟨.here, ["b.code"]⟩ :: [⟨.here, ["c.code"]⟩]) := by cbv

theorem ready_interrupted : Ready {} interrupted ⟨.here, ["a.code"]⟩ :=
  ⟨rfl, ⟨.here, ["a.puml"]⟩, rfl, rfl⟩

/-- That directory is left with the diagram of the first source. -/
theorem stoppedLaw_interrupted :
    interrupted.files.WellFormed ∧ Format.read "svg" = .ok .svg ∧
      Ready {} interrupted ⟨.here, ["a.code"]⟩ ∧
      refusalOf interrupted ⟨.here, ["b.code"]⟩ = some (.document ⟨.unknownStatement, 1, "???"⟩) ∧
      ∃ links w', interrupted.files.index ⟨.here, []⟩ "svg" ".code" = .ok links ∧
        convertDirectory {} ⟨.here, []⟩ none true none interrupted
          = .error (.document ⟨.unknownStatement, 1, "???"⟩) w' ∧
        StoppedLaw {} "svg" links interrupted w' [⟨.here, ["a.code"]⟩] ⟨.here, ["b.code"]⟩
          [⟨.here, ["c.code"]⟩] := by
  refine ⟨wellFormed_interrupted, rfl, ready_interrupted, rfl, ?_⟩
  have hready : ∀ q ∈ [⟨.here, ["a.code"]⟩], Ready {} interrupted q := by
    intro q hq
    obtain rfl := List.mem_singleton.1 hq
    exact ready_interrupted
  exact @stoppedLaw_of_convertDirectory {} ⟨.here, []⟩ none true interrupted [⟨.here, ["a.code"]⟩]
    [⟨.here, ["c.code"]⟩] ⟨.here, ["b.code"]⟩ .svg (.document ⟨.unknownStatement, 1, "???"⟩)
    wellFormed_interrupted rfl sources_interrupted hready rfl

/-- A directory with a source whose name leaves no room for the extension of diagrams, in front of
one without a diagram. -/
def narrow : World where
  files := ⟨[
    (["d"], .directory),
    (["d", List.replicate 253 'a' ++ (".c" : Text)], .file (Utf8.encode "A#f()\n")),
    (["d", "b.c"], .file (Utf8.encode "???\n"))]⟩
  renderer := .missing

theorem wellFormed_narrow : narrow.files.WellFormed := by decide

/-- The source with the long name. -/
def longSource : Path := ⟨.here, ["d", List.replicate 253 'a' ++ (".c" : Text)]⟩

set_option maxRecDepth 20000 in
theorem sources_narrow : narrow.files.sources ⟨.here, ["d"]⟩ ".c"
    = .ok ([longSource] ++ ⟨.here, ["d", "b.c"]⟩ :: []) := by cbv

set_option maxRecDepth 20000 in
/-- A source without a diagram does not stop a batch if another one, in front of it, has a diagram
whose path is too long. -/
theorem not_stopped_narrow :
    ¬ ∀ (settings : Settings) (directory : Path) (requested : Option Text) (images : Bool)
      (w : World) (front rest : List Path) (p : Path) (f : Format) (fault : Fault),
      w.files.WellFormed →
      Format.read ((Text.nonempty? requested).getD settings.format.name) = .ok f →
      w.files.sources directory settings.suffix = .ok (front ++ p :: rest) →
      (∀ q ∈ front ++ p :: rest, ∃ path, diagramPathFor q settings.suffix = .ok path ∧
        w.files.look path.text ≠ .ok (some .directory)) →
      (∀ q ∈ front, refusalOf w q = none) → refusalOf w p = some fault →
      ∃ w', convertDirectory settings directory requested images none w = .error fault w' := by
  intro h
  have hpaths : ∀ q ∈ [longSource] ++ ⟨.here, ["d", "b.c"]⟩ :: [],
      ∃ path, diagramPathFor q ".c" = .ok path ∧
        narrow.files.look path.text ≠ .ok (some .directory) := by
    intro q hq
    rcases List.mem_cons.1 hq with rfl | hq
    · exact ⟨_, rfl, by decide +kernel⟩
    · obtain rfl := List.mem_singleton.1 hq
      exact ⟨_, rfl, by decide +kernel⟩
  have hdrawn : ∀ q ∈ [longSource], refusalOf narrow q = none := by
    intro q hq
    obtain rfl := List.mem_singleton.1 hq
    rfl
  obtain ⟨w', hstopped⟩ := h { suffix := ".c" } ⟨.here, ["d"]⟩ none false narrow [longSource] []
    ⟨.here, ["d", "b.c"]⟩ .svg (.document ⟨.unknownStatement, 0, "???"⟩) wellFormed_narrow rfl
    sources_narrow hpaths hdrawn rfl
  obtain ⟨w'', hone⟩ := @prepareOne_of_refusal? { suffix := ".c" } narrow longSource _ _ rfl rfl rfl
    "svg" [] {}
  obtain ⟨e, hfile⟩ : ∃ e, convertDirectory { suffix := ".c" } ⟨.here, ["d"]⟩ none false none narrow
      = .error (.file e) w'' := by
    rw [convertDirectory_run, sources_narrow]
    exact ⟨_, bind_of_error (bind_of_error hone _) _⟩
  rw [hstopped] at hfile
  simp at hfile

end CallDiagram
