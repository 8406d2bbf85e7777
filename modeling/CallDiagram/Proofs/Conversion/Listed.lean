import CallDiagram.Proofs.Conversion.Indexed
import CallDiagram.Proofs.Conversion.Places

/-!
# The sources that are linked

The links of a batch are made from the sources that are there before its index is written, and the
batch converts those that are there afterwards.  They are the same, because the text of an index is
no document: had the index come to stand among the sources, the batch would have been refused.

* `exists_error_of_drawing_file` — files whose texts are no documents;
* `exists_error_of_drawing_indexText` — the text of an index is no document;
* `Sources.eq_of_mem_iff` — sources are told by what is among them;
* `Prepared.found_first` — the sources of a batch whose diagrams are written were there before it.
-/

namespace CallDiagram

open CallDiagram.Action

/-! ## Texts that are no documents -/

/-- A line that starts with a sign, which starts neither a name nor a keyword, says nothing
known. -/
theorem isUnknownLine_sign {c : Char} (hname : isNameStart c = false) (hblank : isBlank c = false)
    (rest : Text) : isUnknownLine (c :: rest) = true := by
  have htrim : Text.trimStart (c :: rest) = c :: rest := by
    rw [Text.trimStart, List.dropWhile_cons_of_neg (by simp [hblank])]
  have hnone : identifier? (c :: rest) = none := by rw [identifier?, if_neg (by simp [hname])]
  have hletter : ∀ d, isNameStart d = true → d ≠ c := by
    rintro d hd rfl
    simp [hname] at hd
  have hread : Statement.ofBody? (c :: rest) = none := by
    simp [Statement.ofBody?, callOf?, hnone, keyword?, alternative?, Text.dropStem?,
      hletter 'l' (by decide), hletter 'i' (by decide), hletter 'e' (by decide),
      (hletter 'e' (by decide)).symm]
  simp [isUnknownLine, Statement.read?, htrim, hread, Text.isBlank, hblank]

/-- No text that starts with a sign is a document. -/
theorem exists_error_of_drawing_sign {c : Char} (hname : isNameStart c = false)
    (hblank : isBlank c = false) (hend : isLineEnd c = false) (counter : Counter) (links : Links)
    (rest : Text) : ∃ e, drawing counter links (c :: rest) = .error e := by
  cases hdrawing : drawing counter links (c :: rest) with
  | error e => exact ⟨e, rfl⟩
  | ok diagram =>
    obtain ⟨f, hparse, -⟩ := drawing_eq_ok_iff.1 hdrawing
    obtain ⟨hscan, -⟩ := parse_eq_ok_iff.1 hparse
    have hbreak : c ≠ '\r' := by
      rintro rfl
      exact absurd hend (by decide)
    have hlines : ∃ line more, Text.lines (c :: rest) = (c :: line) :: more := by
      rw [Text.lines_cons (fun heq => absurd heq hbreak), if_neg (by simp [hend])]
      cases Text.lines rest with
      | nil => exact ⟨[], [], rfl⟩
      | cons line more => exact ⟨line, more, rfl⟩
    obtain ⟨line, more, hlines⟩ := hlines
    rw [hlines] at hscan
    have hknown := scan_failure_eq_none_iff.1 hscan _ List.mem_cons_self
    simp [isUnknownLine_sign hname hblank] at hknown

/-- A file whose text starts with a sign holds no document, however its line breaks are read. -/
theorem exists_error_of_drawing_file {c : Char} (hname : isNameStart c = false)
    (hblank : isBlank c = false) (hend : isLineEnd c = false) {path text rest : Text} {w : World}
    (hfile : w.files.read path = .ok (Utf8.encode (c :: rest)))
    (hread : readText path w = .ok text w) (counter : Counter) (links : Links) :
    ∃ e, drawing counter links text = .error e := by
  obtain ⟨-, content, raw, hcontent, hraw, rfl⟩ := readText_eq_ok_iff.1 hread
  obtain rfl := Except.ok.inj (hfile.symm.trans hcontent)
  rw [Utf8.decode_encode] at hraw
  obtain rfl := Except.ok.inj hraw
  have hbreak : c ≠ '\r' := by
    rintro rfl
    exact absurd hend (by decide)
  have hunified : Text.unifyBreaks (c :: rest) = c :: Text.unifyBreaks rest := by
    rw [Text.unifyBreaks, if_neg hbreak]
    rintro rest' rfl -
    exact absurd rfl hbreak
  rw [hunified]
  exact exists_error_of_drawing_sign hname hblank hend _ _ _

/-! ## The text of an index -/

theorem exists_indexText_eq (links : Links) : ∃ rest, indexText links = '{' :: rest := by
  rw [indexText, Json.sorted, Json.indented]
  cases Text.sortBy Prod.fst (Json.sortedFields links) with
  | nil => exact ⟨_, rfl⟩
  | cons e fields => exact ⟨_, rfl⟩

/-- The text of an index is no document. -/
theorem exists_error_of_drawing_indexText {path text : Text} {links : Links} {w : World}
    (hfile : w.files.read path = .ok (Utf8.encode (indexText links)))
    (hread : readText path w = .ok text w) (counter : Counter) (links' : Links) :
    ∃ e, drawing counter links' text = .error e := by
  obtain ⟨rest, hbrace⟩ := exists_indexText_eq links
  rw [hbrace] at hfile
  exact exists_error_of_drawing_file (by decide) (by decide) (by decide) hfile hread _ _

/-! ## Sources before and behind the index -/

/-- The sources of a directory are told by what is among them. -/
theorem FileTree.Sources.eq_of_mem_iff {t t' : FileTree} {directory directory' : Path}
    {suffix suffix' : Text} {a a' : Address} {sources sources' : List Path}
    (h : t.Sources directory suffix a sources) (h' : t'.Sources directory' suffix' a' sources')
    (hmem : ∀ p, p ∈ sources ↔ p ∈ sources') : sources = sources' := by
  have hnodup : ∀ {l : List Path}, (l.Pairwise fun p q =>
      Text.precedes p.name q.name = true ∧ p.name ≠ q.name) → l.Nodup := by
    intro l hl
    exact hl.imp fun hnames heq => hnames.2 (congrArg Path.name heq)
  have hperm : sources.Perm sources' :=
    (List.perm_ext_iff_of_nodup (hnodup h.ascending) (hnodup h'.ascending)).2 hmem
  refine List.Perm.eq_of_pairwise (fun p q _ _ hpq hqp => ?_) h.ascending h'.ascending hperm
  exact absurd (Text.precedes_antisymm hpq.1 hqp.1) hpq.2

section Batch

variable {settings : Settings} {directory : Path} {format : Text} {index : Option Path}
  {w₀ w w₁ : World} {links : Links} {sources : List Path} {results : List (Conversion × Path)}

/-- A source of a batch whose diagrams are written has a diagram. -/
theorem PreparedLaw.exists_drawn {a : Address} {counter : Counter}
    (h : PreparedLaw settings format links directory a counter w w₁ sources results) {p : Path}
    (hp : p ∈ sources) : ∃ counter' diagram, drawing counter' links (textAt w p) = .ok diagram := by
  rw [← h.each] at hp
  obtain ⟨r, hr, rfl⟩ := List.mem_map.1 hp
  obtain ⟨front, rest, hsplit⟩ := List.append_of_mem hr
  exact ⟨_, _, h.drawn front r rest hsplit⟩

/-- The sources of a batch whose diagrams are written are those that its links are made from. -/
theorem Prepared.found_first
    (h : Prepared settings directory format index w₀ w w₁ links sources results)
    (hfiles : w₀.files.WellFormed) :
    w₀.files.sources directory settings.suffix = .ok sources ∧
      links = indexOf format settings.suffix sources := by
  obtain ⟨sources₀, hfound, hlinks⟩ : ∃ sources₀,
      w₀.files.sources directory settings.suffix = .ok sources₀ ∧
        indexOf format settings.suffix sources₀ = links := by
    have hlinked := h.linked
    rw [FileTree.index] at hlinked
    cases hfound : w₀.files.sources directory settings.suffix with
    | error e => simp [hfound, Except.map] at hlinked
    | ok sources₀ => exact ⟨sources₀, rfl, by simpa [hfound, Except.map] using hlinked⟩
  obtain ⟨a₀, hplace₀, hsources₀, -, -⟩ := hfiles.isSource_of_sources hfound
  have hfiles' := h.wellFormed hfiles
  obtain ⟨a, hplace, -, hsources, hlaw⟩ := h.law hfiles
  have hsaved := saved_of_announceIndex h.saved
  obtain ⟨touched, huntouched, htouched⟩ := hsaved.files
  obtain rfl : a₀ = a := by
    have hlocate := FileTree.locate_of_directories hsaved.directories hplace₀.located
    exact Except.ok.inj (hlocate.symm.trans hplace.located)
  obtain ⟨b, hb, -, -, hlocated⟩ := hfiles'.sources_of_eq_ok h.found
  obtain rfl : a₀ = b := Except.ok.inj (hplace.located.symm.trans hb)
  -- the index does not stand among the sources, because it is no document
  have hapart : ∀ name, directory.child name ∈ sources → a₀ ++ [name] ∉ touched := by
    intro name hp hmem
    obtain ⟨counter, diagram, hdrawn⟩ := hlaw.exists_drawn hp
    have hlocate := hlocated _ hp
    rw [Path.name_child] at hlocate
    have hfile := FileTree.read_of_locate hlocate
    rw [htouched _ hmem] at hfile
    obtain ⟨e, hrefused⟩ :=
      exists_error_of_drawing_indexText hfile (hlaw.read _ hp) counter links
    simp [hdrawn] at hrefused
  have hmem : ∀ p, p ∈ sources ↔ p ∈ sources₀ := by
    intro p
    rw [hsources.complete, hsources₀.complete]
    constructor
    · rintro ⟨name, content, rfl, hmem, hextension⟩
      have hname := hfiles'.isEntryName hmem
      have hp : directory.child name ∈ sources :=
        (hsources.complete _).2 ⟨name, content, rfl, hmem, hextension⟩
      refine ⟨name, content, rfl, ?_, hextension⟩
      rw [← hfiles.get?_eq_some_iff hname, ← huntouched _ (hapart name hp) content,
        hfiles'.get?_eq_some_iff hname]
      exact hmem
    · rintro ⟨name, content, rfl, hmem, hextension⟩
      have hname := hfiles.isEntryName hmem
      by_cases htouch : a₀ ++ [name] ∈ touched
      · have hentry := (hfiles'.get?_eq_some_iff hname).1 (htouched _ htouch)
        exact absurd htouch
          (hapart name ((hsources.complete _).2 ⟨name, _, rfl, hentry, hextension⟩))
      · refine ⟨name, content, rfl, ?_, hextension⟩
        rw [← hfiles'.get?_eq_some_iff hname, huntouched _ htouch content,
          hfiles.get?_eq_some_iff hname]
        exact hmem
  obtain rfl := hsources.eq_of_mem_iff hsources₀ hmem
  exact ⟨hfound, hlinks.symm⟩

end Batch

end CallDiagram
