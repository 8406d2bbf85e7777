import CallDiagram.Proofs.Conversion.Batch

/-!
# Places beside a source

Whether a file can be written in a directory depends on its path and on the directories there, and
these stay while files are written.

* `FileTree.refusal?`, `write_eq_error_iff`, `exists_write_iff` — why a path takes no file;
* `FileTree.Takes`, `exists_takes_iff`, `Takes.exists_write` — the paths that take one;
* `IsPlace.locate_of_changed`, `IsPlace.refusal?_of_changed`, `IsPlace.look_of_changed` — what stays
  while files are written;
* `IsPlace.refusal?_eq_none_iff` — the paths in a directory that take a file;
* `withName_product`, `diagramPathFor`, `imagePathFor` — the paths of the products of a source.
-/

namespace CallDiagram

namespace FileTree

variable {t : FileTree}

/-- Why no file can be written at a path. -/
def refusal? (t : FileTree) (path : Text) : Option FileError :=
  match t.locate path with
  | .error e => some e
  | .ok a => if t.get? a = some .directory then some (.isDirectory path) else none

theorem refusal?_of_locate {path : Text} {a : Address} (h : t.locate path = .ok a) :
    t.refusal? path = if t.get? a = some .directory then some (.isDirectory path) else none := by
  rw [refusal?, h]

theorem write_eq_error_iff {path : Text} {content : Bytes} {e : FileError} :
    t.write path content = .error e ↔ t.refusal? path = some e := by
  cases hlocate : t.locate path with
  | error e' =>
    have hwrite : t.write path content = .error e' := by
      rw [write, hlocate]
      rfl
    simp [hwrite, refusal?, hlocate]
  | ok a =>
    rw [refusal?_of_locate hlocate, write, hlocate]
    rcases hget : t.get? a with - | (content' | -) <;> simp [Bind.bind, Except.bind, hget]

theorem exists_write_iff {path : Text} {content : Bytes} :
    (∃ t', t.write path content = .ok t') ↔ t.refusal? path = none := by
  cases hwrite : t.write path content with
  | error e => simp [write_eq_error_iff.1 hwrite]
  | ok t' =>
    refine iff_of_true ⟨t', rfl⟩ ?_
    cases hrefusal : t.refusal? path with
    | none => rfl
    | some e => simp [write_eq_error_iff.2 hrefusal] at hwrite

/-- A path is read by what stands where it leads. -/
theorem read_of_locate {path : Text} {a : Address} (h : t.locate path = .ok a) :
    t.read path = match t.get? a with
      | none => .error (.missing path)
      | some .directory => .error (.isDirectory path)
      | some (.file content) => .ok content := by
  rw [FileTree.read, h]
  rfl

theorem read_of_error {path : Text} {e : FileError} (h : t.locate path = .error e) :
    t.read path = .error e := by
  rw [FileTree.read, h]
  rfl

/-! ## Where files can be written -/

variable {t' : FileTree} {path : Text} {a : Address}

/-- A path at whose address a file can be written: it leads through directories, to none, and is not
too long. -/
structure Takes (t : FileTree) (path : Text) (a : Address) : Prop where
  located : t.locate path = .ok a
  free : t.get? a ≠ some .directory

/-- A file can be written at a path unless that is refused. -/
theorem exists_takes_iff : (∃ a, t.Takes path a) ↔ t.refusal? path = none := by
  rw [refusal?]
  cases hlocate : t.locate path with
  | error e =>
    refine iff_of_false (fun ⟨a, h⟩ => ?_) (by simp)
    simpa [hlocate] using h.located
  | ok a =>
    by_cases hget : t.get? a = some .directory
    · refine iff_of_false (fun ⟨b, h⟩ => ?_) (by simp [hget])
      obtain rfl := Except.ok.inj (hlocate.symm.trans h.located)
      exact h.free hget
    · exact iff_of_true ⟨a, hlocate, hget⟩ (by simp [hget])

/-- What is written at a path is the only change, and is read back. -/
theorem Takes.exists_write (h : t.Takes path a) (content : Bytes) :
    ∃ t', t.write path content = .ok t' ∧ ChangedAt t t' [a] ∧
      t'.get? a = some (.file content) := by
  have hwrite : t.write path content = .ok (t.put a (.file content)) :=
    write_eq_ok_iff.2 ⟨a, h.located, h.free, rfl⟩
  obtain ⟨b, hlocate, hchanged, hget⟩ := changedAt_of_write hwrite
  obtain rfl := Except.ok.inj (hlocate.symm.trans h.located)
  exact ⟨_, hwrite, hchanged, hget⟩

theorem Takes.of_changed {touched : List Address} (h : t.Takes path a)
    (hchanged : ChangedAt t t' touched) : t'.Takes path a :=
  ⟨hchanged.locate h.located, fun hget => h.free ((hchanged.directories a).1 hget)⟩

/-- A path is read as before if its address is not touched. -/
theorem Takes.read_of_changed {touched : List Address} (h : t.Takes path a)
    (hchanged : ChangedAt t t' touched) (ha : a ∉ touched) : t'.read path = t.read path := by
  rw [read_of_locate h.located, read_of_locate (hchanged.locate h.located),
    hchanged.elsewhere a ha]

/-- A name that is too long for the file system leads nowhere. -/
theorem locate_ne_ok_of_long (name : Text) (hslash : '/' ∉ name)
    (hlong : partLimit < byteCount name) (t : FileTree) (a : Address) :
    t.locate name ≠ .ok a := by
  intro h
  obtain ⟨-, -, -, -, hfollow⟩ := locate_eq_ok_iff.1 h
  have habove : t.get? [] = some .directory := rfl
  rw [Text.pieces_of_not_mem hslash, follow, habove] at hfollow
  simp [hlong] at hfollow

end FileTree

open FileTree

section Places

variable {t t' : FileTree} {touched : List Address} {directory : Path} {a : Address} {name : Text}

/-- While files are written, the paths in a directory lead where they led. -/
theorem IsPlace.locate_of_changed (h : IsPlace t directory a)
    (hchanged : ChangedAt t t' touched) (hname : IsEntryName name) :
    t'.locate (directory.child name).text = t.locate (directory.child name).text := by
  have h' := h.of_changed hchanged
  rcases locate_child h.located h.directory hname with hchild | hchild
  · rw [hchild, hchanged.locate hchild]
  · rcases locate_child h'.located h'.directory hname with hchild' | hchild'
    · rw [hchanged.symm.locate hchild'] at hchild
      simp at hchild
    · rw [hchild, hchild']

theorem IsPlace.refusal?_of_changed (h : IsPlace t directory a)
    (hchanged : ChangedAt t t' touched) (hname : IsEntryName name) :
    t'.refusal? (directory.child name).text = t.refusal? (directory.child name).text := by
  rw [refusal?, refusal?, h.locate_of_changed hchanged hname]
  cases t.locate (directory.child name).text with
  | error e => rfl
  | ok b => simp only [hchanged.directories b]

/-- A name that is not touched stands for what it stood for. -/
theorem IsPlace.look_of_changed (h : IsPlace t directory a)
    (hchanged : ChangedAt t t' touched) (hname : IsEntryName name) (hnot : a ++ [name] ∉ touched) :
    t'.look (directory.child name).text = t.look (directory.child name).text := by
  rw [look, look, h.locate_of_changed hchanged hname]
  rcases locate_child h.located h.directory hname with hchild | hchild
  · simp only [hchild, hchanged.elsewhere _ hnot]
  · simp only [hchild]

/-- A name that is not touched is read as before, with the same error if it cannot be read. -/
theorem IsPlace.read_of_changed (h : IsPlace t directory a)
    (hchanged : ChangedAt t t' touched) (hname : IsEntryName name) (hnot : a ++ [name] ∉ touched) :
    t'.read (directory.child name).text = t.read (directory.child name).text := by
  have hlocate := h.locate_of_changed hchanged hname
  rcases locate_child h.located h.directory hname with hchild | hchild
  · rw [read_of_locate hchild, read_of_locate (hlocate.trans hchild), hchanged.elsewhere _ hnot]
  · rw [read_of_error hchild, read_of_error (hlocate.trans hchild)]

/-- A path in a directory takes a file unless it leads to a directory or is too long. -/
theorem IsPlace.refusal?_eq_none_iff (h : IsPlace t directory a) (hname : IsEntryName name) :
    t.refusal? (directory.child name).text = none ↔
      t.isDirectory (directory.child name).text = .ok false := by
  rcases locate_child h.located h.directory hname with hchild | hchild
  · rw [refusal?_of_locate hchild, isDirectory, look, hchild]
    simp [Except.map]
  · simp [refusal?, isDirectory, look, hchild, Except.map]

theorem IsPlace.isDirectory_of_changed (h : IsPlace t directory a)
    (hchanged : ChangedAt t t' touched) (hname : IsEntryName name) :
    t'.isDirectory (directory.child name).text = .ok false ↔
      t.isDirectory (directory.child name).text = .ok false := by
  rw [← h.refusal?_eq_none_iff hname, ← (h.of_changed hchanged).refusal?_eq_none_iff hname,
    h.refusal?_of_changed hchanged hname]

end Places

/-! ## Paths of products -/

/-- A name without slashes that does not stay where it is is the only part of a path. -/
theorem ofText_of_no_slash {name : Text} (hslash : '/' ∉ name)
    (hmoves : Path.isStill name = false) : Path.ofText name = ⟨.here, [name]⟩ := by
  have hplain : Path.anchorOf name = .here := by
    unfold Path.anchorOf
    split <;> simp_all
  rw [Path.ofText, hplain, Path.partsOf, Text.pieces_of_not_mem hslash]
  simp [hmoves]

/-- It is that of a single file. -/
theorem isFileName_of_no_slash {name : Text} (hslash : '/' ∉ name)
    (hmoves : Path.isStill name = false) : Path.isFileName name = true := by
  have hlast : name.getLast? ≠ some '/' := fun h => hslash (List.mem_of_getLast? h)
  obtain ⟨hplain, hparts⟩ := Path.mk.inj (ofText_of_no_slash hslash hmoves)
  simp [Path.isFileName, hlast, hplain, hparts]

/-- A name that a directory lists is that of a single file. -/
theorem FileTree.IsEntryName.isFileName {name : Text} (h : IsEntryName name) :
    Path.isFileName name = true :=
  isFileName_of_no_slash h.no_slash h.moves

/-- A path in a directory takes the names of other entries. -/
theorem withName_child {directory : Path} {name other : Text} (hname : name ≠ [])
    (hother : IsEntryName other) :
    (directory.child name).withName other = .ok (directory.child other) := by
  rw [Path.withName, Path.name_child, Path.parent_child, if_pos hother.isFileName,
    if_neg (by simpa using hname)]

/-- The format that a batch is asked for, or else that of the settings, is never empty. -/
theorem format_ne_nil (settings : Settings) (requested : Option Text) :
    (Text.nonempty? requested).getD settings.format.name ≠ [] := by
  rcases requested with - | (- | ⟨c, rest⟩)
  · cases settings.format <;> decide
  · cases settings.format <;> decide
  · simp [Text.nonempty?]

/-- The name of products is a beginning of that of the source. -/
theorem bareName_isPrefix (source : Path) (suffix : Text) :
    bareName source suffix <+: source.name := by
  unfold bareName withoutSuffix?
  split
  · exact List.nil_prefix
  · cases hdrop : Text.dropEnding? suffix source.name with
    | some front => exact ⟨suffix, (Text.dropEnding?_eq_some.1 hdrop).symm⟩
    | none =>
      rw [Option.getD_none, Path.stem]
      cases hcut : Path.cutExtension? source.name with
      | none => exact List.prefix_refl _
      | some halves =>
        obtain ⟨front, back⟩ := halves
        obtain ⟨hcut, -⟩ := Option.filter_eq_some_iff.1 hcut
        exact ⟨'.' :: back, (Text.cutLast?_eq_some hcut).1.symm⟩

/-- Beside a source with an output stem there is a path for each of its products. -/
theorem withName_product {source stem : Path} {suffix ending : Text}
    (h : outputStem source suffix = .ok stem) (hslash : '/' ∉ source.name)
    (hending : ending ≠ []) (hplain : '/' ∉ ending) :
    stem.withName (stem.name ++ ending) = .ok (source.parent.child (stem.name ++ ending)) := by
  obtain ⟨rfl, hfile⟩ := Path.withName_eq_ok h
  rw [Path.name_child]
  have hne : bareName source suffix ≠ [] := by
    intro hnil
    rw [hnil] at hfile
    exact absurd hfile (by decide)
  have hnoslash : '/' ∉ bareName source suffix ++ ending := by
    rw [List.mem_append, not_or]
    exact ⟨fun hmem => hslash ((bareName_isPrefix _ suffix).mem hmem), hplain⟩
  have hmoves : Path.isStill (bareName source suffix ++ ending) = false := by
    obtain ⟨c, rest, hname⟩ := List.exists_cons_of_ne_nil hne
    rw [hname]
    simp [Path.isStill, hending]
  rw [Path.withName, Path.name_child, if_neg (by simpa using hne),
    if_pos (isFileName_of_no_slash hnoslash hmoves), Path.parent_child]

/-- The path of the diagram of a source. -/
def diagramPathFor (source : Path) (suffix : Text) : Except NameError Path :=
  (outputStem source suffix).bind diagramPathOf

/-- The path of the image of a source. -/
def imagePathFor (source : Path) (suffix format : Text) : Except NameError Path :=
  (outputStem source suffix).bind fun stem => imagePathOf stem format

theorem diagramPathFor_eq_ok {directory p : Path} {name suffix : Text}
    (hextension : (directory.child name).extension = suffix)
    (h : diagramPathFor (directory.child name) suffix = .ok p) :
    ∃ front back, name = front ++ suffix ∧ front ≠ [] ∧ suffix = '.' :: back ∧ '.' ∉ back ∧
      outputStem (directory.child name) suffix = .ok (directory.child front) ∧
      p = directory.child (front ++ diagramExtension) := by
  obtain ⟨stem, hstem, hpath⟩ := except_bind_eq_ok_iff.1 h
  obtain ⟨front, back, hname, hfront, hsuffix, hback, rfl⟩ := outputStem_eq_ok hextension hstem
  exact ⟨front, back, hname, hfront, hsuffix, hback, hstem, diagramPathOf_eq_ok hpath⟩

theorem imagePathFor_eq_ok {directory p : Path} {name suffix format : Text}
    (hextension : (directory.child name).extension = suffix)
    (h : imagePathFor (directory.child name) suffix format = .ok p) :
    ∃ front, name = front ++ suffix ∧ front ≠ [] ∧
      p = directory.child (front ++ '.' :: format) := by
  obtain ⟨stem, hstem, hpath⟩ := except_bind_eq_ok_iff.1 h
  obtain ⟨front, -, hname, hfront, -, -, rfl⟩ := outputStem_eq_ok hextension hstem
  exact ⟨front, hname, hfront, imagePathOf_eq_ok hpath⟩

end CallDiagram
