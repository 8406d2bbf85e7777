import CallDiagram.Proofs.Files.Obstacles
import CallDiagram.Proofs.Index.Identifiers
import CallDiagram.Proofs.Settings.Command

/-!
# Suffixes of sources

An environment may set any suffix.  What is made from a file is named by what stands in front of the
suffix, whatever it is, but the files of a directory are found and indexed by their extension: only
a suffix with a single dot finds any.

* `sources_eq_error` — what is in the way of the search of a directory;
* `SuffixLaw`, `suffixLaw_of_ofEnvironment` — what becomes of a file that is named for a component,
  with every suffix that an environment sets.
-/

namespace CallDiagram

open FileTree

theorem dotted_ne_nil (text : Text) : Settings.dotted text ≠ [] := by
  unfold Settings.dotted
  split
  · simp
  · simp

/-! ## The search of a directory -/

theorem names_of_isPlace {t : FileTree} {directory : Path} {a : Address}
    (h : IsPlace t directory a) : t.names directory.text = .ok (t.namesIn a) := by
  cases hnames : t.names directory.text with
  | error e =>
    rw [FileTree.names, h.located] at hnames
    simp [Bind.bind, Except.bind, h.directory] at hnames
  | ok names =>
    obtain ⟨b, hlocate, -, rfl⟩ := names_eq_ok hnames
    obtain rfl := Except.ok.inj (h.located.symm.trans hlocate)
    rfl

/-- The only obstacle to the search of a directory is an entry whose path is too long. -/
theorem sources_eq_error {t : FileTree} (ht : t.WellFormed) {directory : Path} {a : Address}
    (hplace : IsPlace t directory a) {suffix : Text} {e : FileError}
    (h : t.sources directory suffix = .error e) :
    ∃ name entry, (a ++ [name], entry) ∈ t.entries ∧
      t.locate (directory.child name).text = .error e ∧
      e = .tooLong (directory.child name).text := by
  rcases except_bind_eq_error_iff.1 h with hnames | ⟨names, hnames, h⟩
  · rw [names_of_isPlace hplace] at hnames
    cases hnames
  · rcases except_bind_eq_error_iff.1 h with hfound | ⟨found, -, h⟩
    · obtain ⟨p, hp, htest⟩ := exists_of_filterM_eq_error hfound
      obtain ⟨name, hname, rfl⟩ := List.mem_map.1 hp
      rw [names_of_isPlace hplace] at hnames
      obtain rfl := Except.ok.inj hnames
      obtain ⟨entry, hmem⟩ := mem_namesIn.1 hname
      rcases except_bind_eq_error_iff.1 htest with hfile | ⟨b, -, h⟩
      · -- a test fails only where the path of the entry does not lead to it
        rcases locate_child hplace.located hplace.directory (ht.isEntryName hmem) with
          hchild | hchild
        · simp [isFile, look, hchild, Except.map] at hfile
        · simp only [isFile, look, hchild, Except.map, Except.error.injEq] at hfile
          exact ⟨name, entry, hmem, by rw [hchild, hfile], hfile.symm⟩
      · cases h
    · cases h

/-- An identifier is the name of a file. -/
theorem isEntryName_identifier {group method : Text} (hgroup : IsName group)
    (hmethod : IsName method) : IsEntryName (group ++ '#' :: method) := by
  obtain ⟨c, rest, rfl⟩ := List.exists_cons_of_ne_nil hgroup.ne_nil
  refine ⟨?_, ?_, ?_, ?_⟩
  · simp [Path.isStill]
  · intro heq
    have hsign : '#' ∈ c :: rest ++ '#' :: method := by simp
    rw [heq] at hsign
    exact absurd hsign (by decide)
  · exact not_mem_identifier (by decide) (by decide) hgroup hmethod
  · exact not_mem_identifier (by decide) (by decide) hgroup hmethod

/-! ## The law -/

/-- What becomes of a file in a directory that is named for a component with a suffix behind it. -/
structure SuffixLaw (t : FileTree) (directory : Path) (a : Address)
    (component format suffix : Text) : Prop where
  /-- What is made from the file is named for the component. -/
  stem : outputStem (directory.child (component ++ suffix)) suffix
    = .ok (directory.child component)
  /-- A link to its image stands for the name of the component and the format. -/
  link : Utf8.decode (Percent.decode
      (imageLink (directory.child (component ++ suffix)) format suffix))
    = .ok (component ++ '.' :: format)
  /-- The directory is searched and its index is made, unless some path in it is too long. -/
  searched : (∃ sources, t.sources directory suffix = .ok sources ∧
      t.index directory format suffix = .ok (indexOf format suffix sources)) ∨
    ∃ name entry e, (a ++ [name], entry) ∈ t.entries ∧
      t.locate (directory.child name).text = .error e ∧
      e = .tooLong (directory.child name).text ∧ t.sources directory suffix = .error e ∧
      t.index directory format suffix = .error e
  /-- If the suffix is an extension, the file is found, and the component is bound to its link. -/
  found : IsExtension suffix → ∀ {sources : List Path}, t.sources directory suffix = .ok sources →
    directory.child (component ++ suffix) ∈ sources ∧
      Json.field? component (indexOf format suffix sources)
        = some (.str (imageLink (directory.child (component ++ suffix)) format suffix))
  /-- If it is not, no file is found, and nothing is bound. -/
  lost : ¬ IsExtension suffix → ∀ {sources : List Path},
    t.sources directory suffix = .ok sources →
      sources = [] ∧ indexOf format suffix sources = []

theorem suffixLaw_of_ofEnvironment {env : Environment} {settings : Settings}
    (h : Settings.ofEnvironment env = .ok settings) (hslash : '/' ∉ settings.suffix)
    {t : FileTree} (ht : t.WellFormed) {directory : Path} {a : Address}
    (hplace : IsPlace t directory a) {group method : Text} (hgroup : IsName group)
    (hmethod : IsName method) {content : Bytes}
    (hfile : (a ++ [group ++ '#' :: method ++ settings.suffix], .file content) ∈ t.entries)
    (format : Text) :
    SuffixLaw t directory a (group ++ '#' :: method) format settings.suffix := by
  obtain ⟨-, hdotted⟩ := ofEnvironment_eq_ok h
  have hne : settings.suffix ≠ [] := by
    rw [hdotted]
    exact dotted_ne_nil _
  generalize settings.suffix = suffix at hslash hfile hne ⊢
  have hname : (directory.child (group ++ '#' :: method ++ suffix)).name
      = group ++ '#' :: method ++ suffix := Path.name_child _ _
  have hfront : group ++ '#' :: method ≠ [] := by simp
  refine ⟨?stem, ?link, ?searched, ?found, ?lost⟩
  case stem =>
    rw [outputStem, bareName, (withoutSuffix?_eq_some_iff hne).2 hname, Option.getD_some]
    exact withName_child (by simp) (isEntryName_identifier hgroup hmethod)
  case link => rw [imageLink_eq hne hname, decode_link]
  case searched =>
    cases hsources : t.sources directory suffix with
    | ok sources => exact Or.inl ⟨sources, rfl, by rw [FileTree.index, hsources]; rfl⟩
    | error e =>
      obtain ⟨name, entry, hmem, hlocate, he⟩ := sources_eq_error ht hplace hsources
      exact Or.inr ⟨name, entry, e, hmem, hlocate, he, rfl, by rw [FileTree.index, hsources]; rfl⟩
  case found =>
    intro hextension sources hsources
    obtain ⟨b, hlocate, -, hall, -⟩ := ht.sources_of_eq_ok hsources
    obtain rfl := Except.ok.inj (hplace.located.symm.trans hlocate)
    have hmem : directory.child (group ++ '#' :: method ++ suffix) ∈ sources :=
      (hall.complete _).2 ⟨_, content, rfl, hfile, extension_of_isExtension hextension hname hfront⟩
    have hsource : ∀ p ∈ sources, p = directory.child p.name ∧ p.extension = suffix := by
      intro p hp
      obtain ⟨name, -, rfl, -, hp⟩ := (hall.complete p).1 hp
      exact ⟨by rw [Path.name_child], hp⟩
    refine ⟨hmem, ?_⟩
    rw [field?_indexOf hne hsource (isIdentifier_of_isName hgroup hmethod), if_pos hmem,
      imageLink_eq hne hname]
  case lost =>
    intro hextension sources hsources
    obtain ⟨b, -, -, hall, -⟩ := ht.sources_of_eq_ok hsources
    have hnil : sources = [] := by
      rw [List.eq_nil_iff_forall_not_mem]
      intro p hp
      obtain ⟨name, -, rfl, -, hp⟩ := (hall.complete p).1 hp
      exact hextension (isExtension_of_extension hp hne hslash)
    exact ⟨hnil, by rw [hnil]; rfl⟩

/-- A directory with files for one component, under two suffixes. -/
def twiceSuffixed : FileTree :=
  ⟨[(["d"], .directory), (["d", "A#f.call"], .file []), (["d", "A#f.call.txt"], .file [])]⟩

theorem isPlace_twiceSuffixed : IsPlace twiceSuffixed ⟨.here, ["d"]⟩ ["d"] :=
  ⟨by cbv, by decide⟩

/-- A suffix that is set without its dot is an extension, and its file is found. -/
theorem suffixLaw_dotless :
    Settings.ofEnvironment [(Settings.suffixVariable, "call")] = .ok { suffix := ".call" } ∧
      '/' ∉ (".call" : Text) ∧ twiceSuffixed.WellFormed ∧ IsExtension ".call" ∧
      twiceSuffixed.sources ⟨.here, ["d"]⟩ ".call" = .ok [⟨.here, ["d", "A#f.call"]⟩] ∧
      SuffixLaw twiceSuffixed ⟨.here, ["d"]⟩ ["d"] (("A" : Text) ++ '#' :: "f") "svg" ".call" := by
  have henv : Settings.ofEnvironment [(Settings.suffixVariable, "call")]
      = .ok { suffix := ".call" } := by rfl
  have hwell : twiceSuffixed.WellFormed := by decide
  refine ⟨henv, by decide, hwell, ⟨"call", rfl, by decide, by decide, by decide⟩, by cbv, ?_⟩
  exact suffixLaw_of_ofEnvironment henv (by decide) hwell isPlace_twiceSuffixed (by decide)
    (by decide) (List.mem_cons_of_mem _ List.mem_cons_self) "svg"

/-- A suffix with two dots may be set, but finds nothing. -/
theorem not_found_twoDots :
    Settings.ofEnvironment [(Settings.suffixVariable, ".call.txt")]
        = .ok { suffix := ".call.txt" } ∧
      ((["d", "A#f.call.txt"], .file []) : Address × Entry) ∈ twiceSuffixed.entries ∧
      twiceSuffixed.sources ⟨.here, ["d"]⟩ ".call.txt" = .ok [] ∧
      twiceSuffixed.index ⟨.here, ["d"]⟩ "svg" ".call.txt" = .ok [] :=
  ⟨by rfl, by decide, by cbv, by cbv⟩

end CallDiagram
