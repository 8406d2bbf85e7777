import CallDiagram.Files.Tree
import CallDiagram.Proofs.Results
import CallDiagram.Proofs.Text.Pieces
import Mathlib.Data.List.Nodup

/-!
# Reading behind writing

A file that is written is read back, and nothing else is touched: every other path leads where it
led, to what stood there.

* `locate_eq_ok_iff`, `follow_append`, `locate_of_directories` — where a path leads;
* `read_eq_ok_iff`, `write_eq_ok_iff` — access that succeeds;
* `ChangedAt` — two trees that differ at some addresses, with the same directories;
* `changedAt_of_write`, `read_of_write` — what a write does;
* `IsEntryName`, `locate_child` — the paths of the entries of a directory;
* `WellFormed`, `mem_namesIn`, `nodup_namesIn` — the entries that a directory lists.
-/

namespace CallDiagram

namespace FileTree

variable {t t' : FileTree}

/-! ## Following a path -/

theorem isAbove_append (a : Address) (name : Text) :
    isAbove (a ++ [name]) = (isAbove a && (name = ['.', '.'] : Bool)) := by
  simp [isAbove]

/-- The path in whose words errors are put does not matter to success. -/
theorem follow_eq_ok_iff {path path' : Text} {a b : Address} {parts : List Text} :
    t.follow path a parts = .ok b ↔ t.follow path' a parts = .ok b := by
  induction parts generalizing a with
  | nil => rfl
  | cons part rest ih =>
    rw [follow, follow]
    split
    · simp
    · simp
    · split
      · simp
      · exact ih

/-- Parts behind others are followed from where these lead. -/
theorem follow_append {path : Text} {a : Address} (front rest : List Text) :
    t.follow path a (front ++ rest)
      = (t.follow path a front).bind fun b => t.follow path b rest := by
  induction front generalizing a with
  | nil => rfl
  | cons part front ih =>
    rw [List.cons_append, follow, follow]
    split
    · rfl
    · rfl
    · split
      · rfl
      · exact ih

theorem locate_eq_ok_iff {path : Text} {a : Address} :
    t.locate path = .ok a ↔
      '\x00' ∉ path ∧ byteCount path ≤ pathLimit ∧ path ≠ [] ∧ Path.anchorOf path = .here ∧
        t.follow path [] (Text.pieces '/' path) = .ok a := by
  unfold locate
  by_cases hnull : '\x00' ∈ path
  · simp [hnull]
  · by_cases hlong : pathLimit < byteCount path
    · simp [hnull, hlong, Nat.not_le.2 hlong]
    · by_cases hplace : (path.isEmpty || decide (Path.anchorOf path ≠ .here)) = true
      · rw [if_neg hnull, if_neg hlong, if_pos hplace]
        constructor
        · intro h
          simp at h
        · rintro ⟨-, -, hne, hhere, -⟩
          simp [hne, hhere] at hplace
      · rw [if_neg hnull, if_neg hlong, if_neg hplace]
        have hplace' : path ≠ [] ∧ Path.anchorOf path = .here := by simpa using hplace
        simp [hnull, hplace', Nat.not_lt.1 hlong]

/-- A path goes on behind directories only, so it leads where it led if these are kept. -/
theorem locate_of_directories (h : ∀ b, t.get? b = some .directory → t'.get? b = some .directory)
    {path : Text} {a : Address} (hlocate : t.locate path = .ok a) : t'.locate path = .ok a := by
  have hfollow : ∀ (parts : List Text) (b : Address), t.follow path b parts = .ok a →
      t'.follow path b parts = .ok a := by
    intro parts
    induction parts with
    | nil =>
      intro b hb
      exact hb
    | cons part rest ih =>
      intro b hb
      rw [follow] at hb ⊢
      have hdirectory : t.get? b = some .directory := by
        split at hb
        · simp at hb
        · simp at hb
        · assumption
      simp only [hdirectory, h b hdirectory] at hb ⊢
      by_cases hlong : partLimit < byteCount part
      · simp [hlong] at hb
      · rw [if_neg hlong] at hb ⊢
        exact ih _ hb
  obtain ⟨hnull, hlong, hne, hhere, hparts⟩ := locate_eq_ok_iff.1 hlocate
  exact locate_eq_ok_iff.2 ⟨hnull, hlong, hne, hhere, hfollow _ _ hparts⟩

/-! ## Access -/

theorem read_eq_ok_iff {path : Text} {content : Bytes} :
    t.read path = .ok content ↔
      ∃ a, t.locate path = .ok a ∧ t.get? a = some (.file content) := by
  rw [read, except_bind_eq_ok_iff]
  refine exists_congr fun a => and_congr_right fun _ => ?_
  cases t.get? a with
  | none => simp
  | some entry => cases entry <;> simp

theorem write_eq_ok_iff {path : Text} {content : Bytes} :
    t.write path content = .ok t' ↔
      ∃ a, t.locate path = .ok a ∧ t.get? a ≠ some .directory ∧ t' = t.put a (.file content) := by
  rw [write, except_bind_eq_ok_iff]
  refine exists_congr fun a => and_congr_right fun _ => ?_
  cases t.get? a with
  | none => simp [eq_comm]
  | some entry => cases entry <;> simp [eq_comm]

theorem not_isAbove_of_get? {a : Address} (h : t.get? a ≠ some .directory) : isAbove a = false := by
  cases habove : isAbove a with
  | false => rfl
  | true => simp [get?, habove] at h

/-- The empty path leads to the working directory, so no file has it. -/
theorem ne_nil_of_locate {path : Text} {a : Address}
    (hlocate : t.locate (Path.ofText path).text = .ok a) (ha : t.get? a ≠ some .directory) :
    path ≠ [] := by
  rintro rfl
  have hhere : t.locate (Path.ofText []).text = .ok [] := by
    refine locate_eq_ok_iff.2 ⟨by decide, by decide, by decide, by decide, ?_⟩
    rfl
  obtain rfl : [] = a := Except.ok.inj (hhere.symm.trans hlocate)
  exact ha rfl

/-! ## Changes -/

/-- Two trees that hold the same but at some addresses, and the same directories. -/
structure ChangedAt (t t' : FileTree) (touched : List Address) : Prop where
  elsewhere : ∀ b, b ∉ touched → t'.get? b = t.get? b
  directories : ∀ b, t'.get? b = some .directory ↔ t.get? b = some .directory

namespace ChangedAt

variable {touched : List Address}

theorem refl (t : FileTree) : ChangedAt t t [] := ⟨fun _ _ => rfl, fun _ => Iff.rfl⟩

theorem trans {t'' : FileTree} {more : List Address} (h : ChangedAt t t' touched)
    (h' : ChangedAt t' t'' more) : ChangedAt t t'' (touched ++ more) := by
  refine ⟨fun b hb => ?_, fun b => (h'.directories b).trans (h.directories b)⟩
  rw [List.mem_append, not_or] at hb
  rw [h'.elsewhere b hb.2, h.elsewhere b hb.1]

theorem mono {more : List Address} (h : ChangedAt t t' touched)
    (hmore : ∀ b ∈ touched, b ∈ more) : ChangedAt t t' more :=
  ⟨fun b hb => h.elsewhere b fun hmem => hb (hmore b hmem), h.directories⟩

theorem locate (h : ChangedAt t t' touched) {path : Text} {a : Address}
    (hlocate : t.locate path = .ok a) : t'.locate path = .ok a :=
  locate_of_directories (fun b hb => (h.directories b).2 hb) hlocate

theorem symm (h : ChangedAt t t' touched) : ChangedAt t' t touched :=
  ⟨fun b hb => (h.elsewhere b hb).symm, fun b => (h.directories b).symm⟩

/-- What is not touched is read as before. -/
theorem read (h : ChangedAt t t' touched) {path : Text} {a : Address}
    (hlocate : t.locate path = .ok a) (ha : a ∉ touched) {content : Bytes} :
    t'.read path = .ok content ↔ t.read path = .ok content := by
  rw [read_eq_ok_iff, read_eq_ok_iff, hlocate, h.locate hlocate]
  simp [h.elsewhere a ha]

end ChangedAt

/-- A write changes the file at its address, which is read back. -/
theorem changedAt_of_write {path : Text} {content : Bytes} (h : t.write path content = .ok t') :
    ∃ a, t.locate path = .ok a ∧ ChangedAt t t' [a] ∧ t'.get? a = some (.file content) := by
  obtain ⟨a, hlocate, hget, rfl⟩ := write_eq_ok_iff.1 h
  have hput := t.get?_put (not_isAbove_of_get? hget)
  refine ⟨a, hlocate, ⟨fun b hb => ?elsewhere, fun b => ?directories⟩, ?same⟩
  case elsewhere => rw [hput, if_neg (Ne.symm (by simpa using hb))]
  case directories =>
    rw [hput]
    split
    · rename_i heq
      simp [← heq, hget]
    · rfl
  case same => rw [hput, if_pos rfl]

theorem read_of_write {path : Text} {content : Bytes} (h : t.write path content = .ok t') :
    t'.read path = .ok content := by
  obtain ⟨a, hlocate, hchanged, hget⟩ := changedAt_of_write h
  exact read_eq_ok_iff.2 ⟨a, hchanged.locate hlocate, hget⟩

/-! ## Entries of a directory -/

/-- A name under which a directory lists something. -/
structure IsEntryName (name : Text) : Prop where
  moves : Path.isStill name = false
  down : name ≠ ['.', '.']
  no_slash : '/' ∉ name
  no_null : '\x00' ∉ name

theorem isEntryName_iff {name : Text} : IsEntryName name ↔
    Path.isStill name = false ∧ name ≠ ['.', '.'] ∧ '/' ∉ name ∧ '\x00' ∉ name :=
  ⟨fun h => ⟨h.moves, h.down, h.no_slash, h.no_null⟩,
    fun ⟨moves, down, no_slash, no_null⟩ => ⟨moves, down, no_slash, no_null⟩⟩

instance (name : Text) : Decidable (IsEntryName name) := decidable_of_iff' _ isEntryName_iff

theorem IsEntryName.ne_nil {name : Text} (h : IsEntryName name) : name ≠ [] := by
  rintro rfl
  have hmoves := h.moves
  simp [Path.isStill] at hmoves

theorem IsEntryName.step {name : Text} (h : IsEntryName name) (a : Address) :
    step a name = a ++ [name] := by
  rw [FileTree.step, h.moves]
  simp [h.down]

/-- An entry of a directory is no directory above the working one. -/
theorem IsEntryName.not_isAbove {name : Text} (h : IsEntryName name) (a : Address) :
    isAbove (a ++ [name]) = false := by
  rw [isAbove_append]
  simp [h.down]

theorem text_child {directory : Path} (name : Text) (h : directory.parts ≠ []) :
    (directory.child name).text = directory.text ++ '/' :: name := by
  have hjoin : ∀ part parts, Path.join (part :: parts ++ [name])
      = Path.join (part :: parts) ++ '/' :: name := by
    intro part parts
    induction parts generalizing part with
    | nil => rfl
    | cons next parts ih =>
      have hnext := ih next
      rw [List.cons_append] at hnext
      simp [Path.join, hnext]
  obtain ⟨anchor, parts⟩ := directory
  cases parts with
  | nil => exact absurd rfl h
  | cons part parts =>
    have hjoin := hjoin part parts
    cases anchor <;> simp_all [Path.text, Path.child, Anchor.text]

/-- An entry of a directory is found where the directory is, unless its path is too long. -/
theorem locate_child {directory : Path} {a : Address} (hlocate : t.locate directory.text = .ok a)
    (ha : t.get? a = some .directory) {name : Text} (h : IsEntryName name) :
    t.locate (directory.child name).text = .ok (a ++ [name]) ∨
      t.locate (directory.child name).text = .error (.tooLong (directory.child name).text) := by
  obtain ⟨hnull, -, hne, hhere, hfollow⟩ := locate_eq_ok_iff.1 hlocate
  have hplain : Path.anchorOf name = .here := by
    have hslash := h.no_slash
    unfold Path.anchorOf
    split <;> simp_all
  -- the path of the entry is that of the directory with one part more
  have hpath : '\x00' ∉ (directory.child name).text ∧ (directory.child name).text ≠ [] ∧
      Path.anchorOf (directory.child name).text = .here ∧
        ∀ path, t.follow path [] (Text.pieces '/' (directory.child name).text)
          = t.follow path a [name] := by
    by_cases hparts : directory.parts = []
    · obtain ⟨anchor, parts⟩ := directory
      obtain rfl : parts = [] := hparts
      cases anchor with
      | here =>
        have htext : (Path.child ⟨.here, []⟩ name).text = name := rfl
        have hroot : [] = a := Except.ok.inj hfollow
        rw [htext, Text.pieces_of_not_mem h.no_slash, ← hroot]
        exact ⟨h.no_null, h.ne_nil, hplain, fun _ => rfl⟩
      | root => exact absurd hhere (by decide)
      | doubleRoot => exact absurd hhere (by decide)
    · rw [text_child name hparts]
      refine ⟨?_, by simp, ?_, fun path => ?_⟩
      · simp [hnull, h.no_null]
      · cases htext : directory.text with
        | nil => exact absurd htext hne
        | cons c rest =>
          rw [htext] at hhere
          have hc : c ≠ '/' := by
            rintro rfl
            unfold Path.anchorOf at hhere
            split at hhere <;> simp_all
          simp [Path.anchorOf, hc]
      · rw [Text.pieces_append_cons, Text.pieces_of_not_mem h.no_slash, follow_append,
          follow_eq_ok_iff.1 hfollow]
        rfl
  obtain ⟨hnull', hne', hhere', hfollow'⟩ := hpath
  by_cases hlong : pathLimit < byteCount (directory.child name).text
  · right
    rw [locate, if_neg hnull', if_pos hlong]
  · rw [locate, if_neg hnull', if_neg hlong, if_neg (by simp [hne', hhere']), hfollow', follow, ha]
    by_cases hname : partLimit < byteCount name
    · right
      simp [hname]
    · left
      simp [hname, follow, h.step]

/-- A tree that binds each address once, under names that a directory lists. -/
structure WellFormed (t : FileTree) : Prop where
  distinct : (t.entries.map Prod.fst).Nodup
  named : ∀ e ∈ t.entries, ∃ a name, e.1 = a ++ [name] ∧ IsEntryName name

theorem wellFormed_iff {t : FileTree} : t.WellFormed ↔ (t.entries.map Prod.fst).Nodup ∧
    ∀ e ∈ t.entries, ∃ name ∈ e.1.getLast?, IsEntryName name := by
  constructor
  · intro h
    refine ⟨h.distinct, fun e he => ?_⟩
    obtain ⟨a, name, heq, hname⟩ := h.named e he
    exact ⟨name, by rw [heq, List.getLast?_concat, Option.mem_def], hname⟩
  · rintro ⟨hdistinct, hnamed⟩
    refine ⟨hdistinct, fun e he => ?_⟩
    obtain ⟨name, hlast, hname⟩ := hnamed e he
    obtain ⟨a, heq⟩ := List.getLast?_eq_some_iff.1 hlast
    exact ⟨a, name, heq, hname⟩

instance (t : FileTree) : Decidable t.WellFormed := decidable_of_iff' _ wellFormed_iff

theorem find?_of_mem {entries : List (Address × Entry)} (h : (entries.map Prod.fst).Nodup)
    {a : Address} {entry : Entry} (hmem : (a, entry) ∈ entries) : find? a entries = some entry := by
  induction entries with
  | nil => simp at hmem
  | cons e rest ih =>
    obtain ⟨b, other⟩ := e
    rw [List.map_cons, List.nodup_cons] at h
    rcases List.mem_cons.1 hmem with heq | hmem
    · obtain ⟨rfl, rfl⟩ := Prod.mk.inj heq
      simp [find?]
    · have hne : b ≠ a := by
        rintro rfl
        exact h.1 (List.mem_map.2 ⟨_, hmem, rfl⟩)
      rw [find?, if_neg hne, ih h.2 hmem]

theorem mem_of_find? {entries : List (Address × Entry)} {a : Address} {entry : Entry}
    (h : find? a entries = some entry) : (a, entry) ∈ entries := by
  induction entries with
  | nil => simp [find?] at h
  | cons e rest ih =>
    obtain ⟨b, other⟩ := e
    by_cases hb : b = a
    · simp_all [find?]
    · rw [find?, if_neg hb] at h
      exact List.mem_cons_of_mem _ (ih h)

/-- The last name of an address, if it is that of an entry of a directory. -/
def nameIn? (a b : Address) : Option Text :=
  match b.getLast? with
  | some name => if b.dropLast = a then some name else none
  | none => none

theorem nameIn?_eq_some_iff {a b : Address} {name : Text} :
    nameIn? a b = some name ↔ b = a ++ [name] := by
  unfold nameIn?
  rcases List.eq_nil_or_concat b with rfl | ⟨front, last, rfl⟩
  · simp
  · simp [and_comm]

/-- The names that a directory lists. -/
def namesIn (t : FileTree) (a : Address) : List Text :=
  (t.entries.map Prod.fst).filterMap (nameIn? a)

theorem names_eq_ok {path : Text} {names : List Text} (h : t.names path = .ok names) :
    ∃ a, t.locate path = .ok a ∧ t.get? a = some .directory ∧ names = t.namesIn a := by
  rw [FileTree.names, except_bind_eq_ok_iff] at h
  obtain ⟨a, hlocate, h⟩ := h
  refine ⟨a, hlocate, ?_⟩
  cases hget : t.get? a with
  | none => simp [hget] at h
  | some entry =>
    cases entry with
    | file content => simp [hget] at h
    | directory =>
      rw [hget] at h
      rw [namesIn, List.filterMap_map]
      exact ⟨rfl, (Except.ok.inj h).symm⟩

/-- A directory lists a name for each of its entries. -/
theorem mem_namesIn {a : Address} {name : Text} :
    name ∈ t.namesIn a ↔ ∃ entry, (a ++ [name], entry) ∈ t.entries := by
  simp [namesIn, nameIn?_eq_some_iff]

theorem WellFormed.nodup_namesIn (h : t.WellFormed) (a : Address) : (t.namesIn a).Nodup := by
  refine List.Nodup.filterMap ?_ h.distinct
  intro b b' name hb hb'
  rw [Option.mem_def, nameIn?_eq_some_iff] at hb hb'
  exact hb.trans hb'.symm

theorem WellFormed.isEntryName (h : t.WellFormed) {a : Address} {name : Text} {entry : Entry}
    (hmem : (a ++ [name], entry) ∈ t.entries) : IsEntryName name := by
  obtain ⟨b, name', heq, hname⟩ := h.named _ hmem
  obtain ⟨-, hlast⟩ := List.append_inj' heq rfl
  exact (List.cons.inj hlast).1 ▸ hname

/-- What a tree binds to an address below a directory stands there. -/
theorem WellFormed.get?_eq_some_iff (h : t.WellFormed) {a : Address} {name : Text}
    (hname : IsEntryName name) {entry : Entry} :
    t.get? (a ++ [name]) = some entry ↔ (a ++ [name], entry) ∈ t.entries := by
  rw [get?, hname.not_isAbove]
  exact ⟨mem_of_find?, find?_of_mem h.distinct⟩

end FileTree

end CallDiagram
