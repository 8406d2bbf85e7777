import CallDiagram.Index.File
import CallDiagram.Proofs.Action.Running
import CallDiagram.Proofs.Json.Fields
import CallDiagram.Proofs.Json.RoundTrip
import CallDiagram.Proofs.Text.Breaks
import CallDiagram.Proofs.Text.Sorting
import CallDiagram.Proofs.Text.Utf8

/-!
# Indexes that were saved

An index of texts is loaded from its file with its fields in another order, which makes no
difference to what is linked.

* `BindsTexts` — the indexes, `BindsTexts.sorted`;
* `read_indexText` — the text of an index is read back, and holds no carriage return;
* `read_of_saveIndex`, `loadIndex_run` — the file of an index;
* `parseText_sortBy` — documents with the links of the index and with those that are loaded.
-/

namespace CallDiagram

/-- Links that bind each identifier once, and to a text. -/
structure BindsTexts (links : Links) : Prop where
  keys : (links.map Prod.fst).Nodup
  texts : ∀ e ∈ links, ∃ s, e.2 = .str s

/-! ## Links in another order -/

theorem BindsTexts.sorted {links : Links} (h : BindsTexts links) :
    BindsTexts (Text.sortBy Prod.fst links) := by
  have hperm := sortBy_perm Prod.fst links
  exact ⟨(hperm.map Prod.fst).nodup_iff.2 h.keys, fun e he => h.texts e (hperm.mem_iff.1 he)⟩

theorem resolve_eq_of_perm {links links' : Links} (h : links.Perm links')
    (hkeys : (links.map Prod.fst).Nodup) (f : Forest Node) :
    resolve links f = resolve links' f := by
  have hempty : links.isEmpty = links'.isEmpty := by
    rw [Bool.eq_iff_iff, List.isEmpty_iff, List.isEmpty_iff]
    exact ⟨fun hnil => (hnil ▸ h).nil_eq.symm, fun hnil => (hnil ▸ h).eq_nil⟩
  simp only [resolve, hempty, Json.field?_eq_of_perm h hkeys]

/-- The order of the links does not matter to a document. -/
theorem parseText_sortBy {links : Links} (h : BindsTexts links) (counter : Counter) (text : Text) :
    parseText counter (Text.sortBy Prod.fst links) text = parseText counter links text := by
  have hresolve : resolve (Text.sortBy Prod.fst links) = resolve links :=
    funext fun f => resolve_eq_of_perm (sortBy_perm Prod.fst links) h.sorted.keys f
  rw [parseText, parseText, parse, parse, hresolve]

/-! ## The text of an index -/

theorem sortedFields_of_texts {links : Links} (h : ∀ e ∈ links, ∃ s, e.2 = .str s) :
    Json.sortedFields links = links := by
  induction links with
  | nil => rfl
  | cons e rest ih =>
    obtain ⟨k, v⟩ := e
    obtain ⟨s, rfl⟩ : ∃ s, v = .str s := h _ List.mem_cons_self
    rw [Json.sortedFields, ih fun e he => h e (List.mem_cons_of_mem _ he)]
    rfl

theorem indexText_of_texts {links : Links} (h : BindsTexts links) :
    indexText links = Json.indented (.object (Text.sortBy Prod.fst links)) := by
  rw [indexText, Json.sorted, sortedFields_of_texts h.texts]

theorem BindsTexts.plain {links : Links} (h : BindsTexts links) : Json.Plain (.object links) := by
  refine ⟨h.keys, ?_⟩
  have htexts := h.texts
  clear h
  induction links with
  | nil => trivial
  | cons e rest ih =>
    obtain ⟨k, v⟩ := e
    obtain ⟨s, rfl⟩ : ∃ s, v = .str s := htexts _ List.mem_cons_self
    exact ⟨trivial, ih fun e he => htexts e (List.mem_cons_of_mem _ he)⟩

theorem isWritable_of_texts {links : Links} (h : ∀ e ∈ links, ∃ s, e.2 = .str s) :
    Json.isWritable (.object links) = true := by
  rw [Json.isWritable]
  induction links with
  | nil => rfl
  | cons e rest ih =>
    obtain ⟨k, v⟩ := e
    obtain ⟨s, rfl⟩ : ∃ s, v = .str s := h _ List.mem_cons_self
    rw [Json.isWritableFields, ih fun e he => h e (List.mem_cons_of_mem _ he)]
    rfl

/-- The text of an index is read back, with the fields in the order of their keys. -/
theorem read_indexText {links : Links} (h : BindsTexts links) :
    Json.read (indexText links) = .ok (.object (Text.sortBy Prod.fst links)) := by
  have hread := Json.read_write Json.faithful_indented h.sorted.plain (List.forall_mem_nil _)
  rw [List.append_nil, ← Json.indented, isWritable_of_texts h.sorted.texts, if_pos rfl] at hread
  rw [indexText_of_texts h]
  exact Json.eq_ok_of_toOption hread

/-! ## Carriage returns -/

theorem not_mem_unitEscape (n : Nat) : '\r' ∉ Json.unitEscape n := by
  have hdigit : ∀ d, d < 16 → '\r' ≠ Nat.digitChar d := by decide
  have hdigits : Text.hex 4 n = [Nat.digitChar (n / 16 / 16 / 16 % 16),
      Nat.digitChar (n / 16 / 16 % 16), Nat.digitChar (n / 16 % 16), Nat.digitChar (n % 16)] := rfl
  simp [Json.unitEscape, hdigits, hdigit _ (Nat.mod_lt _ (by omega))]

/-- A carriage return is written as an escape. -/
theorem not_mem_asciiEscape (c : Char) : '\r' ∉ Json.asciiEscape c := by
  unfold Json.asciiEscape
  cases h : Json.commonEscape? c with
  | some escaped =>
    rcases Json.commonEscape?_eq_some h with ⟨d, hd, rfl⟩ | ⟨-, rfl⟩
    · have hne : '\r' ≠ d := by
        rintro rfl
        simp [Json.shortEscape?] at hd
      simp [hne]
    · exact not_mem_unitEscape _
  | none =>
    have hne : '\r' ≠ c := by
      rintro rfl
      simp [Json.commonEscape?] at h
    by_cases hascii : c.toNat < 0x7F
    · simp [hascii, hne]
    · simp only [if_neg hascii, List.mem_flatMap, not_exists, not_and]
      intro n _
      exact not_mem_unitEscape n

theorem not_mem_writeText (s : Text) : '\r' ∉ Json.writeText .indented s := by
  have hescapes : '\r' ∉ s.flatMap Json.Style.indented.escape := by
    rw [List.mem_flatMap]
    rintro ⟨c, -, hc⟩
    exact not_mem_asciiEscape c hc
  simp [Json.writeText, hescapes]

theorem not_mem_indexText {links : Links} (h : BindsTexts links) : '\r' ∉ indexText links := by
  have hlead : ∀ level, '\r' ∉ Json.Style.indented.lead level := by
    intro level
    simp [Json.Style.indented]
  have hcolon : '\r' ∉ Json.Style.indented.colon := by decide
  have hfields : ∀ fields : Links, (∀ e ∈ fields, ∃ s, e.2 = .str s) →
      '\r' ∉ Json.writeFields .indented 0 fields := by
    intro fields hfields
    induction fields with
    | nil => simp [Json.writeFields, hlead]
    | cons e rest ih =>
      obtain ⟨k, v⟩ := e
      obtain ⟨s, rfl⟩ : ∃ s, v = .str s := hfields _ List.mem_cons_self
      simp [Json.writeFields, Json.write, hlead, hcolon, not_mem_writeText,
        ih fun e he => hfields e (List.mem_cons_of_mem _ he)]
  rw [indexText_of_texts h]
  have htexts := h.sorted.texts
  cases hsorted : Text.sortBy Prod.fst links with
  | nil => decide
  | cons e rest =>
    obtain ⟨k, v⟩ := e
    rw [hsorted] at htexts
    obtain ⟨s, rfl⟩ : ∃ s, v = .str s := htexts _ List.mem_cons_self
    simp [Json.indented, Json.write, hlead, hcolon, not_mem_writeText,
      hfields rest fun e he => htexts e (List.mem_cons_of_mem _ he)]

/-! ## The file of an index -/

/-- Texts are their own plain texts. -/
theorem indexOfFields_of_texts {links : Links} (h : ∀ e ∈ links, ∃ s, e.2 = .str s) :
    indexOfFields links = links := by
  have hsame : ∀ e ∈ links, (e.1, Json.str (Json.display e.2)) = e := by
    rintro ⟨k, v⟩ he
    obtain ⟨s, rfl⟩ : ∃ s, v = .str s := h _ he
    rfl
  rw [indexOfFields, List.map_congr_left hsame, List.map_id']

namespace Action

/-- A saved index stands in its file. -/
theorem read_of_saveIndex {links : Links} {path : Path} {w w' : World}
    (h : saveIndex links path w = .ok () w') :
    w'.files.read path.text = .ok (Utf8.encode (indexText links)) := by
  obtain ⟨_, w₁, -, hwrite⟩ := bind_eq_ok_iff.1 h
  obtain ⟨files, hfiles, rfl⟩ := writeText_eq_ok_iff.1 hwrite
  exact FileTree.read_of_write hfiles

/-- The empty path names the working directory, where no index is saved. -/
theorem ne_nil_of_saveIndex {links : Links} {path : Text} {w w' : World}
    (h : saveIndex links (.ofText path) w = .ok () w') : path ≠ [] := by
  obtain ⟨a, hlocate, hget⟩ := FileTree.read_eq_ok_iff.1 (read_of_saveIndex h)
  apply FileTree.ne_nil_of_locate hlocate
  rw [hget]
  simp

/-- An index is loaded from its file in the order of its keys. -/
theorem loadIndex_run {links : Links} (h : BindsTexts links) {path : Text} {w : World}
    (hread : w.files.read path = .ok (Utf8.encode (indexText links))) :
    loadIndex path w = .ok (Text.sortBy Prod.fst links) w := by
  have htext : readText path w = .ok (indexText links) w :=
    readText_eq_ok_iff.2 ⟨rfl, _, _, hread, Utf8.decode_encode _,
      (Text.unifyBreaks_eq_self (not_mem_indexText h)).symm⟩
  have hvalue : Json.readWithin none (indexText links)
      = .ok (.object (Text.sortBy Prod.fst links)) := by
    rw [Json.readWithin, Option.bind_none, read_indexText h]
    rfl
  rw [loadIndex, loadIndexWithin, bind_of_ok htext, hvalue]
  show EStateM.Result.ok (indexOfFields (Text.sortBy Prod.fst links)) w = _
  rw [indexOfFields_of_texts h.sorted.texts]

end Action

end CallDiagram
