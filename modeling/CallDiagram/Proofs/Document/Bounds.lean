import CallDiagram.Proofs.Conversion.Diagram
import CallDiagram.Proofs.Diagram.Sections

/-!
# Bounds on documents

No line number and no indent of a document exceeds the length of its text, and a refusal names no
line break.

* `length_lines_le`, `length_le_of_mem_lines` — the lines of a text;
* `place_of_mem_walk` — the nodes of a document;
* `ParseError.Within`, `within_of_drawing_error` — the refusals of a document.
-/

namespace CallDiagram

/-! ## Lines -/

namespace Text

theorem length_lines_le (t : Text) : (lines t).length ≤ t.length := by
  fun_induction lines t with
  | case1 => simp
  | case2 rest ih =>
    simp only [List.length_cons]
    omega
  | case3 c rest hpair hend ih =>
    simp only [List.length_cons]
    omega
  | case4 c rest hpair hend ih =>
    cases hlines : lines rest with
    | nil => simp [ontoFirst]
    | cons first more =>
      simp only [hlines, ontoFirst, List.length_cons] at ih ⊢
      omega

theorem length_le_of_mem_lines {t line : Text} (h : line ∈ lines t) : line.length ≤ t.length := by
  fun_induction lines t generalizing line with
  | case1 => simp at h
  | case2 rest ih =>
    rcases List.mem_cons.1 h with rfl | h
    · simp
    · have hrest := ih h
      simp only [List.length_cons]
      omega
  | case3 c rest hpair hend ih =>
    rcases List.mem_cons.1 h with rfl | h
    · simp
    · have hrest := ih h
      simp only [List.length_cons]
      omega
  | case4 c rest hpair hend ih =>
    -- the character goes to the front of the first line
    cases hlines : lines rest with
    | nil =>
      obtain rfl : line = [c] := by simpa [hlines, ontoFirst] using h
      simp
    | cons first more =>
      rw [hlines, ontoFirst] at h
      rcases List.mem_cons.1 h with rfl | h
      · have hfirst := ih (hlines ▸ List.mem_cons_self)
        simp only [List.length_cons]
        omega
      · have hmore := ih (hlines ▸ List.mem_cons_of_mem _ h)
        simp only [List.length_cons]
        omega

end Text

/-! ## Nodes -/

theorem mem_of_mem_writtenLines {document : List Text} {l : Text × Nat}
    (h : l ∈ writtenLines document) : l.1 ∈ document ∧ l.2 < document.length := by
  have hmem : l ∈ document.zipIdx := (List.mem_filter.1 h).1
  refine ⟨List.fst_mem_of_mem_zipIdx hmem, ?_⟩
  have hindex := List.snd_lt_of_mem_zipIdx hmem
  omega

/-- A node of a document stands in one of its lines and is indented by a part of it. -/
theorem place_of_mem_walk {counter : Counter} {links : Links} {document : List Text}
    {f : Forest Node} (h : (parse counter links document).1 = .ok f) {n : Node} (hn : n ∈ f.walk) :
    (0 ≤ n.index ∧ n.index < document.length) ∧
      ∃ line ∈ document, 0 ≤ n.indent ∧ n.indent ≤ line.length := by
  have hplace := List.mem_map_of_mem (f := Node.place) hn
  rw [map_place_walk h] at hplace
  obtain ⟨l, hl, heq⟩ := List.mem_map.1 hplace
  obtain ⟨hline, hindex⟩ := mem_of_mem_writtenLines hl
  simp only [Node.place, Prod.mk.injEq] at heq
  obtain ⟨hi, -, hindent⟩ := heq
  have hshort : indentOf l.1 ≤ l.1.length := (List.takeWhile_sublist _).length_le
  exact ⟨by omega, l.1, hline, by omega⟩

/-! ## Refusals -/

/-- A refusal of a document: at one of its lines, or at the first if there is none, and in words in
which nothing but a line stands. -/
structure ParseError.Within (document : List Text) (e : ParseError) : Prop where
  index : e.index = 0 ∨ 0 < e.index ∧ e.index < document.length
  wording : e.complaint = .unknownStatement ∧ e.content ∈ document ∨
    e.complaint ∈ [.rootNotComponent, .rootWithoutGroup, .noComponents]

theorem complaint_of_rootComplaint? {s : Statement} {complaint : Complaint}
    (h : s.rootComplaint? = some complaint) :
    complaint = .rootNotComponent ∨ complaint = .rootWithoutGroup := by
  cases s with
  | call c => cases hgroup : Text.nonempty? c.group <;> simp_all [Statement.rootComplaint?]
  | _ => exact Or.inl (Option.some.inj h).symm

theorem within_of_parse_error {counter : Counter} {links : Links} {document : List Text}
    {e : ParseError} (h : (parse counter links document).1 = .error e) : e.Within document := by
  obtain hscan | ⟨hscan, harrange⟩ := parse_eq_error_iff.1 h
  · rw [scan_failure] at hscan
    obtain ⟨l, hl, rfl⟩ := Option.map_eq_some_iff.1 hscan
    have hmem := List.mem_of_find?_eq_some hl
    have hindex := List.snd_lt_of_mem_zipIdx hmem
    refine ⟨?_, Or.inl ⟨rfl, List.fst_mem_of_mem_zipIdx hmem⟩⟩
    show (l.2 : Int) = 0 ∨ 0 < (l.2 : Int) ∧ (l.2 : Int) < document.length
    omega
  · rw [arrange_eq_error_iff] at harrange
    obtain ⟨n, hn, hfault⟩ := List.exists_of_findSome?_eq_some harrange
    have hmem : n ∈ number counter (scan 0 document).1 := by
      rw [← Forest.walk_ofList Node.indent (number counter (scan 0 document).1)]
      exact Forest.mem_walk_of_mem_tops hn
    obtain ⟨l, hl, hplace⟩ := exists_writtenLine_of_mem_number hscan hmem
    obtain ⟨-, hindex⟩ := mem_of_mem_writtenLines hl
    simp only [Node.place, Prod.mk.injEq] at hplace
    obtain ⟨hi, -⟩ := place_of_rootFault? hfault
    refine ⟨by omega, Or.inr ?_⟩
    rw [rootFault?_eq_map] at hfault
    obtain ⟨complaint, hcomplaint, rfl⟩ := Option.map_eq_some_iff.1 hfault
    rcases complaint_of_rootComplaint? hcomplaint with rfl | rfl <;> simp

/-- A document without a call is refused at its first line, even if there is none. -/
theorem within_of_drawing_error {counter : Counter} {links : Links} {text : Text} {e : ParseError}
    (h : drawing counter links text = .error e) : e.Within (Text.lines text) := by
  unfold drawing at h
  cases hparse : (parseText counter links text).1 with
  | error e' =>
    rw [hparse] at h
    obtain rfl : e' = e := Except.error.inj h
    exact within_of_parse_error hparse
  | ok f =>
    rw [hparse] at h
    have hdiagram : diagramText f = .error e := h
    by_cases hne : f = .nil
    · subst hne
      obtain rfl : ⟨.noComponents, 0, []⟩ = e := Except.error.inj hdiagram
      exact ⟨Or.inl rfl, Or.inr (by simp)⟩
    · obtain ⟨first, -, -, hok⟩ := exists_diagram_of_parse hparse hne
      rw [diagramText, hok] at hdiagram
      simp [Except.map] at hdiagram

namespace ParseError.Within

variable {text : Text} {e : ParseError} (h : e.Within (Text.lines text))

include h

/-- A refusal is worded in one line. -/
theorem not_mem_detail : '\n' ∉ e.detail := by
  obtain ⟨complaint, index, content⟩ := e
  obtain ⟨-, ⟨rfl, hmem⟩ | hwording⟩ := h
  · have hcontent : '\n' ∉ content := by
      intro hc
      exact absurd (Text.not_isLineEnd_of_mem_lines hmem hc) (by decide)
    simp [ParseError.detail, hcontent]
  · simp only [List.mem_cons, List.not_mem_nil, or_false] at hwording
    rcases hwording with rfl | rfl | rfl <;> simp [ParseError.detail]

theorem lineNumber_le : e.lineNumber.natAbs ≤ max 1 text.length := by
  have hlines := Text.length_lines_le text
  have hindex := h.index
  rw [ParseError.lineNumber]
  omega

end ParseError.Within

end CallDiagram
