import CallDiagram.Proofs.Diagram.References
import CallDiagram.Proofs.Document.Refusal

/-!
# The aliases of a document

All aliases in the diagram of a document are drawn from its counter, one for each line that makes a
call, so documents that are numbered on share none.

* `Line.aliases`, `aliasesOf` — the aliases that are declared or used;
* `callLines`, `parseText_counter_of_ok` — how many aliases a document takes;
* `exists_draw_of_mem_aliasesOf` — the aliases of a document are drawn from its counter;
* `disjoint_aliasesOf` — no alias is in two documents.
-/

namespace CallDiagram

/-- The aliases that a directive declares or uses. -/
def Line.aliases : Line → List Text
  | .participant _ name _ => [name]
  | l => l.used

/-- The aliases of a forest: those of its calls, and those in the lines of its diagram. -/
def aliasesOf (f : Forest Node) : List Text :=
  (callsOf f).map Call.aliasName
    ++ match diagram f with
      | .ok lines => lines.flatMap Line.aliases
      | .error _ => []

/-- The aliases in the section of a tree are those of its calls. -/
theorem exists_call_of_mem_aliases {t : Node × Forest Node} {c : Call} (hc : t.1.call? = some c)
    {l : Line} (hl : l ∈ treeSection t) {name : Text} (hname : name ∈ l.aliases) :
    ∃ d ∈ callsOf (Forest.single t), name = d.aliasName := by
  rw [treeSection_of_call hc] at hl
  rcases List.mem_cons.1 hl with rfl | hl
  · simp [Line.aliases, Line.used] at hname
  · rcases List.mem_append.1 hl with hl | hl
    · obtain ⟨box, hbox, hl⟩ := List.mem_flatMap.1 hl
      simp only [List.mem_cons, List.mem_append, List.mem_map, List.not_mem_nil, or_false] at hl
      rcases hl with rfl | ⟨d, hd, rfl⟩ | rfl
      · simp [Line.aliases, Line.used] at hname
      · have hmem := Participants.mem_of_mem_declared (List.mem_flatMap.2 ⟨box, hbox, hd⟩)
        exact ⟨d, hmem, List.mem_singleton.1 hname⟩
      · simp [Line.aliases, Line.used] at hname
    · have hused : name ∈ l.used := by
        have hplain := isDeclaring_callGraph l hl
        cases l with
        | participant label aliasName link => simp [Line.isDeclaring] at hplain
        | _ => exact hname
      have hmem := List.mem_flatMap.2 ⟨l, hl, hused⟩
      rw [used_callGraph] at hmem
      obtain ⟨d, hd, rfl⟩ := List.mem_map.1 hmem
      have hcall := (mem_callsOf_of_mem_addressed hd).resolve_right (by simp)
      obtain ⟨e, he, -, halias⟩ := Participants.exists_aliasOf hcall
      exact ⟨e, he, halias⟩

/-- The aliases of a document are drawn from its counter. -/
theorem exists_draw_of_mem_aliasesOf {counter : Counter} {links : Links} {document : List Text}
    {f : Forest Node} (h : (parse counter links document).1 = .ok f) {name : Text}
    (hname : name ∈ aliasesOf f) :
    ∃ k < callsRead document, name = (counter.advance k).aliasName := by
  have hcall : ∃ c ∈ callsOf f, name = c.aliasName := by
    rcases List.mem_append.1 hname with hname | hname
    · obtain ⟨c, hc, rfl⟩ := List.mem_map.1 hname
      exact ⟨c, hc, rfl⟩
    · by_cases hne : f = .nil
      · subst hne
        simp [diagram] at hname
      · obtain ⟨first, -, -, hdiagram⟩ := exists_diagram_of_parse h hne
        rw [hdiagram] at hname
        obtain ⟨l, hl, hname⟩ := List.mem_flatMap.1 hname
        simp only [preamble, List.mem_append, List.mem_cons, List.mem_flatMap, List.not_mem_nil,
          or_false] at hl
        rcases hl with (hl | ⟨t, ht, hl⟩) | rfl
        · rcases hl with rfl | rfl | rfl | rfl <;> simp [Line.aliases, Line.used] at hname
        · obtain ⟨c, hc⟩ := exists_call?_of_mem_trees h ht
          obtain ⟨d, hd, rfl⟩ := exists_call_of_mem_aliases hc hl hname
          exact ⟨d, flatMap_callsOf_trees f ▸ List.mem_flatMap.2 ⟨t, ht, hd⟩, rfl⟩
        · simp [Line.aliases, Line.used] at hname
  obtain ⟨c, hc, rfl⟩ := hcall
  obtain ⟨n, hn, hcall⟩ := List.mem_filterMap.1 hc
  obtain ⟨k, hk, halias⟩ := exists_aliasName_of_parse h hn hcall
  rw [(number_walk_of_parse h).2, callCount_scan] at hk
  exact ⟨k, hk, halias⟩

/-! ## Lines that make calls -/

/-- The number of lines of a text that make a call. -/
def callLines (text : Text) : Nat := (Text.lines text).countP fun l => (callOfLine? l).isSome

/-- In a document that is not refused, all lines that make a call are read. -/
theorem callsRead_of_parse {counter : Counter} {links : Links} {text : Text} {f : Forest Node}
    (h : (parseText counter links text).1 = .ok f) :
    callsRead (Text.lines text) = callLines text := by
  obtain ⟨hscan, -⟩ := parse_eq_ok_iff.1 h
  have hknown := scan_failure_eq_none_iff.1 hscan
  rw [callsRead, List.takeWhile_eq_self_iff.2 (fun t ht => by simp [hknown t ht]), callLines]

/-- A document that is not refused takes an alias for each line that makes a call. -/
theorem parseText_counter_of_ok {counter : Counter} {links : Links} {text : Text}
    {f : Forest Node} (h : (parseText counter links text).1 = .ok f) :
    (parseText counter links text).2 = counter.advance (callLines text) := by
  rw [← callsRead_of_parse h, ← callCount_scan]
  exact parse_counter counter links (Text.lines text)

/-- Two documents share no alias if the second one is numbered from behind the first one. -/
theorem disjoint_aliasesOf {counter : Counter} {links : Links} {text text' : Text}
    {f g : Forest Node} {n : Nat} (hf : (parseText counter links text).1 = .ok f)
    (hn : callLines text ≤ n) (hg : (parseText (counter.advance n) links text').1 = .ok g) :
    ∀ name ∈ aliasesOf f, name ∉ aliasesOf g := by
  intro name hname hname'
  obtain ⟨j, hj, rfl⟩ := exists_draw_of_mem_aliasesOf hf hname
  obtain ⟨k, -, heq⟩ := exists_draw_of_mem_aliasesOf hg hname'
  rw [callsRead_of_parse hf] at hj
  rw [Counter.advance_advance] at heq
  have hsame := aliasName_advance_inj heq
  omega

end CallDiagram
