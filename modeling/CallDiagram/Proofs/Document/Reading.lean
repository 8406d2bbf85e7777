import CallDiagram.Proofs.Document.Inheritance
import Mathlib.Data.List.TakeWhile

/-!
# The passes over a document

One statement for each pass, so that no other file opens the passes themselves.

* `scan_nodes`, `scan_failure` — the nodes are those of the lines in front of the first unknown
  line, the failure is that line;
* `arrange_eq_ok_iff`, `parse_eq_ok_iff`, `parseLimited_eq_ok_iff` — when a document makes a forest,
  and which;
* `map_place_walk`, `number_walk_of_parse`, `eq_ofList_walk_of_parse`, `rootFault?_of_mem_tops` —
  what is known of a forest that a document makes.
-/

namespace CallDiagram

/-! ## Scanning -/

/-- Whether a line is not blank and says nothing known. -/
def isUnknownLine (line : Text) : Bool := !Text.isBlank line && (Statement.read? line).isNone

/-- The node of a line with its index, if it makes one. -/
def nodeOfLine? (l : Text × Nat) : Option Node :=
  if Text.isBlank l.1 then none
  else (Statement.read? l.1).map fun r => ⟨l.2, l.1, r.1, r.2⟩

/-- The lines of a document that are not blank, each with the number of lines in front of it. -/
def writtenLines (document : List Text) : List (Text × Nat) :=
  document.zipIdx.filter fun l => !Text.isBlank l.1

theorem indent_of_read? {line : Text} {r : Nat × Statement} (h : Statement.read? line = some r) :
    r.1 = indentOf line := by
  obtain ⟨s, -, rfl⟩ := Option.map_eq_some_iff.1 h
  rfl

theorem blank_or_unknown_or_read (line : Text) :
    Text.isBlank line = true ∨
      Text.isBlank line = false ∧ Statement.read? line = none ∨
      Text.isBlank line = false ∧ ∃ r, Statement.read? line = some r := by
  cases Text.isBlank line with
  | true => exact Or.inl rfl
  | false =>
    cases Statement.read? line with
    | none => exact Or.inr (Or.inl ⟨rfl, rfl⟩)
    | some r => exact Or.inr (Or.inr ⟨rfl, r, rfl⟩)

theorem scan_of_blank {index : Nat} {line : Text} (h : Text.isBlank line = true)
    (rest : List Text) : scan index (line :: rest) = scan (index + 1) rest := by
  rw [scan, if_pos h]

theorem scan_of_unknown {index : Nat} {line : Text} (hb : Text.isBlank line = false)
    (hr : Statement.read? line = none) (rest : List Text) :
    scan index (line :: rest) = ([], some ⟨.unknownStatement, index, line⟩) := by
  rw [scan, if_neg (by simp [hb]), hr]

theorem scan_of_read {index : Nat} {line : Text} (hb : Text.isBlank line = false) {indent : Nat}
    {s : Statement} (hr : Statement.read? line = some (indent, s)) (rest : List Text) :
    scan index (line :: rest)
      = (⟨index, line, indent, s⟩ :: (scan (index + 1) rest).1, (scan (index + 1) rest).2) := by
  rw [scan, if_neg (by simp [hb]), hr]

theorem scan_nodes (index : Nat) (document : List Text) :
    (scan index document).1
      = ((document.takeWhile fun l => !isUnknownLine l).zipIdx index).filterMap nodeOfLine? := by
  induction document generalizing index with
  | nil => rfl
  | cons line rest ih =>
    rw [scan]
    by_cases hb : Text.isBlank line = true
    · simp [hb, isUnknownLine, nodeOfLine?, ih]
    · cases hr : Statement.read? line with
      | none => simp [hb, hr, isUnknownLine]
      | some r => simp [hb, hr, isUnknownLine, nodeOfLine?, ih]

theorem scan_failure (index : Nat) (document : List Text) :
    (scan index document).2
      = ((document.zipIdx index).find? fun l => isUnknownLine l.1).map
          fun l => ⟨.unknownStatement, l.2, l.1⟩ := by
  induction document generalizing index with
  | nil => rfl
  | cons line rest ih =>
    rw [scan]
    by_cases hb : Text.isBlank line = true
    · simp [hb, isUnknownLine, ih]
    · cases hr : Statement.read? line with
      | none => simp [hb, hr, isUnknownLine]
      | some r => simp [hb, hr, isUnknownLine, ih]

theorem scan_failure_eq_none_iff {index : Nat} {document : List Text} :
    (scan index document).2 = none ↔ ∀ l ∈ document, isUnknownLine l = false := by
  rw [scan_failure, Option.map_eq_none_iff, List.find?_eq_none]
  constructor
  · intro h l hl
    obtain ⟨i, hi⟩ := List.mem_iff_getElem?.1 hl
    have hmem : (l, index + i) ∈ document.zipIdx index :=
      List.mem_iff_getElem?.2 ⟨i, by simp [hi]⟩
    simpa using h _ hmem
  · intro h l hl
    simpa using h l.1 (List.fst_mem_of_mem_zipIdx hl)

theorem complaint_of_scan_failure {index : Nat} {document : List Text} {e : ParseError}
    (h : (scan index document).2 = some e) : e.complaint = .unknownStatement := by
  rw [scan_failure] at h
  obtain ⟨l, -, rfl⟩ := Option.map_eq_some_iff.1 h
  rfl

/-- Behind lines that are all known the scan goes on as it does by itself. -/
theorem scan_append {index : Nat} {front : List Text} (h : (scan index front).2 = none)
    (rest : List Text) :
    scan index (front ++ rest)
      = ((scan index front).1 ++ (scan (index + front.length) rest).1,
          (scan (index + front.length) rest).2) := by
  induction front generalizing index with
  | nil => rfl
  | cons line front ih =>
    obtain hb | ⟨hb, hr⟩ | ⟨hb, r, hr⟩ := blank_or_unknown_or_read line
    · rw [scan_of_blank hb] at h
      rw [List.cons_append, scan_of_blank hb, scan_of_blank hb, ih h, List.length_cons]
      simp only [Nat.add_assoc, Nat.add_comm 1]
    · rw [scan_of_unknown hb hr] at h
      simp at h
    · rw [scan_of_read hb hr] at h
      rw [List.cons_append, scan_of_read hb hr, scan_of_read hb hr, ih h, List.length_cons]
      simp only [Nat.add_assoc, Nat.add_comm 1, List.cons_append]

/-- Without an unknown line every line that is not blank makes a node. -/
theorem scan_nodes_of_failure_eq_none {index : Nat} {document : List Text}
    (h : (scan index document).2 = none) :
    (scan index document).1 = (document.zipIdx index).filterMap nodeOfLine? := by
  rw [scan_nodes, List.takeWhile_eq_self_iff.2]
  simpa using scan_failure_eq_none_iff.1 h

/-- Without an unknown line the nodes come from the lines that are not blank, in order. -/
theorem map_place_scan {document : List Text} (h : (scan 0 document).2 = none) :
    (scan 0 document).1.map Node.place
      = (writtenLines document).map fun l => ((l.2 : Int), l.1, (indentOf l.1 : Int)) := by
  have hknown := scan_failure_eq_none_iff.1 h
  rw [scan_nodes_of_failure_eq_none h, List.map_filterMap, writtenLines, ← List.filterMap_eq_map,
    List.filterMap_filter]
  refine List.filterMap_congr ?_
  intro l hl
  have hl' := hknown l.1 (List.fst_mem_of_mem_zipIdx hl)
  by_cases hb : Text.isBlank l.1 = true
  · simp [nodeOfLine?, hb]
  · cases hr : Statement.read? l.1 with
    | none => simp [isUnknownLine, hb, hr] at hl'
    | some r =>
      simp [nodeOfLine?, hb, hr, Node.place, indent_of_read? hr]

/-- Numbered nodes come from lines that are not blank. -/
theorem exists_writtenLine_of_mem_number {counter : Counter} {document : List Text}
    (h : (scan 0 document).2 = none) {n : Node}
    (hn : n ∈ number counter (scan 0 document).1) :
    ∃ l ∈ writtenLines document, n.place = ((l.2 : Int), l.1, (indentOf l.1 : Int)) := by
  have hplace := List.mem_map_of_mem (f := Node.place) hn
  rw [map_number Node.place_withAlias, map_place_scan h] at hplace
  obtain ⟨l, hl, heq⟩ := List.mem_map.1 hplace
  exact ⟨l, hl, heq.symm⟩

/-! ## Hanging -/

theorem arrange_eq_ok_iff {nodes : List Node} {f : Forest Node} :
    arrange nodes = .ok f ↔
      (Forest.ofList Node.indent nodes).tops.findSome? rootFault? = none ∧
        f = inherit none (Forest.ofList Node.indent nodes) := by
  cases h : (Forest.ofList Node.indent nodes).tops.findSome? rootFault? with
  | none => simp [arrange, h, eq_comm]
  | some e => simp [arrange, h]

theorem arrange_eq_error_iff {nodes : List Node} {e : ParseError} :
    arrange nodes = .error e ↔
      (Forest.ofList Node.indent nodes).tops.findSome? rootFault? = some e := by
  cases h : (Forest.ofList Node.indent nodes).tops.findSome? rootFault? with
  | none => simp [arrange, h]
  | some e' => simp [arrange, h]

/-! ## Whole documents -/

theorem parse_of_failure {document : List Text} {e : ParseError}
    (h : (scan 0 document).2 = some e) (counter : Counter) (links : Links) :
    (parse counter links document).1 = .error e := by
  simp [parse, h]

theorem parse_of_no_failure {document : List Text} (h : (scan 0 document).2 = none)
    (counter : Counter) (links : Links) :
    (parse counter links document).1
      = (arrange (number counter (scan 0 document).1)).map (resolve links) := by
  simp [parse, h]

theorem parse_counter (counter : Counter) (links : Links) (document : List Text) :
    (parse counter links document).2 = counter.advance (callCount (scan 0 document).1) := by
  cases h : (scan 0 document).2 <;> simp [parse, h]

theorem parse_eq_ok_iff {counter : Counter} {links : Links} {document : List Text}
    {f : Forest Node} :
    (parse counter links document).1 = .ok f ↔
      (scan 0 document).2 = none ∧
        ∃ g, arrange (number counter (scan 0 document).1) = .ok g ∧ f = resolve links g := by
  cases h : (scan 0 document).2 with
  | some e => simp [parse_of_failure h]
  | none =>
    rw [parse_of_no_failure h]
    cases arrange (number counter (scan 0 document).1) with
    | error e => simp [Except.map]
    | ok g => simp [Except.map, eq_comm]

/-- A document is refused for its first unknown line, or else for its first level. -/
theorem parse_eq_error_iff {counter : Counter} {links : Links} {document : List Text}
    {e : ParseError} :
    (parse counter links document).1 = .error e ↔
      (scan 0 document).2 = some e ∨
        (scan 0 document).2 = none ∧
          arrange (number counter (scan 0 document).1) = .error e := by
  cases h : (scan 0 document).2 with
  | some e' => simp [parse_of_failure h]
  | none =>
    rw [parse_of_no_failure h]
    cases arrange (number counter (scan 0 document).1) <;> simp [Except.map]

/-- In a document that makes a forest, the nodes of the walk come from the lines that are not
blank, in order. -/
theorem map_place_walk {counter : Counter} {links : Links} {document : List Text}
    {f : Forest Node} (h : (parse counter links document).1 = .ok f) :
    f.walk.map Node.place
      = (writtenLines document).map fun l => ((l.2 : Int), l.1, (indentOf l.1 : Int)) := by
  obtain ⟨hscan, g, hg, rfl⟩ := parse_eq_ok_iff.1 h
  obtain ⟨-, rfl⟩ := arrange_eq_ok_iff.1 hg
  rw [← Forest.walk_map, map_place_resolve, map_place_inherit, Forest.walk_map,
    Forest.walk_ofList, map_number Node.place_withAlias, map_place_scan hscan]

/-- The calls of a forest that a document makes are numbered in document order. -/
theorem number_walk_of_parse {counter : Counter} {links : Links} {document : List Text}
    {f : Forest Node} (h : (parse counter links document).1 = .ok f) :
    number counter f.walk = f.walk ∧ callCount f.walk = callCount (scan 0 document).1 := by
  obtain ⟨-, g, hg, rfl⟩ := parse_eq_ok_iff.1 h
  obtain ⟨-, rfl⟩ := arrange_eq_ok_iff.1 hg
  generalize (scan 0 document).1 = nodes
  have halias : ((resolve links (inherit none (Forest.ofList Node.indent
      (number counter nodes)))).walk.map Node.aliasName?)
      = (number counter nodes).map Node.aliasName? := by
    rw [← Forest.walk_map, map_resolve (fun _ _ => Node.aliasName?_mapCall (by simp) _),
      map_inherit (fun _ _ => Node.aliasName?_mapCall (by simp) _), Forest.walk_map,
      Forest.walk_ofList]
  have hcount : callCount (resolve links (inherit none (Forest.ofList Node.indent
      (number counter nodes)))).walk = callCount nodes := by
    rw [← callCount_number counter nodes]
    apply callCount_eq_of_map_eq
    have hisSome := congrArg (List.map Option.isSome) halias
    simpa [Function.comp_def, Node.aliasName?] using hisSome
  refine ⟨number_eq_self ?_, hcount⟩
  have hlist := congrArg (List.filterMap id) halias
  rw [List.filterMap_map, List.filterMap_map] at hlist
  rw [hcount, ← aliases_number]
  exact hlist

/-- The alias of a call of a document is one of those that the counter draws. -/
theorem exists_aliasName_of_parse {counter : Counter} {links : Links} {document : List Text}
    {f : Forest Node} (h : (parse counter links document).1 = .ok f) {n : Node} (hn : n ∈ f.walk)
    {c : Call} (hc : n.call? = some c) :
    ∃ k < callCount f.walk, c.aliasName = (counter.advance k).aliasName := by
  obtain ⟨hself, -⟩ := number_walk_of_parse h
  have hdrawn := aliases_number counter f.walk
  rw [hself] at hdrawn
  have hmem : c.aliasName ∈ f.walk.filterMap Node.aliasName? :=
    List.mem_filterMap.2 ⟨n, hn, by rw [Node.aliasName?, hc, Option.map_some]⟩
  rw [hdrawn] at hmem
  exact mem_draw hmem

/-- Every forest that a document makes is hung by its own indents. -/
theorem eq_ofList_walk_of_parse {counter : Counter} {links : Links} {document : List Text}
    {f : Forest Node} (h : (parse counter links document).1 = .ok f) :
    f = Forest.ofList Node.indent f.walk := by
  obtain ⟨-, g, hg, rfl⟩ := parse_eq_ok_iff.1 h
  obtain ⟨-, rfl⟩ := arrange_eq_ok_iff.1 hg
  apply Forest.eq_ofList_walk Node.place fun p => p.2.2
  rw [map_place_resolve, map_place_inherit, ← Forest.map_ofList]
  rfl

/-- The top nodes of a forest that a document makes are calls with groups. -/
theorem rootFault?_of_mem_tops {counter : Counter} {links : Links} {document : List Text}
    {f : Forest Node} (h : (parse counter links document).1 = .ok f) {n : Node}
    (hn : n ∈ f.tops) : rootFault? n = none := by
  obtain ⟨-, g, hg, rfl⟩ := parse_eq_ok_iff.1 h
  obtain ⟨hroots, rfl⟩ := arrange_eq_ok_iff.1 hg
  have hinherit : ∀ m ∈ (inherit none (Forest.ofList Node.indent
      (number counter (scan 0 document).1))).tops, rootFault? m = none := by
    intro m hm
    rw [tops_inherit] at hm
    obtain ⟨k, hk, rfl⟩ := List.mem_map.1 hm
    exact rootFault?_nearestGroup (List.findSome?_eq_none_iff.1 hroots k hk)
  unfold resolve at hn
  split at hn
  · exact hinherit n hn
  · rw [Forest.tops_map] at hn
    obtain ⟨m, hm, rfl⟩ := List.mem_map.1 hn
    exact rootFault?_mapCall (by simp) (hinherit m hm)

theorem exists_call?_of_mem_tops {counter : Counter} {links : Links} {document : List Text}
    {f : Forest Node} (h : (parse counter links document).1 = .ok f) {n : Node}
    (hn : n ∈ f.tops) : ∃ c, n.call? = some c := by
  obtain ⟨c, g, hc, -⟩ := rootFault?_eq_none_iff.1 (rootFault?_of_mem_tops h hn)
  exact ⟨c, hc⟩

/-! ## Long numbers -/

/-- As far as all aliases can be written, the limit changes nothing. -/
theorem parseLimited_of_writable {counter : Counter} {document : List Text}
    (h : ∀ k < callCount (scan 0 document).1, Number.isWritable (counter.next + k) = true)
    (links : Links) :
    (parseLimited counter links document).1
      = (parse counter links document).1.mapError .line := by
  have hissue := issue_of_writable h
  unfold parseLimited
  split <;> simp_all

/-- The counter behind a document is the one behind the aliases of its calls, as far as they are
issued. -/
theorem parseLimited_counter (counter : Counter) (links : Links) (document : List Text) :
    (parseLimited counter links document).2 = (counter.issue (callCount (scan 0 document).1)).2 := by
  unfold parseLimited
  split
  · rename_i e behind hissue
    rw [hissue]
  · rename_i aliases behind hissue
    have hok := Counter.issue_of_ok (congrArg Prod.fst hissue)
    exact (parse_counter counter links document).trans hok.2.symm

/-- If all its aliases can be written, a document draws one for each call. -/
theorem parseLimited_snd_of_writable {counter : Counter} {document : List Text}
    (h : ∀ k < callCount (scan 0 document).1, Number.isWritable (counter.next + k) = true)
    (links : Links) :
    (parseLimited counter links document).2 = counter.advance (callCount (scan 0 document).1) := by
  rw [parseLimited_counter]
  exact (Counter.issue_of_ok (issue_of_writable h)).2

theorem parseLimited_of_not_writable {counter : Counter} {document : List Text} {k : Nat}
    (hk : k < callCount (scan 0 document).1)
    (h : Number.isWritable (counter.next + k) = false) (links : Links) :
    (parseLimited counter links document).1 = .error (.number .tooManyDigits) := by
  have hissue := issue_of_not_writable hk h
  unfold parseLimited
  split <;> simp_all

/-- A document makes a forest if it does so without a limit and all its aliases can be written. -/
theorem parseLimited_eq_ok_iff {counter : Counter} {links : Links} {document : List Text}
    {f : Forest Node} :
    (parseLimited counter links document).1 = .ok f ↔
      (∀ k < callCount (scan 0 document).1, Number.isWritable (counter.next + k) = true) ∧
        (parse counter links document).1 = .ok f := by
  by_cases h : ∀ k < callCount (scan 0 document).1, Number.isWritable (counter.next + k) = true
  · rw [parseLimited_of_writable h, and_iff_right h]
    cases (parse counter links document).1 <;> simp [Except.mapError]
  · obtain ⟨k, hk, hw⟩ : ∃ k, k < callCount (scan 0 document).1 ∧
        Number.isWritable (counter.next + k) = false := by simpa using h
    rw [parseLimited_of_not_writable hk hw]
    simp [h]

/-- A document is refused at a line if it is so without a limit and all its aliases can be
written. -/
theorem parseLimited_eq_error_line_iff {counter : Counter} {links : Links} {document : List Text}
    {e : ParseError} :
    (parseLimited counter links document).1 = .error (.line e) ↔
      (∀ k < callCount (scan 0 document).1, Number.isWritable (counter.next + k) = true) ∧
        (parse counter links document).1 = .error e := by
  by_cases h : ∀ k < callCount (scan 0 document).1, Number.isWritable (counter.next + k) = true
  · rw [parseLimited_of_writable h, and_iff_right h]
    cases (parse counter links document).1 <;> simp [Except.mapError]
  · obtain ⟨k, hk, hw⟩ : ∃ k, k < callCount (scan 0 document).1 ∧
        Number.isWritable (counter.next + k) = false := by simpa using h
    rw [parseLimited_of_not_writable hk hw]
    simp [h]

end CallDiagram
