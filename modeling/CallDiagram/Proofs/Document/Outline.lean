import CallDiagram.Proofs.Diagram.Unplaced
import CallDiagram.Proofs.Document.Statements
import Mathlib

/-!
# Outlines read back

The outline of a forest that a text makes is a text that makes the same forest, but for the lines
that the nodes come from.

* `lines_outline` — the lines of an outline are those of its nodes;
* `Node.Legible`, `legible_of_parse` — nodes that a line can tell, and that all nodes of a text are;
* `scan_map_line` — lines that are told in full are read in full;
* `ReadsBack`, `readsBack_of_parseLimited` — the round trip.
-/

namespace CallDiagram

/-! ## Lines of an outline -/

theorem lines_append_break {t : Text} (h : ∀ c ∈ t, isLineEnd c = false) (rest : Text) :
    Text.lines (t ++ '\n' :: rest) = t :: Text.lines rest := by
  induction t with
  | nil => rfl
  | cons c t ih =>
    have hc := h c List.mem_cons_self
    have hne : c ≠ '\r' := by
      rintro rfl
      exact absurd hc (by decide)
    rw [List.cons_append, Text.lines, hc, ih fun d hd => h d (List.mem_cons_of_mem _ hd)]
    · rfl
    · intro _ heq
      exact absurd heq hne

/-- Lines that are ended one by one are the lines of the text. -/
theorem lines_flatMap_break {ls : List Text} (h : ∀ t ∈ ls, ∀ c ∈ t, isLineEnd c = false) :
    Text.lines (ls.flatMap fun t => t ++ ['\n']) = ls := by
  induction ls with
  | nil => rfl
  | cons t ls ih =>
    rw [List.flatMap_cons, List.append_assoc, List.singleton_append,
      lines_append_break (h t List.mem_cons_self), ih fun u hu => h u (List.mem_cons_of_mem _ hu)]

/-! ## Legible nodes -/

namespace Node

/-- The line of a node in an outline, without the break behind it. -/
def line (n : Node) : Text := List.replicate n.indent.toNat ' ' ++ n.statement.text

/-- A node that its line tells in full, but for its alias. -/
structure Legible (n : Node) : Prop where
  margin : 0 ≤ n.indent
  canonical : n.statement.Canonical
  grouped : ∀ c, n.call? = some c → c.group ≠ none
  unlinked : ∀ c, n.call? = some c → c.link = .null

theorem read?_line {n : Node} (h : n.Legible) :
    Statement.read? n.line = some (n.indent.toNat, n.statement.asWritten) :=
  read?_replicate_append_text h.canonical _

theorem isBlank_line {n : Node} (h : n.Legible) : Text.isBlank n.line = false := by
  obtain ⟨c, rest, htext, hc⟩ := exists_text_eq_cons h.canonical
  simp [Text.isBlank, line, htext, hc]

theorem not_isLineEnd_of_mem_line {n : Node} (h : n.Legible) {c : Char} (hc : c ∈ n.line) :
    isLineEnd c = false := by
  rcases List.mem_append.1 hc with hc | hc
  · rw [List.eq_of_mem_replicate hc]
    decide
  · exact not_isLineEnd_of_mem_text h.canonical hc

end Node

theorem lines_outline {f : Forest Node} (h : ∀ n ∈ f.walk, n.Legible) :
    Text.lines (outline f) = f.walk.map Node.line := by
  have houtline : outline f = (f.walk.map Node.line).flatMap fun t => t ++ ['\n'] := by
    rw [List.flatMap_map]
    rfl
  rw [houtline]
  apply lines_flatMap_break
  intro t ht c hc
  obtain ⟨n, hn, rfl⟩ := List.mem_map.1 ht
  exact Node.not_isLineEnd_of_mem_line (h n hn) hc

/-- The node that the line of a node makes at a place in a document. -/
def Node.reread (l : Node × Nat) : Node := ⟨l.2, l.1.line, l.1.indent, l.1.statement.asWritten⟩

/-- Every line of legible nodes makes a node. -/
theorem scan_map_line {nodes : List Node} (h : ∀ n ∈ nodes, n.Legible) :
    scan 0 (nodes.map Node.line) = (nodes.zipIdx.map Node.reread, none) := by
  have hfailure : (scan 0 (nodes.map Node.line)).2 = none := by
    rw [scan_failure_eq_none_iff]
    intro t ht
    obtain ⟨n, hn, rfl⟩ := List.mem_map.1 ht
    simp [isUnknownLine, Node.read?_line (h n hn)]
  have hnodes : (scan 0 (nodes.map Node.line)).1 = nodes.zipIdx.map Node.reread := by
    rw [scan_nodes_of_failure_eq_none hfailure, List.zipIdx_map, List.filterMap_map,
      ← List.filterMap_eq_map]
    refine List.filterMap_congr fun l hl => ?_
    have hlegible := h l.1 (List.fst_mem_of_mem_zipIdx hl)
    simp [nodeOfLine?, Node.isBlank_line hlegible, Node.read?_line hlegible, Node.reread,
      Int.toNat_of_nonneg hlegible.margin]
  rw [← hnodes, ← hfailure]

/-! ## Forests of texts are legible -/

/-- What a node from a line without terminators says, as far as numbering and inheriting go: a
canonical statement without a link. -/
def Node.Plain (n : Node) : Prop :=
  n.statement.Canonical ∧ ∀ c, n.call? = some c → c.link = .null

theorem lasting_canonical : Lasting fun n => n.statement.Canonical :=
  lasting_of_statement (fun _ hc => hc.1) (fun _ _ hc => hc) fun _ _ hgroup hc => ⟨hgroup, hc.2⟩

theorem lasting_plain : Lasting Node.Plain := lasting_canonical.unlinked

theorem plain_of_mem_scan {document : List Text}
    (h : ∀ line ∈ document, ∀ c ∈ line, isLineEnd c = false) {n : Node}
    (hn : n ∈ (scan 0 document).1) : n.Plain := by
  obtain ⟨line, hline, r, hr, hstatement⟩ := exists_read?_of_mem_scan hn
  exact ⟨hstatement ▸ canonical_of_read? (h line hline) hr, fun c hc => link_of_mem_scan hn hc⟩

/-- All nodes of the forest of a text are legible. -/
theorem legible_of_parse {counter : Counter} {text : Text} {f : Forest Node}
    (h : (parse counter [] (Text.lines text)).1 = .ok f) : ∀ n ∈ f.walk, n.Legible := by
  have hplace := map_place_walk h
  have hplain := lasting_plain.parse_without_links
    (fun n hn => plain_of_mem_scan (fun _ hl _ hc => Text.not_isLineEnd_of_mem_lines hl hc) hn) h
  intro n hn
  obtain ⟨⟨hcanonical, hlink⟩, hgroup⟩ := hplain n hn
  refine ⟨?_, hcanonical, hgroup, hlink⟩
  have hmem := List.mem_map_of_mem (f := Node.place) hn
  rw [hplace] at hmem
  obtain ⟨l, -, heq⟩ := List.mem_map.1 hmem
  simp only [Node.place, Prod.mk.injEq] at heq
  omega

/-! ## The round trip -/

/-- The other forest is the same but for the lines that its nodes come from, which are those of the
outline, so that the two look the same. -/
structure ReadsBack (f g : Forest Node) : Prop where
  /-- Shape, indents and statements are the same, with aliases, groups, comments and notes. -/
  unplaced : g.map Node.unplaced = f.map Node.unplaced
  /-- The nodes come from the lines of the outline, one from each. -/
  places : g.walk.map Node.place
    = f.walk.zipIdx.map fun l => ((l.2 : Int), l.1.line, l.1.indent)
  /-- The outlines are the same. -/
  outline : outline g = outline f
  /-- The diagrams are the same. -/
  diagram : diagramText g = diagramText f
  /-- There is a diagram if there is a tree. -/
  drawn : f ≠ .nil → ∃ picture, diagramText f = .ok picture

theorem Node.unplaced_withAlias (name : Text) (n : Node) :
    (n.withAlias name).unplaced = n.unplaced.withAlias name := by
  obtain ⟨index, source, indent, statement⟩ := n
  cases statement <;> rfl

theorem unplaced_reread {n : Node} (h : n.Legible) (index : Nat) :
    (Node.reread (n, index)).unplaced = n.unplaced.withAlias [] := by
  obtain ⟨i, source, indent, statement⟩ := n
  cases statement with
  | call c =>
    have hlink : c.link = .null := h.unlinked c rfl
    simp [Node.reread, Node.unplaced, Node.withAlias, Node.mapCall, Statement.asWritten,
      Call.asWritten, hlink]
  | _ => rfl

/-- Numbering the nodes of an outline gives the nodes of the forest. -/
theorem number_reread {counter : Counter} {nodes : List Node} (h : ∀ n ∈ nodes, n.Legible)
    (hself : number counter nodes = nodes) :
    (number counter (nodes.zipIdx.map Node.reread)).map Node.unplaced
      = nodes.map Node.unplaced := by
  have hreread : (nodes.zipIdx.map Node.reread).map Node.unplaced
      = (nodes.map Node.unplaced).map (Node.withAlias []) := by
    rw [List.map_map, List.map_map, ← List.zipIdx_map_fst 0 nodes, List.map_map,
      List.zipIdx_map_fst]
    refine List.map_congr_left fun l hl => ?_
    exact unplaced_reread (h l.1 (List.fst_mem_of_mem_zipIdx hl)) l.2
  have hplain : ∀ nodes' : List Node,
      number counter (nodes'.map Node.unplaced) = (number counter nodes').map Node.unplaced :=
    number_map (h := Node.unplaced) (fun _ => rfl) Node.unplaced_withAlias counter
  rw [← hplain, hreread, number_map_withAlias, hplain, hself]

theorem callCount_of_unplaced {l l' : List Node}
    (h : l.map Node.unplaced = l'.map Node.unplaced) : callCount l = callCount l' := by
  apply callCount_eq_of_map_eq
  have hcalls := congrArg (List.map fun n : Node => n.call?.isSome) h
  rwa [List.map_map, List.map_map] at hcalls

theorem mem_of_unplaced {l l' : List Node}
    (h : l.map Node.unplaced = l'.map Node.unplaced) {n : Node} (hn : n ∈ l) :
    ∃ m ∈ l', n.call? = m.call? := by
  have hmem : n.unplaced ∈ l'.map Node.unplaced := h ▸ List.mem_map_of_mem hn
  obtain ⟨m, hm, heq⟩ := List.mem_map.1 hmem
  exact ⟨m, hm, by rw [← Node.call?_unplaced, ← heq, Node.call?_unplaced]⟩

/-- A forest that agrees with an accepted one up to lines is accepted as it is. -/
theorem arrange_of_unplaced {counter : Counter} {text : Text} {f : Forest Node}
    {nodes : List Node} (h : (parse counter [] (Text.lines text)).1 = .ok f)
    (hnodes : nodes.map Node.unplaced = f.walk.map Node.unplaced) :
    arrange nodes = .ok (Forest.ofList Node.indent nodes) ∧
      (Forest.ofList Node.indent nodes).map Node.unplaced = f.map Node.unplaced := by
  have hforest : (Forest.ofList Node.indent nodes).map Node.unplaced = f.map Node.unplaced := by
    have hf := eq_ofList_walk_of_parse h
    calc (Forest.ofList Node.indent nodes).map Node.unplaced
        = Forest.ofList Node.indent (nodes.map Node.unplaced) :=
          Forest.map_ofList Node.unplaced Node.indent nodes
      _ = Forest.ofList Node.indent (f.walk.map Node.unplaced) := by rw [hnodes]
      _ = (Forest.ofList Node.indent f.walk).map Node.unplaced :=
          (Forest.map_ofList Node.unplaced Node.indent f.walk).symm
      _ = f.map Node.unplaced := by rw [← hf]
  refine ⟨arrange_eq_ok_iff.2 ⟨?roots, ?groups⟩, hforest⟩
  case roots =>
    rw [List.findSome?_eq_none_iff]
    intro n hn
    have htops := congrArg Forest.tops hforest
    rw [Forest.tops_map, Forest.tops_map] at htops
    obtain ⟨m, hm, hcall⟩ := mem_of_unplaced htops hn
    rw [rootFault?_eq_none_iff, hcall, ← rootFault?_eq_none_iff]
    exact rootFault?_of_mem_tops h hm
  case groups =>
    refine (inherit_eq_self fun n hn c hc => ?_).symm
    rw [Forest.walk_ofList] at hn
    obtain ⟨m, hm, hcall⟩ := mem_of_unplaced hnodes hn
    have hlegible := legible_of_parse h m hm
    rw [hcall] at hc
    have hcanonical : (Statement.call c).Canonical :=
      Node.statement_of_call? hc ▸ hlegible.canonical
    exact ⟨hlegible.grouped c hc,
      Text.nonempty?_of_ne_some_nil fun hnil => (hcanonical.1 [] hnil).ne_nil rfl⟩

/-- The outline of the forest of a text is a text that makes the same forest. -/
theorem readsBack_of_parseLimited {counter : Counter} {text : Text} {f : Forest Node}
    (h : (parseLimited counter [] (Text.lines text)).1 = .ok f) :
    ∃ g, (parseLimited counter [] (Text.lines (outline f))).1 = .ok g ∧ ReadsBack f g := by
  obtain ⟨hwritable, hparse⟩ := parseLimited_eq_ok_iff.1 h
  have hlegible := legible_of_parse hparse
  obtain ⟨hself, hcount⟩ := number_walk_of_parse hparse
  have hscan : scan 0 (Text.lines (outline f)) = (f.walk.zipIdx.map Node.reread, none) := by
    rw [lines_outline hlegible, scan_map_line hlegible]
  have hnodes := number_reread hlegible hself
  obtain ⟨harrange, hforest⟩ := arrange_of_unplaced hparse hnodes
  have hcount' : callCount (f.walk.zipIdx.map Node.reread)
      = callCount (scan 0 (Text.lines text)).1 := by
    rw [← hcount, ← callCount_of_unplaced hnodes, callCount_number]
  have hroots : ∀ n ∈ f.tops, n.call?.isSome := fun n hn =>
    Option.isSome_iff_exists.2 (exists_call?_of_mem_tops hparse hn)
  refine ⟨Forest.ofList Node.indent (number counter (f.walk.zipIdx.map Node.reread)),
    parseLimited_eq_ok_iff.2 ⟨?writable, parse_eq_ok_iff.2 ⟨?scan, _, ?forest, rfl⟩⟩,
    hforest, ?places, outline_eq_of_unplaced hforest, ?diagram, ?drawn⟩
  case writable => rwa [hscan, hcount']
  case scan => rw [hscan]
  case forest =>
    rw [hscan]
    exact harrange
  case places =>
    rw [Forest.walk_ofList, map_number Node.place_withAlias, List.map_map]
    rfl
  case diagram => rw [diagramText, diagram_eq_of_unplaced hforest hroots, diagramText]
  case drawn =>
    intro hne
    obtain ⟨lines, hlines, -⟩ := exists_diagram hne hroots
    exact ⟨Line.document lines, by rw [diagramText, hlines]; rfl⟩

/-- A text with several line terminators, a blank line, tabs as indent, comments with marks in them,
an empty note, an alternative without one and inherited groups. -/
theorem readsBack_mixed :
    ∃ f g, (parseLimited {} [] (Text.lines
        "A#f(): x: y < p < q\n\tloop \r\n\n\t\tg() < z\n if a\n  h():\u2028 else\n")).1 = .ok f ∧
      (parseLimited {} [] (Text.lines (outline f))).1 = .ok g ∧ ReadsBack f g := by
  obtain ⟨f, hf⟩ : ∃ f, (parseLimited {} [] (Text.lines
      "A#f(): x: y < p < q\n\tloop \r\n\n\t\tg() < z\n if a\n  h():\u2028 else\n")).1 = .ok f :=
    ⟨_, by cbv⟩
  obtain ⟨g, hg, hback⟩ := readsBack_of_parseLimited hf
  exact ⟨f, g, hf, hg, hback⟩

end CallDiagram
