import CallDiagram.Proofs.Diagram.Directive
import CallDiagram.Proofs.Diagram.Unplaced
import CallDiagram.Proofs.Document.Reading
import CallDiagram.Proofs.Forest.Hanging
import CallDiagram.Proofs.Text.Pieces
import Mathlib

/-!
# Documents one behind the other

A document that goes on with another one makes the trees of both, one behind the other, if the
second begins no deeper than any line of the first.

* `Line.pieces_document` — the lines of a diagram as text;
* `DrawnTogether`, `drawnTogether_of_diagram` — one diagram with the sections of two;
* `Node.behind`, `scan_add` — nodes behind a number of lines;
* `arrange_append` — nodes that hang side by side;
* `BeginsOutside`, `parse_append`, `parseLimited_append` — the law.
-/

namespace CallDiagram

/-! ## Lines of a text -/

namespace Line

/-- The lines of a directive as text: one, unless a part of it holds a line break. -/
def pieces (l : Line) : List Text := Text.pieces '\n' l.text

/-- The lines of a document are those of its directives. -/
theorem pieces_document {lines : List Line} (h : lines ≠ []) :
    Text.pieces '\n' (document lines) = lines.flatMap pieces := by
  induction lines with
  | nil => exact absurd rfl h
  | cons l lines ih =>
    cases lines with
    | nil => simp [document, pieces]
    | cons m lines =>
      have hdocument : document (l :: m :: lines) = l.text ++ '\n' :: document (m :: lines) := by
        simp [document]
      rw [hdocument, Text.pieces_append_cons, ih (by simp), List.flatMap_cons]
      rfl

/-- Whether a directive is the heading of a section. -/
def isHeading : Line → Bool
  | .heading _ => true
  | _ => false

/-- Whether a line of text is the heading of a section. -/
def isHeadingText (t : Text) : Bool := Text.startsWith t "== "

theorem exists_pieces_heading (words : Text) :
    ∃ t more, (Line.heading words).pieces = t :: more ∧ isHeadingText t = true := by
  have hmark : '\n' ∉ ("== " : Text) := by decide
  obtain ⟨piece, more, hpieces⟩ := Text.exists_pieces_append hmark (words ++ (" ==" : Text))
  exact ⟨_, more, hpieces, rfl⟩

end Line

/-! ## Diagrams side by side -/

/-- In front of the sections there is no heading, neither among the directives nor in their text. -/
theorem not_isHeading_preamble {first : Call} (h : first.Named) {l : Line}
    (hl : l ∈ preamble first) :
    l.isHeading = false ∧ ∀ t ∈ l.pieces, Line.isHeadingText t = false := by
  obtain ⟨g, hg, hgroup, hmethod⟩ := h
  have hbreak : isNamePart '\n' = false := by decide
  have hline : (∀ t ∈ l.parts, '\n' ∉ t) ∧ l.isHeading = false ∧
      Line.isHeadingText l.text = false := by
    simp only [preamble, List.mem_cons, List.not_mem_nil, or_false] at hl
    rcases hl with rfl | rfl | rfl | rfl
    · exact ⟨by simp [Line.parts], rfl, rfl⟩
    · exact ⟨by decide, rfl, rfl⟩
    · exact ⟨by decide, rfl, rfl⟩
    · exact ⟨by simp [Line.parts, hg, Call.groupText, not_mem_of_isName hgroup hbreak,
        not_mem_of_isName hmethod hbreak], rfl, rfl⟩
  obtain ⟨hparts, hheading, htext⟩ := hline
  rw [Line.pieces, Text.pieces_of_not_mem (Line.not_mem_break_text hparts),
    List.forall_mem_singleton]
  exact ⟨hheading, htext⟩

/-- The diagram of a forest has the sections of two others. -/
structure DrawnTogether (f g whole : Forest Node) : Prop where
  /-- The directives are those of the first without the closing one, and those of the second from
  its first heading on. -/
  lines : ∃ front back, diagram f = .ok front ∧ diagram g = .ok back ∧
    front.getLast? = some .closing ∧
    diagram whole = .ok (front.dropLast ++ back.dropWhile fun l => !l.isHeading)
  /-- So are the lines of the text. -/
  text : ∃ front back picture, diagramText f = .ok front ∧ diagramText g = .ok back ∧
    diagramText whole = .ok picture ∧
    (Text.pieces '\n' front).getLast? = some ("@enduml" : Text) ∧
    Text.pieces '\n' picture
      = (Text.pieces '\n' front).dropLast
        ++ (Text.pieces '\n' back).dropWhile fun t => !Line.isHeadingText t
  /-- Each section is that of its own tree. -/
  sections : ∃ first, f.first?.bind Node.call? = some first ∧
    diagram whole
      = .ok (preamble first ++ (f.trees ++ g.trees).flatMap treeSection ++ [.closing])

theorem diagramText_eq_ok {f : Forest Node} {lines : List Line} (h : diagram f = .ok lines) :
    diagramText f = .ok (Line.document lines) := by
  rw [diagramText, h]
  rfl

/-- From its first heading on a diagram holds the sections and the closing line. -/
theorem dropWhile_preamble {first : Call} (h : first.Named) (words : Text) (rest : List Line) :
    (preamble first ++ .heading words :: rest).dropWhile (fun l => !l.isHeading)
        = .heading words :: rest ∧
      ((preamble first ++ .heading words :: rest).flatMap Line.pieces).dropWhile
          (fun t => !Line.isHeadingText t)
        = (Line.heading words :: rest).flatMap Line.pieces := by
  constructor
  · rw [List.dropWhile_append_of_pos fun l hl => by simp [(not_isHeading_preamble h hl).1]]
    simp [Line.isHeading]
  · rw [List.flatMap_append, List.dropWhile_append_of_pos]
    · obtain ⟨t, more, hpieces, ht⟩ := Line.exists_pieces_heading words
      simp [List.flatMap_cons, hpieces, ht]
    · intro t ht
      obtain ⟨l, hl, hmem⟩ := List.mem_flatMap.1 ht
      simp [(not_isHeading_preamble h hl).2 t hmem]

/-- A diagram with the preamble of another one, its sections, and those of a third. -/
theorem drawnTogether_of_diagram {f g whole : Forest Node} {first first' : Call}
    (hfirst : f.first?.bind Node.call? = some first)
    (hf : diagram f = .ok (preamble first ++ f.trees.flatMap treeSection ++ [.closing]))
    (hg : diagram g = .ok (preamble first' ++ g.trees.flatMap treeSection ++ [.closing]))
    (hwhole : diagram whole
      = .ok (preamble first ++ (f.trees ++ g.trees).flatMap treeSection ++ [.closing]))
    (hnamed : first'.Named) {words : Text} {more : List Line}
    (hsections : g.trees.flatMap treeSection = .heading words :: more) :
    DrawnTogether f g whole := by
  rw [hsections, List.append_assoc, List.cons_append] at hg
  obtain ⟨hlines, htext⟩ := dropWhile_preamble hnamed words (more ++ [.closing])
  have hwhole' : diagram whole
      = .ok ((preamble first ++ f.trees.flatMap treeSection)
        ++ .heading words :: (more ++ [.closing])) := by
    rw [hwhole, List.flatMap_append, hsections]
    simp
  have hclosing : Line.closing.pieces = [("@enduml" : Text)] := by decide
  have hfront : (preamble first ++ f.trees.flatMap treeSection
        ++ [Line.closing]).flatMap Line.pieces
      = (preamble first ++ f.trees.flatMap treeSection).flatMap Line.pieces
        ++ [("@enduml" : Text)] := by
    rw [List.flatMap_append, List.flatMap_singleton, hclosing]
  refine ⟨⟨_, _, hf, hg, List.getLast?_concat, ?lines⟩,
    ⟨_, _, _, diagramText_eq_ok hf, diagramText_eq_ok hg, diagramText_eq_ok hwhole', ?last, ?text⟩,
    first, hfirst, hwhole⟩
  case lines => rw [List.dropLast_concat, hlines, hwhole']
  case last => rw [Line.pieces_document (by simp), hfront, List.getLast?_concat]
  case text =>
    rw [Line.pieces_document (by simp), Line.pieces_document (by simp),
      Line.pieces_document (by simp), htext, hfront, List.dropLast_concat, List.flatMap_append]

/-! ## Nodes side by side -/

/-- The node of a line with more lines in front of it. -/
def Node.behind (k : Nat) (n : Node) : Node := { n with index := n.index + k }

theorem Node.behind_eq_moved (k : Nat) : Node.behind k = Node.moved fun p => (p.1 + k, p.2) := rfl

/-- Lines behind others make the same nodes, each behind as many lines more. -/
theorem scan_add (index k : Nat) (document : List Text) :
    (scan (index + k) document).1 = (scan index document).1.map (Node.behind k) := by
  induction document generalizing index with
  | nil => rfl
  | cons line rest ih =>
    have hrest : (scan (index + k + 1) rest).1 = (scan (index + 1) rest).1.map (Node.behind k) := by
      rw [Nat.add_right_comm]
      exact ih (index + 1)
    obtain hb | ⟨hb, hr⟩ | ⟨hb, r, hr⟩ := blank_or_unknown_or_read line
    · rw [scan_of_blank hb, scan_of_blank hb, hrest]
    · rw [scan_of_unknown hb hr, scan_of_unknown hb hr, List.map_nil]
    · rw [scan_of_read hb hr, scan_of_read hb hr, List.map_cons, hrest]
      simp [Node.behind]

theorem inherit_append (group : Option Text) (f g : Forest Node) :
    inherit group (f.append g) = (inherit group f).append (inherit group g) := by
  induction f with
  | nil => rfl
  | node n below after _ iha =>
    rw [Forest.node_append, inherit_node, inherit_node, iha, Forest.node_append]

theorem resolve_append (links : Links) (f g : Forest Node) :
    resolve links (f.append g) = (resolve links f).append (resolve links g) := by
  unfold resolve
  split
  · rfl
  · exact Forest.map_append _ f g

theorem arrange_behind {nodes : List Node} {f : Forest Node} (h : arrange nodes = .ok f) (k : Nat) :
    arrange (nodes.map (Node.behind k)) = .ok (f.map (Node.behind k)) := by
  obtain ⟨hroots, rfl⟩ := arrange_eq_ok_iff.1 h
  have hhang : Forest.ofList Node.indent (nodes.map (Node.behind k))
      = (Forest.ofList Node.indent nodes).map (Node.behind k) :=
    (Forest.map_ofList (Node.behind k) Node.indent nodes).symm
  rw [arrange_eq_ok_iff, hhang, Forest.tops_map, Node.behind_eq_moved, inherit_moved]
  refine ⟨?_, rfl⟩
  rw [List.findSome?_eq_none_iff] at hroots ⊢
  intro n hn
  obtain ⟨m, hm, rfl⟩ := List.mem_map.1 hn
  have hcall := rootFault?_eq_none_iff.1 (hroots m hm)
  exact rootFault?_eq_none_iff.2 hcall

/-- Nodes that hang side by side are arranged side by side. -/
theorem arrange_append {front rest : List Node} {f g : Forest Node} (hf : arrange front = .ok f)
    (hg : arrange rest = .ok g)
    (h : ∀ n ∈ front, ∀ m ∈ (Forest.ofList Node.indent rest).tops, m.indent ≤ n.indent) :
    arrange (front ++ rest) = .ok (f.append g) := by
  obtain ⟨hroots, rfl⟩ := arrange_eq_ok_iff.1 hf
  obtain ⟨hroots', rfl⟩ := arrange_eq_ok_iff.1 hg
  rw [arrange_eq_ok_iff, Forest.ofList_append h, Forest.tops_append, inherit_append,
    List.findSome?_append, hroots, hroots']
  exact ⟨rfl, rfl⟩

/-! ## Documents side by side -/

/-- The first line of the second document that is not blank has no wider margin than any such line
of the first. -/
def BeginsOutside (front rest : List Text) : Prop :=
  ∀ first, (rest.find? fun line => !Text.isBlank line) = some first →
    ∀ line ∈ front, Text.isBlank line = false → indentOf first ≤ indentOf line

/-- The first node of a document comes from the first line that is not blank. -/
theorem exists_find?_of_number {counter : Counter} {document : List Text}
    (h : (scan 0 document).2 = none) {n : Node} {nodes : List Node}
    (hn : number counter (scan 0 document).1 = n :: nodes) :
    ∃ first, (document.find? fun line => !Text.isBlank line) = some first ∧
      n.indent = indentOf first := by
  have hplace := congrArg (fun l => (l.map Node.place).head?) hn
  simp only [map_number Node.place_withAlias, map_place_scan h, List.head?_map, writtenLines,
    List.head?_filter, List.map_cons, List.head?_cons] at hplace
  obtain ⟨l, hl, heq⟩ := Option.map_eq_some_iff.1 hplace
  have hindent : (indentOf l.1 : Int) = n.indent := congrArg (fun p => p.2.2) heq
  refine ⟨l.1, ?_, hindent.symm⟩
  rw [← List.zipIdx_map_fst 0 document, List.find?_map]
  exact congrArg (Option.map Prod.fst) hl

/-- What begins outside some lines hangs beside their nodes. -/
theorem BeginsOutside.indent_le {front rest : List Text} (h : BeginsOutside front rest)
    {counter counter' : Counter} (hfront : (scan 0 front).2 = none)
    (hrest : (scan 0 rest).2 = none) :
    ∀ n ∈ number counter (scan 0 front).1,
      ∀ m ∈ (Forest.ofList Node.indent (number counter' (scan 0 rest).1)).tops,
        m.indent ≤ n.indent := by
  intro n hn m hm
  obtain ⟨l, hl, hplace⟩ := exists_writtenLine_of_mem_number hfront hn
  have hindent : n.indent = indentOf l.1 := congrArg (fun p => p.2.2) hplace
  obtain ⟨hline, hwritten⟩ := List.mem_filter.1 hl
  cases hnodes : number counter' (scan 0 rest).1 with
  | nil =>
    rw [hnodes] at hm
    simp [Forest.ofList, Forest.tops] at hm
  | cons first nodes =>
    obtain ⟨start, hstart, hfirst⟩ := exists_find?_of_number hrest hnodes
    have hle := h start hstart l.1 (List.fst_mem_of_mem_zipIdx hline) (by simpa using hwritten)
    rw [hnodes] at hm
    have hshallow := Forest.le_of_mem_tops_ofList Node.indent hm
    omega

section Known

variable {front rest : List Text} (hfront : (scan 0 front).2 = none)
  (hrest : (scan 0 rest).2 = none)

include hfront hrest

theorem scan_append_of_known :
    scan 0 (front ++ rest)
      = ((scan 0 front).1 ++ (scan 0 rest).1.map (Node.behind front.length), none) := by
  have hfailure : (scan front.length rest).2 = none :=
    scan_failure_eq_none_iff.2 (scan_failure_eq_none_iff.1 hrest)
  have hnodes := scan_add 0 front.length rest
  rw [Nat.zero_add] at hnodes
  rw [scan_append hfront, Nat.zero_add, hfailure, hnodes]

theorem callCount_scan_append :
    callCount (scan 0 (front ++ rest)).1
      = callCount (scan 0 front).1 + callCount (scan 0 rest).1 := by
  have hbehind : callCount ((scan 0 rest).1.map (Node.behind front.length))
      = callCount (scan 0 rest).1 := callCount_eq_of_map_eq (by rw [List.map_map]; rfl)
  rw [scan_append_of_known hfront hrest, callCount_append, hbehind]

end Known

/-- As far as all aliases can be written, the trees of a document that goes on with another one are
those of both. -/
theorem parse_append {counter : Counter} {links : Links} {front rest : List Text}
    {f g : Forest Node} (hf : (parse counter links front).1 = .ok f)
    (hg : (parse (counter.advance (callCount (scan 0 front).1)) links rest).1 = .ok g)
    (hmargin : BeginsOutside front rest) :
    (parse counter links (front ++ rest)).1
      = .ok (f.append (g.map (Node.behind front.length))) := by
  obtain ⟨hfront, f', hf', rfl⟩ := parse_eq_ok_iff.1 hf
  obtain ⟨hrest, g', hg', rfl⟩ := parse_eq_ok_iff.1 hg
  have hscan := scan_append_of_known hfront hrest
  rw [parse_eq_ok_iff, hscan]
  refine ⟨rfl, f'.append (g'.map (Node.behind front.length)), ?arranged, ?linked⟩
  case arranged =>
    rw [number_append, Node.behind_eq_moved, number_moved, ← Node.behind_eq_moved]
    refine arrange_append hf' (arrange_behind hg' front.length) ?_
    intro n hn m hm
    have hhang := Forest.map_ofList (Node.behind front.length) Node.indent
      (number (counter.advance (callCount (scan 0 front).1)) (scan 0 rest).1)
    rw [← hhang, Forest.tops_map] at hm
    obtain ⟨b, hb, rfl⟩ := List.mem_map.1 hm
    exact hmargin.indent_le hfront hrest n hn b hb
  case linked => rw [resolve_append, Node.behind_eq_moved, resolve_moved]

theorem heading_of_parse {counter : Counter} {links : Links} {document : List Text}
    {f : Forest Node} (h : (parse counter links document).1 = .ok f) (hne : f ≠ .nil) :
    ∃ words more, f.trees.flatMap treeSection = .heading words :: more := by
  cases f with
  | nil => exact absurd rfl hne
  | node n below after =>
    obtain ⟨c, hc⟩ := exists_call?_of_mem_tops h (n := n) List.mem_cons_self
    have hsection := treeSection_of_call (t := (n, below)) hc
    exact ⟨headingOf c, _, by rw [Forest.trees, List.flatMap_cons, hsection, List.cons_append]⟩

/-- Two documents that go on as one are drawn together. -/
theorem drawnTogether_of_parse {counter counter' : Counter} {links : Links}
    {front rest : List Text} {f g : Forest Node} (hf : (parse counter links front).1 = .ok f)
    (hg : (parse counter' links rest).1 = .ok g) (hne : f ≠ .nil) (hne' : g ≠ .nil) (k : Nat) :
    DrawnTogether f g (f.append (g.map (Node.behind k))) := by
  obtain ⟨first, -, hfirst, hdiagram⟩ := exists_diagram_of_parse hf hne
  obtain ⟨first', hmem, -, hdiagram'⟩ := exists_diagram_of_parse hg hne'
  obtain ⟨words, more, hsections⟩ := heading_of_parse hg hne'
  have hnamed := (distinct_of_parse hg).named first' hmem
  refine drawnTogether_of_diagram hfirst hdiagram hdiagram' ?_ hnamed hsections
  have hfirst' : (f.append (g.map (Node.behind k))).first?.bind Node.call? = some first := by
    cases f with
    | nil => exact absurd rfl hne
    | node n below after => exact hfirst
  have htops : ∀ n ∈ (f.append (g.map (Node.behind k))).tops, n.call?.isSome := by
    intro n hn
    rw [Forest.tops_append, Forest.tops_map, List.mem_append] at hn
    rcases hn with hn | hn
    · exact Option.isSome_iff_exists.2 (exists_call?_of_mem_tops hf hn)
    · obtain ⟨m, hm, rfl⟩ := List.mem_map.1 hn
      have hcall := exists_call?_of_mem_tops hg hm
      exact Option.isSome_iff_exists.2 hcall
  have hbehind : (g.map (Node.behind k)).trees.flatMap treeSection
      = g.trees.flatMap treeSection := by
    rw [Node.behind_eq_moved, Forest.trees_map, List.flatMap_map]
    simp only [treeSection_moved]
  rw [diagram_eq_ok hfirst' htops, Forest.trees_append, List.flatMap_append, List.flatMap_append,
    hbehind]

/-- Two documents, the second with the counter that the first leaves, make the trees of both if the
second begins outside the first. -/
theorem parseLimited_append {counter behind after : Counter} {links : Links}
    {front rest : List Text} {f g : Forest Node}
    (hfront : parseLimited counter links front = (.ok f, behind))
    (hrest : parseLimited behind links rest = (.ok g, after))
    (hmargin : BeginsOutside front rest) :
    ∃ whole, parseLimited counter links (front ++ rest) = (.ok whole, after) ∧
      whole.trees = f.trees ++ (g.map (Node.behind front.length)).trees ∧
      (f ≠ .nil → g ≠ .nil → DrawnTogether f g whole) := by
  obtain ⟨hwritable, hf⟩ := parseLimited_eq_ok_iff.1 (congrArg Prod.fst hfront)
  obtain ⟨hwritable', hg⟩ := parseLimited_eq_ok_iff.1 (congrArg Prod.fst hrest)
  have hbehind : behind = counter.advance (callCount (scan 0 front).1) :=
    (congrArg Prod.snd hfront).symm.trans (parseLimited_snd_of_writable hwritable links)
  have hafter : after = behind.advance (callCount (scan 0 rest).1) :=
    (congrArg Prod.snd hrest).symm.trans (parseLimited_snd_of_writable hwritable' links)
  have hcount := callCount_scan_append (parse_eq_ok_iff.1 hf).1 (parse_eq_ok_iff.1 hg).1
  rw [hbehind] at hwritable' hg hafter
  have hall : ∀ k < callCount (scan 0 (front ++ rest)).1,
      Number.isWritable (counter.next + k) = true := by
    rw [hcount]
    exact isWritable_of_advance hwritable hwritable'
  have hwhole := parse_append hf hg hmargin
  refine ⟨_, Prod.ext (parseLimited_eq_ok_iff.2 ⟨hall, hwhole⟩) ?counter,
    Forest.trees_append _ _, fun hne hne' => drawnTogether_of_parse hf hg hne hne' _⟩
  case counter =>
    show (parseLimited counter links (front ++ rest)).2 = after
    rw [parseLimited_snd_of_writable hall, hcount, hafter, Counter.advance_advance]

/-- A document of two trees behind one whose last line lies deep, with a blank line in front. -/
theorem parseLimited_append_deep :
    ∃ f g, parseLimited {} [] ["  A#f()", "    loop x", "      g(): go"] = (.ok f, ⟨['C'], 3⟩) ∧
      parseLimited ⟨['C'], 3⟩ [] ["", "  B#h(): one", " A#f()", "   k()"] = (.ok g, ⟨['C'], 6⟩) ∧
      BeginsOutside ["  A#f()", "    loop x", "      g(): go"]
        ["", "  B#h(): one", " A#f()", "   k()"] ∧
      ∃ whole, parseLimited {} [] ["  A#f()", "    loop x", "      g(): go", "", "  B#h(): one",
          " A#f()", "   k()"] = (.ok whole, ⟨['C'], 6⟩) ∧
        whole.trees = f.trees ++ (g.map (Node.behind 3)).trees ∧ DrawnTogether f g whole := by
  obtain ⟨f, hf, hne⟩ : ∃ f, parseLimited {} [] ["  A#f()", "    loop x", "      g(): go"]
      = (.ok f, ⟨['C'], 3⟩) ∧ f ≠ .nil := ⟨_, by cbv, by simp⟩
  obtain ⟨g, hg, hne'⟩ : ∃ g, parseLimited ⟨['C'], 3⟩ []
      ["", "  B#h(): one", " A#f()", "   k()"] = (.ok g, ⟨['C'], 6⟩) ∧ g ≠ .nil :=
    ⟨_, by cbv, by simp⟩
  have hmargin : BeginsOutside ["  A#f()", "    loop x", "      g(): go"]
      ["", "  B#h(): one", " A#f()", "   k()"] := by
    intro first hfirst
    obtain rfl := Option.some.inj hfirst
    decide
  obtain ⟨whole, hwhole, htrees, hdrawn⟩ := parseLimited_append hf hg hmargin
  exact ⟨f, g, hf, hg, hmargin, whole, hwhole, htrees, hdrawn hne hne'⟩

end CallDiagram
