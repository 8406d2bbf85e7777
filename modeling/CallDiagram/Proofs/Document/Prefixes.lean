import CallDiagram.Proofs.Document.Composition
import CallDiagram.Proofs.Document.Groups
import CallDiagram.Proofs.Document.Indentation

/-!
# Documents that go on

What stands further down changes nothing of what stands above it.

* `exists_ancestries_eq_map`, `ancestries_front` — the nodes of a forest, each with those above
  it, are made one by one from the nodes in front;
* `arrange_of_append_eq_ok`, `arrange_of_append_eq_error` — the first level is in order, or wrong,
  as far as it goes;
* `Continues`, `continues_of_ancestries` — a forest whose document goes on;
* `PrefixLaw`, `prefixLaw` — every document and what it goes on with.
-/

namespace CallDiagram

/-! ## Nodes that go on -/

theorem ancestries_map_inherit (h : Node → Node) (f : Forest Node) :
    ((inherit none f).map h).ancestries
      = f.ancestries.map fun e => (h (settled e.1 e.2), (settleChain e.2).map h) := by
  rw [Forest.ancestries_map, ancestries_inherit, List.map_map]
  rfl

/-- Inheriting and linking work on each node with those above it, by itself. -/
theorem exists_ancestries_eq_map (links : Links) :
    ∃ finished : Node × List Node → Node × List Node, ∀ f : Forest Node,
      (resolve links (inherit none f)).ancestries = f.ancestries.map finished := by
  unfold resolve
  split
  · exact ⟨_, ancestries_inherit⟩
  · exact ⟨_, ancestries_map_inherit _⟩

/-- More nodes leave the nodes in front as they are, with all that lies above them. -/
theorem ancestries_front (links : Links) (front rest : List Node) :
    (resolve links (inherit none (Forest.ofList Node.indent front))).ancestries
      <+: (resolve links (inherit none (Forest.ofList Node.indent (front ++ rest)))).ancestries := by
  obtain ⟨finished, hfinished⟩ := exists_ancestries_eq_map links
  rw [hfinished, hfinished, Forest.ancestries_ofList, Forest.ancestries_ofList,
    Forest.chained_append, List.map_append]
  exact List.prefix_append _ _

section Arrange

variable {front rest : List Node}

/-- The first level of the nodes in front is in order if that of all nodes is. -/
theorem arrange_of_append_eq_ok {f : Forest Node} (h : arrange (front ++ rest) = .ok f) :
    arrange front = .ok (inherit none (Forest.ofList Node.indent front)) := by
  have hroots := (arrange_eq_ok_iff.1 h).1
  rw [← findSome?_topFault?, Forest.chained_append, List.findSome?_append,
    Option.or_eq_none_iff, findSome?_topFault?] at hroots
  exact arrange_eq_ok_iff.2 ⟨hroots.1, rfl⟩

/-- The first fault at the first level is that of the nodes in front, or one of the others is to
blame. -/
theorem arrange_of_append_eq_error {e : ParseError} (h : arrange (front ++ rest) = .error e) :
    arrange front = .error e ∨
      arrange front = .ok (inherit none (Forest.ofList Node.indent front)) ∧
        ∃ n ∈ rest, e.index = n.index := by
  have hroots := arrange_eq_error_iff.1 h
  rw [← findSome?_topFault?, Forest.chained_append, List.findSome?_append] at hroots
  rcases Option.or_eq_some_iff.1 hroots with hfront | ⟨hfront, hrest⟩
  · rw [findSome?_topFault?] at hfront
    exact Or.inl (arrange_eq_error_iff.2 hfront)
  · rw [findSome?_topFault?] at hfront
    obtain ⟨a, ha, hfault⟩ := List.exists_of_findSome?_eq_some hrest
    refine Or.inr ⟨arrange_eq_ok_iff.2 ⟨hfront, rfl⟩, a.1, ?_, (place_of_topFault? hfault).1⟩
    rw [← Forest.map_fst_chained Node.indent (front.reverse ++ []) rest]
    exact List.mem_map_of_mem ha

end Arrange

/-! ## Documents that go on -/

section Front

variable {front rest : List Text} (h : (scan 0 (front ++ rest)).2 = none)

include h

theorem scan_failure_front : (scan 0 front).2 = none := by
  rw [scan_failure_eq_none_iff] at h ⊢
  intro line hline
  exact h line (List.mem_append_left rest hline)

/-- The numbered nodes of a document are those of its beginning and others from further down. -/
theorem exists_number_append (counter : Counter) :
    ∃ more, number counter (scan 0 (front ++ rest)).1
        = number counter (scan 0 front).1 ++ more ∧
      ∀ n ∈ more, (front.length : Int) ≤ n.index := by
  have hrest : (scan 0 rest).2 = none := by
    rw [scan_failure_eq_none_iff] at h ⊢
    intro line hline
    exact h line (List.mem_append_right front hline)
  rw [scan_append_of_known (scan_failure_front h) hrest, number_append]
  refine ⟨_, rfl, ?_⟩
  intro n hn
  rw [Node.behind_eq_moved, number_moved] at hn
  obtain ⟨m, hm, rfl⟩ := List.mem_map.1 hn
  obtain ⟨l, -, hplace⟩ := exists_writtenLine_of_mem_number hrest hm
  have hindex : m.index = l.2 := congrArg Prod.fst hplace
  show (front.length : Int) ≤ m.index + front.length
  omega

theorem callCount_front_le :
    callCount (scan 0 front).1 ≤ callCount (scan 0 (front ++ rest)).1 := by
  rw [scan_append (scan_failure_front h), callCount_append]
  omega

end Front

/-- The forest of a document that goes on: its nodes are the first nodes of the whole, and so are
their lines. -/
structure Continues (front : List Text) (f whole : Forest Node) : Prop where
  /-- The nodes are the first ones, with the same parents and the same calls above them. -/
  lineages : lineages f <+: lineages whole
  /-- There is one for each line that is not blank. -/
  length : (CallDiagram.lineages f).length = (writtenLines front).length
  /-- The outline is the beginning of the outline. -/
  outline : outline f <+: outline whole
  /-- Nothing is in its way that is not in the way of the whole. -/
  drawn : outlineFault? whole = none → outlineFault? f = none

theorem continues_of_ancestries {front : List Text} {f whole : Forest Node}
    (h : f.ancestries <+: whole.ancestries)
    (hlength : f.walk.length = (writtenLines front).length) : Continues front f whole := by
  have hwalk : f.walk <+: whole.walk := by
    rw [← Forest.map_fst_ancestries f, ← Forest.map_fst_ancestries whole]
    exact h.map Prod.fst
  refine ⟨?lineages, ?length, ?outline, ?drawn⟩
  case lineages =>
    rw [lineages_eq_map, lineages_eq_map]
    exact h.map Lineage.ofAncestry
  case length => rw [← hlength, ← map_node_lineages, List.length_map]
  case outline =>
    obtain ⟨more, hmore⟩ := hwalk
    rw [outline, outline, ← hmore, List.flatMap_append]
    exact List.prefix_append _ _
  case drawn =>
    simp only [outlineFault?, List.findSome?_eq_none_iff]
    intro hwhole n hn
    exact hwhole n (hwalk.subset hn)

theorem length_walk_of_scan {document : List Text} (h : (scan 0 document).2 = none)
    (counter : Counter) (links : Links) :
    (resolve links (inherit none (Forest.ofList Node.indent
      (number counter (scan 0 document).1)))).walk.length = (writtenLines document).length := by
  have hplace := congrArg (fun f => f.walk.length)
    ((map_place_resolve links _).trans (map_place_inherit none (Forest.ofList Node.indent
      (number counter (scan 0 document).1))))
  have hnodes := congrArg List.length (map_number Node.place_withAlias counter (scan 0 document).1)
  have hscan := congrArg List.length (map_place_scan h)
  simp only [Forest.walk_map, List.length_map, Forest.walk_ofList] at hplace hnodes hscan
  rw [hplace, hnodes, hscan]

/-- The law of documents that go on. -/
structure PrefixLaw (counter : Counter) (links : Links) (front rest : List Text) : Prop where
  /-- If the whole makes a forest, so does its beginning, and its nodes are the first ones. -/
  accepted : ∀ whole, (parseLimited counter links (front ++ rest)).1 = .ok whole →
    ∃ f, (parseLimited counter links front).1 = .ok f ∧ Continues front f whole
  /-- If the whole is refused for the first level, so is every beginning that holds the line. -/
  refused : ∀ e, (parseLimited counter links (front ++ rest)).1 = .error (.line e) →
    e.complaint = .rootNotComponent ∨ e.complaint = .rootWithoutGroup →
    e.lineNumber ≤ front.length → (parseLimited counter links front).1 = .error (.line e)
  /-- Every shorter beginning makes a forest. -/
  shorter : ∀ e, (parseLimited counter links (front ++ rest)).1 = .error (.line e) →
    e.complaint = .rootNotComponent ∨ e.complaint = .rootWithoutGroup →
    front.length < e.lineNumber → ∃ f, (parseLimited counter links front).1 = .ok f

theorem index_lt_of_arrange {counter : Counter} {document : List Text} {e : ParseError}
    (h : (scan 0 document).2 = none)
    (harrange : arrange (number counter (scan 0 document).1) = .error e) :
    e.index < document.length := by
  obtain ⟨n, hn, hfault⟩ := List.exists_of_findSome?_eq_some (arrange_eq_error_iff.1 harrange)
  have hmem := Forest.mem_walk_of_mem_tops hn
  rw [Forest.walk_ofList] at hmem
  obtain ⟨l, hl, hplace⟩ := exists_writtenLine_of_mem_number h hmem
  have hindex : n.index = l.2 := congrArg Prod.fst hplace
  have hlength := List.snd_lt_of_mem_zipIdx (List.mem_filter.1 hl).1
  rw [(place_of_rootFault? hfault).1]
  omega

/-- A beginning of a document that is refused for its first level is refused at the same line, if it
holds that line, and makes a forest otherwise. -/
theorem parseLimited_front_of_refused {counter : Counter} {links : Links} {front rest : List Text}
    {e : ParseError} (h : (parseLimited counter links (front ++ rest)).1 = .error (.line e))
    (hcomplaint : e.complaint ≠ .unknownStatement) :
    (parseLimited counter links front).1 = .error (.line e) ∧ e.lineNumber ≤ front.length ∨
      (∃ f, (parseLimited counter links front).1 = .ok f) ∧ front.length < e.lineNumber := by
  obtain ⟨hwritable, hparse⟩ := parseLimited_eq_error_line_iff.1 h
  rcases parse_eq_error_iff.1 hparse with hscan | ⟨hscan, harrange⟩
  · exact absurd (complaint_of_scan_failure hscan) hcomplaint
  have hfront := scan_failure_front hscan
  have hle := callCount_front_le hscan
  have hwritable' : ∀ k < callCount (scan 0 front).1,
      Number.isWritable (counter.next + k) = true := fun k hk => hwritable k (by omega)
  obtain ⟨more, hnumber, hmore⟩ := exists_number_append hscan counter
  rw [hnumber] at harrange
  rw [ParseError.lineNumber]
  rcases arrange_of_append_eq_error harrange with herror | ⟨hok, n, hn, hindex⟩
  · have hlt := index_lt_of_arrange hfront herror
    exact Or.inl ⟨parseLimited_eq_error_line_iff.2
      ⟨hwritable', parse_eq_error_iff.2 (Or.inr ⟨hfront, herror⟩)⟩, by omega⟩
  · have hge := hmore n hn
    exact Or.inr ⟨⟨_, parseLimited_eq_ok_iff.2
      ⟨hwritable', parse_eq_ok_iff.2 ⟨hfront, _, hok, rfl⟩⟩⟩, by omega⟩

/-- What is further down changes nothing of what is above it. -/
theorem prefixLaw (counter : Counter) (links : Links) (front rest : List Text) :
    PrefixLaw counter links front rest := by
  have hknown : ∀ {e : ParseError},
      e.complaint = .rootNotComponent ∨ e.complaint = .rootWithoutGroup →
      e.complaint ≠ .unknownStatement := by
    rintro e (hcomplaint | hcomplaint) <;> simp [hcomplaint]
  refine ⟨?accepted, ?refused, ?shorter⟩
  case accepted =>
    intro whole hwhole
    obtain ⟨hwritable, hparse⟩ := parseLimited_eq_ok_iff.1 hwhole
    obtain ⟨hscan, g, harrange, rfl⟩ := parse_eq_ok_iff.1 hparse
    have hfront := scan_failure_front hscan
    have hle := callCount_front_le hscan
    obtain ⟨more, hnumber, -⟩ := exists_number_append hscan counter
    rw [hnumber] at harrange
    have hok := arrange_of_append_eq_ok harrange
    obtain ⟨-, rfl⟩ := arrange_eq_ok_iff.1 harrange
    exact ⟨_, parseLimited_eq_ok_iff.2 ⟨fun k hk => hwritable k (by omega),
        parse_eq_ok_iff.2 ⟨hfront, _, hok, rfl⟩⟩,
      continues_of_ancestries (ancestries_front links _ more)
        (length_walk_of_scan hfront counter links)⟩
  case refused =>
    intro e he hcomplaint hline
    rcases parseLimited_front_of_refused he (hknown hcomplaint) with ⟨herror, -⟩ | ⟨-, hlt⟩
    · exact herror
    · omega
  case shorter =>
    intro e he hcomplaint hline
    rcases parseLimited_front_of_refused he (hknown hcomplaint) with ⟨-, hle⟩ | ⟨hok, -⟩
    · omega
    · exact hok

/-- A document that is cut inside a loop, and one that is refused at its third line. -/
theorem prefixLaw_cut :
    (∃ whole f, (parseLimited {} [] ["A#f()", "  loop x", "", "    g(): go"]).1 = .ok whole ∧
      (parseLimited {} [] ["A#f()", "  loop x"]).1 = .ok f ∧
      Continues ["A#f()", "  loop x"] f whole) ∧
    ∃ e, (parseLimited {} [] ["A#f()", " g()", "h()", "B#k()"]).1 = .error (.line e) ∧
      e.lineNumber = 3 ∧ (parseLimited {} [] ["A#f()", " g()", "h()"]).1 = .error (.line e) ∧
      ∃ f, (parseLimited {} [] ["A#f()", " g()"]).1 = .ok f := by
  constructor
  · obtain ⟨whole, hwhole⟩ : ∃ whole, (parseLimited {} []
        ["A#f()", "  loop x", "", "    g(): go"]).1 = .ok whole := ⟨_, by cbv⟩
    obtain ⟨f, hf, hcontinues⟩ :=
      (prefixLaw {} [] ["A#f()", "  loop x"] ["", "    g(): go"]).accepted whole hwhole
    exact ⟨whole, f, hwhole, hf, hcontinues⟩
  · have he : (parseLimited {} [] ["A#f()", " g()", "h()", "B#k()"]).1
        = .error (.line ⟨.rootWithoutGroup, 2, "h()"⟩) := by cbv
    exact ⟨_, he, rfl,
      (prefixLaw {} [] ["A#f()", " g()", "h()"] ["B#k()"]).refused _ he (Or.inr rfl) (by decide),
      (prefixLaw {} [] ["A#f()", " g()"] ["h()", "B#k()"]).shorter _ he (Or.inr rfl) (by decide)⟩

end CallDiagram
