import CallDiagram.Proofs.Diagram.Unplaced
import CallDiagram.Proofs.Document.Groups
import Mathlib

/-!
# Layout

The widths of margins count only in comparison with one another, and blank lines do not count.

* `Relaid` — a document with other margins and other blank lines;
* `map_scan_of_relaid` — it has the same nodes, at margins of the new widths;
* `map_ofList_respaced` — which hang as before;
* `SameOutcome`, `sameOutcome_of_relaid` — it makes the same forest, or is refused for the same
  reason at the corresponding line.
-/

namespace CallDiagram

/-! ## Other margins -/

/-- The second document has the lines of the first at margins whose widths depend on the old ones,
with blank lines put in and left out. -/
inductive Relaid (width : Nat → Nat) : List Text → List Text → Prop where
  | nil : Relaid width [] []
  /-- A blank line is put in. -/
  | insert {blank : Text} {document other : List Text} : Text.isBlank blank = true →
      Relaid width document other → Relaid width document (blank :: other)
  /-- A blank line is left out. -/
  | delete {blank : Text} {document other : List Text} : Text.isBlank blank = true →
      Relaid width document other → Relaid width (blank :: document) other
  /-- The blanks in front of a line are replaced by blanks of any kind. -/
  | line {margin margin' : Text} {c : Char} {body : Text} {document other : List Text} :
      Text.isBlank margin = true → Text.isBlank margin' = true →
      margin'.length = width margin.length → isBlank c = false → Relaid width document other →
      Relaid width ((margin ++ c :: body) :: document) ((margin' ++ c :: body) :: other)

/-- A place without the number of its line, without its margin, and at another width. -/
def respaced (width : Nat → Nat) (p : Int × Text × Int) : Int × Text × Int :=
  (0, Text.trimStart p.2.1, (width p.2.2.toNat : Int))

section Margin

variable {margin : Text} {c : Char} {body : Text}

theorem trimStart_margin (hm : Text.isBlank margin = true) (hc : isBlank c = false) :
    Text.trimStart (margin ++ c :: body) = c :: body := by
  rw [Text.trimStart_append_of_blank hm, Text.trimStart_cons_of_not_blank hc]

theorem indentOf_margin (hm : Text.isBlank margin = true) (hc : isBlank c = false) :
    indentOf (margin ++ c :: body) = margin.length := by
  rw [indentOf, List.takeWhile_append_of_pos (by simpa [Text.isBlank] using hm)]
  simp [hc]

theorem isBlank_margin (hc : isBlank c = false) : Text.isBlank (margin ++ c :: body) = false := by
  simp [Text.isBlank, hc]

theorem read?_margin (hm : Text.isBlank margin = true) (hc : isBlank c = false) :
    Statement.read? (margin ++ c :: body)
      = (Statement.ofBody? (c :: body)).map fun s => (margin.length, s) := by
  rw [Statement.read?, trimStart_margin hm hc, indentOf_margin hm hc]

end Margin

/-- With other margins and blank lines the lines make the same nodes, at the new widths, up to the
same unknown line. -/
theorem map_scan_of_relaid {width : Nat → Nat} {document other : List Text}
    (h : Relaid width document other) (index index' : Nat) :
    (scan index document).1.map (Node.moved (respaced width))
        = (scan index' other).1.map (Node.moved (respaced id)) ∧
      (scan index document).2.isSome = (scan index' other).2.isSome := by
  induction h generalizing index index' with
  | nil => exact ⟨rfl, rfl⟩
  | insert hblank _ ih =>
    rw [scan_of_blank hblank]
    exact ih index (index' + 1)
  | delete hblank _ ih =>
    rw [scan_of_blank hblank]
    exact ih (index + 1) index'
  | @line margin margin' c body document other hm hm' hwidth hc _ ih =>
    have hb : Text.isBlank (margin ++ c :: body) = false := isBlank_margin hc
    have hb' : Text.isBlank (margin' ++ c :: body) = false := isBlank_margin hc
    have hr : Statement.read? (margin ++ c :: body) = _ := read?_margin hm hc
    have hr' : Statement.read? (margin' ++ c :: body) = _ := read?_margin hm' hc
    cases hs : Statement.ofBody? (c :: body) with
    | none =>
      rw [hs, Option.map_none] at hr hr'
      rw [scan_of_unknown hb hr, scan_of_unknown hb' hr']
      exact ⟨rfl, rfl⟩
    | some s =>
      rw [hs, Option.map_some] at hr hr'
      obtain ⟨hnodes, hfailure⟩ := ih (index + 1) (index' + 1)
      rw [scan_of_read hb hr, scan_of_read hb' hr', List.map_cons, List.map_cons, hnodes]
      refine ⟨?_, hfailure⟩
      simp [Node.moved, Node.place, respaced, trimStart_margin hm hc, trimStart_margin hm' hc,
        hwidth]

/-! ## Hanging -/

theorem indent_nonneg_of_mem_scan {index : Nat} {document : List Text} {n : Node}
    (hn : n ∈ (scan index document).1) : 0 ≤ n.indent := by
  rw [scan_nodes] at hn
  obtain ⟨l, -, hl⟩ := List.mem_filterMap.1 hn
  unfold nodeOfLine? at hl
  split at hl
  · simp at hl
  · obtain ⟨r, -, rfl⟩ := Option.map_eq_some_iff.1 hl
    simp

theorem indent_nonneg_of_mem_number {counter : Counter} {index : Nat} {document : List Text}
    {n : Node} (hn : n ∈ number counter (scan index document).1) : 0 ≤ n.indent := by
  have hplace := List.mem_map_of_mem (f := Node.place) hn
  rw [map_number Node.place_withAlias] at hplace
  obtain ⟨m, hm, heq⟩ := List.mem_map.1 hplace
  have hindent : m.indent = n.indent := congrArg (fun p => p.2.2) heq
  rw [← hindent]
  exact indent_nonneg_of_mem_scan hm

/-- Widths that keep their order keep the forest. -/
theorem map_ofList_respaced {width : Nat → Nat} (hwidth : StrictMono width) {nodes : List Node}
    (h : ∀ n ∈ nodes, 0 ≤ n.indent) :
    (Forest.ofList Node.indent nodes).map (Node.moved (respaced width))
      = Forest.ofList Node.indent (nodes.map (Node.moved (respaced width))) := by
  rw [← Forest.map_ofList]
  refine congrArg _ (Forest.ofList_congr ?_)
  intro a ha b hb
  have hpos := h a ha
  have hpos' := h b hb
  have horder : width a.indent.toNat < width b.indent.toNat ↔ a.indent.toNat < b.indent.toNat :=
    hwidth.lt_iff_lt
  show a.indent < b.indent ↔ (width a.indent.toNat : Int) < width b.indent.toNat
  omega

/-! ## What is left of a layout -/

/-- The node without the number of its line and without its margin. -/
def Node.unlaid (n : Node) : Node :=
  { n with index := 0, source := Text.trimStart n.source, indent := 0 }

theorem Node.unlaid_respaced (width : Nat → Nat) (n : Node) :
    (n.moved (respaced width)).unlaid = n.unlaid := by
  simp [Node.unlaid, Node.moved, Node.place, respaced, Text.trimStart_idem]

/-- The refusal stands at the line with a given number among the lines that are not blank, counted
from zero. -/
def StandsAt (document : List Text) (k : Nat) (e : ParseError) : Prop :=
  ∃ index : Nat, (writtenLines document)[k]? = some (e.content, index) ∧ e.index = index

/-- Two documents come to the same end. -/
inductive SameOutcome (document other : List Text) :
    Except DocumentError (Forest Node) → Except DocumentError (Forest Node) → Prop where
  /-- They make forests that are equal but for margins and line numbers, and have one diagram. -/
  | forest {f g : Forest Node} : f.map Node.unlaid = g.map Node.unlaid →
      diagramText f = diagramText g → SameOutcome document other (.ok f) (.ok g)
  /-- They are refused with one complaint, at corresponding lines. -/
  | refused {e e' : ParseError} (k : Nat) : e.complaint = e'.complaint → StandsAt document k e →
      StandsAt other k e' → SameOutcome document other (.error (.line e)) (.error (.line e'))
  /-- The number of an alias is too long in both. -/
  | number (e : Number.WritingError) :
      SameOutcome document other (.error (.number e)) (.error (.number e))

/-! ## Corresponding refusals -/

/-- Lists whose entries are answered alike have no answer, or their first answers at one
position. -/
theorem findSome?_alike {α β κ : Type} {g : α → Option β} {key : β → κ} {l l' : List α}
    (h : l.map (fun a => (g a).map key) = l'.map fun a => (g a).map key) :
    (l.findSome? g = none ∧ l'.findSome? g = none) ∨
      ∃ (k : Nat) (a a' : α) (b b' : β), l[k]? = some a ∧ l'[k]? = some a' ∧
        g a = some b ∧ g a' = some b' ∧ key b = key b' ∧
        l.findSome? g = some b ∧ l'.findSome? g = some b' := by
  induction l generalizing l' with
  | nil =>
    obtain rfl := List.map_eq_nil_iff.1 h.symm
    exact Or.inl ⟨rfl, rfl⟩
  | cons a l ih =>
    cases l' with
    | nil => simp at h
    | cons a' l' =>
      have hhead : (g a).map key = (g a').map key := (List.cons.inj h).1
      have htail := (List.cons.inj h).2
      cases hg : g a with
      | some b =>
        rw [hg, Option.map_some] at hhead
        obtain ⟨b', hg', hkey⟩ := Option.map_eq_some_iff.1 hhead.symm
        exact Or.inr ⟨0, a, a', b, b', rfl, rfl, hg, hg', hkey.symm, by simp [hg], by simp [hg']⟩
      | none =>
        rw [hg, Option.map_none] at hhead
        have hg' : g a' = none := Option.map_eq_none_iff.1 hhead.symm
        rcases ih htail with ⟨hnone, hnone'⟩ | ⟨k, c, c', b, b', hc, hc', hb, hb', hkey, hl, hl'⟩
        · exact Or.inl ⟨by simp [hg, hnone], by simp [hg', hnone']⟩
        · exact Or.inr ⟨k + 1, c, c', b, b', hc, hc', hb, hb', hkey, by simp [hg, hl],
            by simp [hg', hl']⟩

/-- The complaint about a node with those above it does not look at places. -/
theorem complaint_topFault?_moved (m : Int × Text × Int → Int × Text × Int)
    (e : Node × List Node) :
    (topFault? (e.1.moved m, e.2.map (Node.moved m))).map ParseError.complaint
      = (topFault? e).map ParseError.complaint := by
  obtain ⟨n, above⟩ := e
  cases above with
  | cons a above => rfl
  | nil =>
    show (rootFault? (n.moved m)).map _ = (rootFault? n).map _
    rw [rootFault?_eq_map, rootFault?_eq_map, Option.map_map, Option.map_map]
    rfl

theorem map_complaint_ancestries_moved (m : Int × Text × Int → Int × Text × Int)
    (f : Forest Node) :
    (f.map (Node.moved m)).ancestries.map (fun e => (topFault? e).map ParseError.complaint)
      = f.ancestries.map fun e => (topFault? e).map ParseError.complaint := by
  rw [Forest.ancestries_map, List.map_map]
  exact List.map_congr_left fun e _ => complaint_topFault?_moved m e

/-- The refusal of an unknown line stands behind the lines that made nodes. -/
theorem exists_getElem?_of_scan_failure {index : Nat} {document : List Text} {e : ParseError}
    (h : (scan index document).2 = some e) :
    ∃ i : Nat, ((document.zipIdx index).filter fun l => !Text.isBlank l.1)[
        (scan index document).1.length]? = some (e.content, i) ∧ e.index = i := by
  induction document generalizing index with
  | nil => simp [scan] at h
  | cons line rest ih =>
    obtain hb | ⟨hb, hr⟩ | ⟨hb, r, hr⟩ := blank_or_unknown_or_read line
    · rw [scan_of_blank hb] at h ⊢
      simpa [hb] using ih h
    · rw [scan_of_unknown hb hr] at h ⊢
      obtain rfl := Option.some.inj h
      exact ⟨index, by simp [hb], rfl⟩
    · rw [scan_of_read hb hr] at h ⊢
      simpa [hb] using ih h

theorem standsAt_of_scan_failure {document : List Text} {e : ParseError}
    (h : (scan 0 document).2 = some e) : StandsAt document (scan 0 document).1.length e :=
  exists_getElem?_of_scan_failure h

/-- The refusal of a node of the first level stands at the line of the node. -/
theorem standsAt_of_topFault? {counter : Counter} {document : List Text}
    (h : (scan 0 document).2 = none) {k : Nat} {a : Node × List Node} {e : ParseError}
    (ha : (Forest.chained Node.indent [] (number counter (scan 0 document).1))[k]? = some a)
    (he : topFault? a = some e) : StandsAt document k e := by
  have hn : (number counter (scan 0 document).1)[k]? = some a.1 := by
    rw [← Forest.map_fst_chained Node.indent [] (number counter (scan 0 document).1),
      List.getElem?_map, ha, Option.map_some]
  obtain ⟨hindex', hcontent⟩ := place_of_topFault? he
  have hplaces : (number counter (scan 0 document).1).map Node.place
      = (writtenLines document).map fun l => ((l.2 : Int), l.1, (indentOf l.1 : Int)) := by
    rw [map_number Node.place_withAlias, map_place_scan h]
  have hplace := congrArg (fun l => l[k]?) hplaces
  simp only [List.getElem?_map, hn, Option.map_some] at hplace
  obtain ⟨l, hl, heq⟩ := Option.map_eq_some_iff.1 hplace.symm
  simp only [Node.place, Prod.mk.injEq] at heq
  obtain ⟨hindex, hsource, -⟩ := heq
  exact ⟨l.2, by rw [hl, hcontent, ← hsource], by rw [hindex', ← hindex]⟩

/-! ## The law -/

/-- Forests that agree but for places agree but for places when they are finished. -/
theorem map_unlaid_finish {width width' : Nat → Nat} {f g : Forest Node}
    (h : f.map (Node.moved (respaced width)) = g.map (Node.moved (respaced width')))
    (links : Links) :
    (resolve links (inherit none f)).map Node.unlaid
      = (resolve links (inherit none g)).map Node.unlaid := by
  have hfinish := congrArg (fun t => (resolve links (inherit none t)).map Node.unlaid) h
  simpa only [inherit_moved, resolve_moved, Forest.map_map, Function.comp_def,
    Node.unlaid_respaced] using hfinish

/-- The diagram of a document does not look at its layout. -/
theorem diagramText_unlaid {counter : Counter} {links : Links} {document : List Text}
    {f : Forest Node} (h : (parse counter links document).1 = .ok f) :
    diagramText (f.map Node.unlaid) = diagramText f := by
  have htops : ∀ n ∈ f.tops, n.call?.isSome := fun n hn =>
    Option.isSome_iff_exists.2 (exists_call?_of_mem_tops h hn)
  have hdiagram := diagram_moved (fun p => (0, Text.trimStart p.2.1, 0)) htops
  exact congrArg (Except.map Line.document) hdiagram

section Law

variable {width : Nat → Nat} (hwidth : StrictMono width) {document other : List Text}
  (h : Relaid width document other) (counter : Counter)

include h in
theorem callCount_of_relaid : callCount (scan 0 document).1 = callCount (scan 0 other).1 := by
  apply callCount_eq_of_map_eq
  have hcalls := congrArg (List.map fun n : Node => n.call?.isSome) (map_scan_of_relaid h 0 0).1
  rwa [List.map_map, List.map_map] at hcalls

include hwidth h in
/-- The numbered nodes hang alike. -/
theorem map_ofList_of_relaid :
    (Forest.ofList Node.indent (number counter (scan 0 document).1)).map
        (Node.moved (respaced width))
      = (Forest.ofList Node.indent (number counter (scan 0 other).1)).map
        (Node.moved (respaced id)) := by
  rw [map_ofList_respaced hwidth fun n => indent_nonneg_of_mem_number,
    map_ofList_respaced strictMono_id fun n => indent_nonneg_of_mem_number,
    ← number_moved, ← number_moved, (map_scan_of_relaid h 0 0).1]

include hwidth h in
/-- The first levels are both in order, or the first complaints about them correspond. -/
theorem arrange_of_relaid (hscan : (scan 0 document).2 = none) (hscan' : (scan 0 other).2 = none) :
    (arrange (number counter (scan 0 document).1)
        = .ok (inherit none (Forest.ofList Node.indent (number counter (scan 0 document).1))) ∧
      arrange (number counter (scan 0 other).1)
        = .ok (inherit none (Forest.ofList Node.indent (number counter (scan 0 other).1)))) ∨
      ∃ (k : Nat) (e e' : ParseError),
        arrange (number counter (scan 0 document).1) = .error e ∧
        arrange (number counter (scan 0 other).1) = .error e' ∧
        e.complaint = e'.complaint ∧ StandsAt document k e ∧ StandsAt other k e' := by
  have halike := congrArg (fun f => f.ancestries.map fun e =>
    (topFault? e).map ParseError.complaint) (map_ofList_of_relaid hwidth h counter)
  simp only [map_complaint_ancestries_moved, Forest.ancestries_ofList] at halike
  rcases findSome?_alike halike with ⟨hnone, hnone'⟩ |
    ⟨k, a, a', e, e', ha, ha', he, he', hcomplaint, hfirst, hfirst'⟩
  · rw [findSome?_topFault?] at hnone hnone'
    exact Or.inl ⟨arrange_eq_ok_iff.2 ⟨hnone, rfl⟩, arrange_eq_ok_iff.2 ⟨hnone', rfl⟩⟩
  · rw [findSome?_topFault?] at hfirst hfirst'
    exact Or.inr ⟨k, e, e', arrange_eq_error_iff.2 hfirst, arrange_eq_error_iff.2 hfirst',
      hcomplaint, standsAt_of_topFault? hscan ha he, standsAt_of_topFault? hscan' ha' he'⟩

end Law

/-- Documents whose margins compare alike come to the same end, and leave the counter alike. -/
theorem sameOutcome_of_relaid {width : Nat → Nat} (hwidth : StrictMono width)
    {document other : List Text} (h : Relaid width document other) (counter : Counter)
    (links : Links) :
    SameOutcome document other (parseLimited counter links document).1
        (parseLimited counter links other).1 ∧
      (parseLimited counter links document).2 = (parseLimited counter links other).2 := by
  have hcount := callCount_of_relaid h
  refine ⟨?outcome, by rw [parseLimited_counter, parseLimited_counter, hcount]⟩
  by_cases hw : ∀ k < callCount (scan 0 document).1, Number.isWritable (counter.next + k) = true
  case neg =>
    obtain ⟨k, hk, hlong⟩ : ∃ k, k < callCount (scan 0 document).1 ∧
        Number.isWritable (counter.next + k) = false := by simpa using hw
    rw [parseLimited_of_not_writable hk hlong, parseLimited_of_not_writable (hcount ▸ hk) hlong]
    exact .number .tooManyDigits
  case pos =>
    rw [parseLimited_of_writable hw, parseLimited_of_writable (hcount ▸ hw)]
    obtain ⟨hnodes, hfailure⟩ := map_scan_of_relaid h 0 0
    cases hscan : (scan 0 document).2 with
    | some e =>
      rw [hscan] at hfailure
      obtain ⟨e', hscan'⟩ := Option.isSome_iff_exists.1 hfailure.symm
      have hcomplaint := (complaint_of_scan_failure hscan).trans
        (complaint_of_scan_failure hscan').symm
      have hlength : (scan 0 document).1.length = (scan 0 other).1.length := by
        simpa using congrArg List.length hnodes
      rw [parse_of_failure hscan, parse_of_failure hscan']
      exact .refused _ hcomplaint (standsAt_of_scan_failure hscan)
        (hlength ▸ standsAt_of_scan_failure hscan')
    | none =>
      rw [hscan] at hfailure
      have hscan' : (scan 0 other).2 = none := by simpa using hfailure.symm
      have hparse := parse_of_no_failure hscan counter links
      have hparse' := parse_of_no_failure hscan' counter links
      rcases arrange_of_relaid hwidth h counter hscan hscan' with
        ⟨hok, hok'⟩ | ⟨k, e, e', herror, herror', hcomplaint, hstands, hstands'⟩
      · rw [hok] at hparse
        rw [hok'] at hparse'
        have hforest := map_unlaid_finish (map_ofList_of_relaid hwidth h counter) links
        rw [hparse, hparse']
        refine .forest hforest ?_
        rw [← diagramText_unlaid hparse, ← diagramText_unlaid hparse', hforest]
      · rw [hparse, hparse', herror, herror']
        exact .refused k hcomplaint hstands hstands'

/-- A document with every margin more than doubled, with tabs and other spaces in them, and with
other blank lines. -/
theorem sameOutcome_widened :
    StrictMono (fun w => 2 * w + 1) ∧
      Relaid (fun w => 2 * w + 1) ["A#f()", "  loop x", "", "    g(): go"]
        ["\t", "\tA#f()", "\t\u3000 \t loop x", "         g(): go", "   "] ∧
      (∃ f, (parseLimited {} [] ["A#f()", "  loop x", "", "    g(): go"]).1 = .ok f) ∧
      SameOutcome ["A#f()", "  loop x", "", "    g(): go"]
        ["\t", "\tA#f()", "\t\u3000 \t loop x", "         g(): go", "   "]
        (parseLimited {} [] ["A#f()", "  loop x", "", "    g(): go"]).1
        (parseLimited {} []
          ["\t", "\tA#f()", "\t\u3000 \t loop x", "         g(): go", "   "]).1 := by
  have hwidth : StrictMono (fun w => 2 * w + 1) := by
    intro v w hlt
    show 2 * v + 1 < 2 * w + 1
    omega
  have hblank : ∀ t : Text, t ∈ ([[], "\t", "\t\u3000 \t ", "  ", "    ", "         ", "   "]
      : List Text) → Text.isBlank t = true := by decide
  have hrelaid : Relaid (fun w => 2 * w + 1) ["A#f()", "  loop x", "", "    g(): go"]
      ["\t", "\tA#f()", "\t\u3000 \t loop x", "         g(): go", "   "] := by
    refine .insert (hblank _ (by decide)) ?_
    refine @Relaid.line _ [] "\t" 'A' "#f()" _ _ (hblank _ (by decide)) (hblank _ (by decide)) rfl
      (by decide) ?_
    refine @Relaid.line _ "  " "\t\u3000 \t " 'l' "oop x" _ _ (hblank _ (by decide))
      (hblank _ (by decide)) rfl (by decide) ?_
    refine .delete (hblank _ (by decide)) ?_
    refine @Relaid.line _ "    " "         " 'g' "(): go" _ _ (hblank _ (by decide))
      (hblank _ (by decide)) rfl (by decide) ?_
    exact .insert (hblank _ (by decide)) .nil
  exact ⟨hwidth, hrelaid, ⟨_, by cbv⟩, (sameOutcome_of_relaid hwidth hrelaid {} []).1⟩

end CallDiagram
