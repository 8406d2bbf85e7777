import CallDiagram.Proofs.Document.Classification
import CallDiagram.Proofs.Document.Reading
import CallDiagram.Proofs.Statement.TrailingBlanks

/-!
# Lines that keep their ends

A line terminator is blank, so the lines of a text may keep theirs.  The document is the same, but
for the lines that its nodes and its refusal show.

* `Text.linesWithEnds` — the lines with their terminators, which are blanks behind the lines;
* `Trails` — a line with blanks behind it that do not count;
* `scan_of_trails`, `arrange_sourcedFrom`, `parse_of_trails` — the passes over such lines;
* `TrailingLaw`, `trailingLaw` — what blanks behind lines do.
-/

namespace CallDiagram

/-! ## Lines with their ends -/

namespace Text

/-- The lines of a text, each with its terminator. -/
def linesWithEnds : Text → List Text
  | [] => []
  | '\r' :: '\n' :: rest => ['\r', '\n'] :: linesWithEnds rest
  | c :: rest =>
      if isLineEnd c then [c] :: linesWithEnds rest else ontoFirst c (linesWithEnds rest)

theorem flatten_ontoFirst (c : Char) (lines : List Text) :
    (ontoFirst c lines).flatten = c :: lines.flatten := by
  cases lines <;> rfl

/-- Nothing of a text is lost. -/
theorem flatten_linesWithEnds (t : Text) : (linesWithEnds t).flatten = t := by
  fun_induction linesWithEnds t with
  | case1 => rfl
  | case2 rest ih => rw [List.flatten_cons, ih]; rfl
  | case3 c rest _ _ ih => rw [List.flatten_cons, ih]; rfl
  | case4 c rest _ _ ih => rw [flatten_ontoFirst, ih]

/-- Each is a line of the text with blanks behind it. -/
theorem forall₂_linesWithEnds (t : Text) :
    List.Forall₂ (fun line whole => ∃ w, isBlank w = true ∧ whole = line ++ w) (lines t)
      (linesWithEnds t) := by
  fun_induction linesWithEnds t with
  | case1 => exact .nil
  | case2 rest ih => exact .cons ⟨['\r', '\n'], by decide, rfl⟩ ih
  | case3 c rest hpair hend ih =>
    rw [lines.eq_3 c rest hpair, if_pos hend]
    exact .cons ⟨[c], by simp [isBlank, isBlank_of_isLineEnd hend], rfl⟩ ih
  | case4 c rest hpair hend ih =>
    rw [lines.eq_3 c rest hpair, if_neg hend]
    generalize lines rest = bare, linesWithEnds rest = whole at ih ⊢
    cases ih with
    | nil => exact .cons ⟨[], rfl, rfl⟩ .nil
    | cons hfirst hmore =>
      obtain ⟨w, hw, heq⟩ := hfirst
      exact .cons ⟨w, hw, by rw [heq]; rfl⟩ hmore

end Text

/-! ## The same lines but for blanks behind them -/

/-- The second line is the first one with blanks behind it, unless this is a keyword that demands
one. -/
def Trails (line whole : Text) : Prop :=
  ∃ w, Text.isBlank w = true ∧ whole = line ++ w ∧
    (Statement.ofBareKeyword? line ≠ none → w = [])

theorem Trails.read? {line whole : Text} (h : Trails line whole) :
    Text.isBlank whole = Text.isBlank line ∧ Statement.read? whole = Statement.read? line := by
  obtain ⟨w, hw, rfl, hbare⟩ := h
  refine ⟨isBlank_append_of_blank hw line, ?_⟩
  by_cases hline : Statement.ofBareKeyword? line = none
  · exact read?_append_of_blank hw hline
  · rw [hbare hline, List.append_nil]

/-- A place with the line that a document has there. -/
def sourcedFrom (document : List Text) (p : Int × Text × Int) : Int × Text × Int :=
  (p.1, document.getD p.1.toNat [], p.2.2)

/-- The refusal with the line that a document has there. -/
def ParseError.sourcedFrom (document : List Text) (e : ParseError) : ParseError :=
  { e with content := document.getD e.index.toNat [] }

/-- The error with the line that a document has there. -/
def DocumentError.sourcedFrom (document : List Text) : DocumentError → DocumentError
  | .line e => .line (e.sourcedFrom document)
  | .number e => .number e

/-- What becomes of a document, with every line as another one has it. -/
def outcomeFrom (document : List Text) (result : Except DocumentError (Forest Node)) :
    Except DocumentError (Forest Node) :=
  (result.map fun f => f.map (Node.moved (sourcedFrom document))).mapError
    (DocumentError.sourcedFrom document)

/-- The lines make the same nodes and the same refusal. -/
theorem scan_of_trails {document other : List Text} (h : List.Forall₂ Trails document other)
    (front : List Text) :
    scan front.length other
      = ((scan front.length document).1.map (Node.moved (sourcedFrom (front ++ other))),
          (scan front.length document).2.map (ParseError.sourcedFrom (front ++ other))) := by
  induction h generalizing front with
  | nil => rfl
  | @cons line whole document other hline _ ih =>
    obtain ⟨hblank, hread⟩ := hline.read?
    have hrest := ih (front ++ [whole])
    rw [List.length_append, List.length_singleton, List.append_assoc, List.singleton_append] at hrest
    obtain hb | ⟨hb, hr⟩ | ⟨hb, r, hr⟩ := blank_or_unknown_or_read line
    · rw [scan_of_blank hb, scan_of_blank (hblank.trans hb), hrest]
    · rw [scan_of_unknown hb hr, scan_of_unknown (hblank.trans hb) (hread.trans hr)]
      simp [ParseError.sourcedFrom]
    · rw [scan_of_read hb hr, scan_of_read (hblank.trans hb) (hread.trans hr), hrest]
      simp [Node.moved, Node.place, sourcedFrom]

theorem scan_zero_of_trails {document other : List Text} (h : List.Forall₂ Trails document other) :
    scan 0 other
      = ((scan 0 document).1.map (Node.moved (sourcedFrom other)),
          (scan 0 document).2.map (ParseError.sourcedFrom other)) :=
  scan_of_trails h []

theorem rootFault?_sourcedFrom (document : List Text) (n : Node) :
    rootFault? (n.moved (sourcedFrom document))
      = (rootFault? n).map (ParseError.sourcedFrom document) := by
  rw [rootFault?_eq_map, rootFault?_eq_map, Option.map_map]
  rfl

theorem arrange_sourcedFrom (document : List Text) (nodes : List Node) :
    arrange (nodes.map (Node.moved (sourcedFrom document)))
      = ((arrange nodes).map fun f => f.map (Node.moved (sourcedFrom document))).mapError
          (ParseError.sourcedFrom document) := by
  have hhang : Forest.ofList Node.indent (nodes.map (Node.moved (sourcedFrom document)))
      = (Forest.ofList Node.indent nodes).map (Node.moved (sourcedFrom document)) :=
    (Forest.map_ofList (Node.moved (sourcedFrom document)) Node.indent nodes).symm
  have hroots : (rootFault? ∘ Node.moved (sourcedFrom document))
      = Option.map (ParseError.sourcedFrom document) ∘ rootFault? :=
    funext fun n => rootFault?_sourcedFrom document n
  rw [arrange, arrange, hhang, Forest.tops_map, List.findSome?_map, hroots, inherit_moved,
    ← List.map_findSome?]
  cases (Forest.ofList Node.indent nodes).tops.findSome? rootFault? <;> rfl

section Trailing

variable {document other : List Text} (h : List.Forall₂ Trails document other) (counter : Counter)
  (links : Links)

include h

theorem callCount_of_trails : callCount (scan 0 other).1 = callCount (scan 0 document).1 := by
  rw [scan_zero_of_trails h]
  exact callCount_eq_of_map_eq (by rw [List.map_map]; rfl)

/-- A document makes the same forest, or is refused for the same reason, with blanks behind its
lines. -/
theorem parse_of_trails :
    parse counter links other
      = (((parse counter links document).1.map fun f =>
            f.map (Node.moved (sourcedFrom other))).mapError (ParseError.sourcedFrom other),
          (parse counter links document).2) := by
  refine Prod.ext ?result ?counter
  case counter => rw [parse_counter, parse_counter, callCount_of_trails h]
  case result =>
    have hscan := scan_zero_of_trails h
    cases hfailure : (scan 0 document).2 with
    | some e =>
      have hother : (scan 0 other).2 = some (e.sourcedFrom other) := by rw [hscan, hfailure]; rfl
      rw [parse_of_failure hfailure, parse_of_failure hother]
      rfl
    | none =>
      have hother : (scan 0 other).2 = none := by rw [hscan, hfailure]; rfl
      have hnodes : (scan 0 other).1
          = (scan 0 document).1.map (Node.moved (sourcedFrom other)) := by rw [hscan]
      rw [parse_of_no_failure hfailure, parse_of_no_failure hother, hnodes, number_moved,
        arrange_sourcedFrom]
      cases arrange (number counter (scan 0 document).1) with
      | error e => rfl
      | ok f =>
        show Except.ok (resolve links (f.map (Node.moved (sourcedFrom other)))) = _
        rw [resolve_moved]
        rfl

theorem parseLimited_of_trails :
    parseLimited counter links other
      = (outcomeFrom other (parseLimited counter links document).1,
          (parseLimited counter links document).2) := by
  rw [parseLimited, parseLimited, callCount_of_trails h, parse_of_trails h]
  cases counter.issue (callCount (scan 0 document).1) with
  | mk issued behind =>
    cases issued with
    | error e => rfl
    | ok aliases =>
      generalize parse counter links document = parsed
      obtain ⟨result, behind'⟩ := parsed
      cases result <;> rfl

end Trailing

/-! ## The law -/

theorem classify_of_trails {line whole : Text} (h : Trails line whole) {ε σ : Type}
    (next : EStateM ε σ Text) (index : Nat) :
    classify next index whole
      = Option.map (fun n => { n with source := whole }) <$> classify next index line := by
  rw [classify, classify, h.read?.2]
  cases Statement.read? line with
  | none => rfl
  | some r =>
    obtain ⟨indent, s⟩ := r
    cases s with
    | call c =>
      simp only [map_bind, map_pure]
      rfl
    | _ => rfl

/-- The lines of a text with their terminators are its lines with blanks behind them. -/
theorem trails_linesWithEnds {t : Text}
    (h : ∀ e ∈ (Text.lines t).zip (Text.linesWithEnds t),
      Statement.ofBareKeyword? e.1 ≠ none → e.2 = e.1) :
    List.Forall₂ Trails (Text.lines t) (Text.linesWithEnds t) := by
  obtain ⟨hlength, hzip⟩ := List.forall₂_iff_zip.1 (Text.forall₂_linesWithEnds t)
  refine List.forall₂_iff_zip.2 ⟨hlength, ?_⟩
  intro line whole hmem
  obtain ⟨w, hw, heq⟩ := hzip hmem
  refine ⟨w, hw, heq, fun hbare => ?_⟩
  have hsame : line ++ w = line := heq ▸ h _ hmem hbare
  simpa using hsame

/-- What blanks behind lines do. -/
structure TrailingLaw : Prop where
  /-- They do not count behind a line, unless it is a keyword that demands one. -/
  line : ∀ {line w : Text}, Text.isBlank w = true → Statement.ofBareKeyword? line = none →
    ∀ {ε σ : Type} (next : EStateM ε σ Text) (index : Nat),
      classify next index (line ++ w)
        = Option.map (fun n => { n with source := line ++ w }) <$> classify next index line
  /-- Such a keyword says nothing by itself, and opens a region with blanks behind it. -/
  keyword : ∀ {line w : Text} {s : Statement}, Statement.ofBareKeyword? line = some s →
    Text.isBlank w = true → w ≠ [] → ∀ {ε σ : Type} (next : EStateM ε σ Text) (index : Nat),
      classify next index line = pure none ∧
        classify next index (line ++ w) = pure (some ⟨index, line ++ w, indentOf line, s⟩)
  /-- They do not count in a document. -/
  document : ∀ {document other : List Text}, List.Forall₂ Trails document other →
    ∀ (counter : Counter) (links : Links),
      parseLimited counter links other
        = (outcomeFrom other (parseLimited counter links document).1,
            (parseLimited counter links document).2)
  /-- The lines of a text may keep their terminators, unless one follows such a keyword. -/
  text : ∀ {t : Text}, (∀ e ∈ (Text.lines t).zip (Text.linesWithEnds t),
      Statement.ofBareKeyword? e.1 ≠ none → e.2 = e.1) →
    ∀ (counter : Counter) (links : Links),
      parseLimited counter links (Text.linesWithEnds t)
        = (outcomeFrom (Text.linesWithEnds t) (parseLimited counter links (Text.lines t)).1,
            (parseLimited counter links (Text.lines t)).2)

theorem trailingLaw : TrailingLaw := by
  refine ⟨?line, ?keyword, ?document, ?text⟩
  case line =>
    intro line w hw hline ε σ next index
    have htrails : Trails line (line ++ w) := by
      refine ⟨w, hw, rfl, ?_⟩
      intro hbare
      exact absurd hline hbare
    exact classify_of_trails htrails next index
  case keyword =>
    intro line w s h hw hne ε σ next index
    constructor
    · funext st
      exact classify_of_read?_eq_none (read?_of_bareKeyword h) next index st
    · funext st
      have hread := read?_append_of_bareKeyword h hw hne
      exact classify_of_no_call hread (call?_of_bareKeyword h) next index st
  case document =>
    intro document other h counter links
    exact parseLimited_of_trails h counter links
  case text =>
    intro t h counter links
    exact parseLimited_of_trails (trails_linesWithEnds h) counter links

/-- A text with a different terminator, or none, behind each of its lines. -/
def mixedEnds : Text :=
  "A#f(): go \r\n  if x\u2028\t\tg()< y\x1e  else\r\n  loop z"

theorem trailingLaw_mixedEnds :
    (∀ e ∈ (Text.lines mixedEnds).zip (Text.linesWithEnds mixedEnds),
      Statement.ofBareKeyword? e.1 ≠ none → e.2 = e.1) ∧
      (∃ f, (parseLimited {} [] (Text.lines mixedEnds)).1 = .ok f) ∧
      parseLimited {} [] (Text.linesWithEnds mixedEnds)
        = (outcomeFrom (Text.linesWithEnds mixedEnds)
            (parseLimited {} [] (Text.lines mixedEnds)).1,
          (parseLimited {} [] (Text.lines mixedEnds)).2) :=
  ⟨by decide, ⟨_, by cbv⟩, trailingLaw.text (by decide) {} []⟩

/-- A blank behind the keyword of a loop makes it one, and so does the terminator of its line. -/
theorem not_alike_bareLoop :
    (Text.isBlank " " = true ∧
      classify (pure [] : EStateM Unit Unit Text) 0 ("loop" ++ " ")
        ≠ Option.map (fun n => { n with source := ("loop" ++ " " : Text) }) <$>
          classify (pure []) 0 "loop") ∧
      (parseLimited {} [] (Text.lines "A#f()\n  loop\n")).1
          = .error (.line ⟨.unknownStatement, 1, "  loop"⟩) ∧
        ∃ f, (parseLimited {} [] (Text.linesWithEnds "A#f()\n  loop\n")).1 = .ok f := by
  refine ⟨⟨by decide, ?line⟩, by cbv, ⟨_, by cbv⟩⟩
  case line =>
    intro heq
    have hstate := congrFun heq ()
    cases hstate

end CallDiagram
