import CallDiagram.Proofs.Document.Reading
import CallDiagram.Proofs.Forest.Hanging
import CallDiagram.Proofs.Statement.Spelling

/-!
# Which line is blamed

A document is refused for its first unknown line, else for the first line that stands at the left
margin and is no call with a group.

* `firstAnswer`, `IsFirst` — looking through a document for the first line of a kind, where the
  lines in front of it count;
* `scan_failure_eq_firstAnswer` — the first pass looks for unknown lines;
* `findSome?_hung` — the second pass looks for lines that no line before is left of;
* `RefusalLaw`, `ParseLaw`, `parseLaw` — what becomes of a document, with any counter;
* `refusalLaw_of_parseLimited` — with the usual counter, whose numbers are short enough.
-/

namespace CallDiagram

/-! ## The first line of a kind -/

/-- The line behind some lines is the first of a document for which something holds of the lines in
front of it and itself. -/
def IsFirst (P : List Text → Text → Prop) (document front : List Text) (line : Text) : Prop :=
  front ++ [line] <+: document ∧ P front line ∧
    ∀ front' line', front' ++ [line'] <+: front → ¬ P front' line'

theorem mem_of_front {document front : List Text} {line : Text}
    (h : front ++ [line] <+: document) : line ∈ document :=
  h.subset (by simp)

theorem exists_front_of_mem {document : List Text} {line : Text} (h : line ∈ document) :
    ∃ front, front ++ [line] <+: document := by
  obtain ⟨front, rest, rfl⟩ := List.append_of_mem h
  exact ⟨front, rest, by simp⟩

section FirstAnswer

variable {α : Type} (g : List Text → Text → Option α)

/-- The first answer to the lines of a document, each asked together with the lines in front. -/
def firstAnswer (front : List Text) : List Text → Option α
  | [] => none
  | line :: rest => (g front line).or (firstAnswer (front ++ [line]) rest)

theorem eq_none_of_firstAnswer {front document : List Text}
    (h : firstAnswer g front document = none) {pre : List Text} {line : Text}
    (hpre : pre ++ [line] <+: document) : g (front ++ pre) line = none := by
  induction document generalizing front pre with
  | nil => simp at hpre
  | cons first rest ih =>
    rw [firstAnswer, Option.or_eq_none_iff] at h
    cases pre with
    | nil =>
      obtain ⟨rfl, -⟩ := List.cons_prefix_cons.1 hpre
      rw [List.append_nil, h.1]
    | cons p pre =>
      obtain ⟨rfl, hrest⟩ := List.cons_prefix_cons.1 hpre
      have hline := ih h.2 hrest
      rwa [List.append_assoc] at hline

theorem exists_of_firstAnswer {front document : List Text} {a : α}
    (h : firstAnswer g front document = some a) :
    ∃ pre line, pre ++ [line] <+: document ∧ g (front ++ pre) line = some a ∧
      ∀ pre' line', pre' ++ [line'] <+: pre → g (front ++ pre') line' = none := by
  induction document generalizing front with
  | nil => simp [firstAnswer] at h
  | cons first rest ih =>
    rw [firstAnswer, Option.or_eq_some_iff] at h
    rcases h with h | ⟨hnone, h⟩
    · exact ⟨[], first, by simp, by rwa [List.append_nil], by simp⟩
    · obtain ⟨pre, line, hpre, hg, hfirst⟩ := ih h
      refine ⟨first :: pre, line, List.cons_prefix_cons.2 ⟨rfl, hpre⟩, ?_, fun pre' line' h' => ?_⟩
      · rwa [List.append_assoc] at hg
      · cases pre' with
        | nil =>
          obtain ⟨rfl, -⟩ := List.cons_prefix_cons.1 h'
          rw [List.append_nil, hnone]
        | cons p pre' =>
          obtain ⟨rfl, hrest⟩ := List.cons_prefix_cons.1 h'
          have hline := hfirst pre' line' hrest
          rwa [List.append_assoc] at hline

/-- If the answers are given to the lines of a kind, a document with such a line has a first one,
which is answered. -/
theorem exists_isFirst {P : List Text → Text → Prop} {document : List Text}
    (hP : ∀ front, ∀ line ∈ document, g front line = none ↔ ¬ P front line)
    (h : ∃ front line, front ++ [line] <+: document ∧ P front line) :
    ∃ front line a, IsFirst P document front line ∧ g front line = some a ∧
      firstAnswer g [] document = some a := by
  cases hfirst : firstAnswer g [] document with
  | none =>
    obtain ⟨front, line, hfront, hline⟩ := h
    exact absurd hline
      ((hP front line (mem_of_front hfront)).1 (eq_none_of_firstAnswer g hfirst hfront))
  | some a =>
    obtain ⟨front, line, hfront, ha, hnone⟩ := exists_of_firstAnswer g hfirst
    rw [List.nil_append] at ha
    have hline : P front line := by
      by_contra hline
      rw [(hP front line (mem_of_front hfront)).2 hline] at ha
      simp at ha
    refine ⟨front, line, a, ⟨hfront, hline, fun front' line' h' => ?_⟩, ha, rfl⟩
    have hmem : line' ∈ document :=
      mem_of_front (h'.trans ((List.prefix_append front [line]).trans hfront))
    exact (hP front' line' hmem).1 (hnone front' line' h')

theorem firstAnswer_eq_none {P : List Text → Text → Prop} {document : List Text}
    (hP : ∀ front, ∀ line ∈ document, g front line = none ↔ ¬ P front line)
    (h : ∀ front line, front ++ [line] <+: document → ¬ P front line) :
    firstAnswer g [] document = none := by
  cases hfirst : firstAnswer g [] document with
  | none => rfl
  | some a =>
    obtain ⟨front, line, hfront, ha, -⟩ := exists_of_firstAnswer g hfirst
    rw [List.nil_append, (hP front line (mem_of_front hfront)).2 (h front line hfront)] at ha
    simp at ha

end FirstAnswer

/-! ## Lines -/

/-- The call that a line makes. -/
def callOfLine? (line : Text) : Option Call := (Statement.read? line).bind fun r => r.2.call?

/-- A line that is not blank and that no such line in front is left of. -/
def IsLeftmost (front : List Text) (line : Text) : Prop :=
  Text.isBlank line = false ∧
    ∀ t ∈ front, Text.isBlank t = false → indentOf line ≤ indentOf t

instance (front : List Text) (line : Text) : Decidable (IsLeftmost front line) :=
  inferInstanceAs (Decidable (_ ∧ _))

/-- A line that should be a call with a group and is not. -/
def IsMisplaced (front : List Text) (line : Text) : Prop :=
  IsLeftmost front line ∧ ∀ c, callOfLine? line = some c → c.group = none

/-- What is said of a misplaced line. -/
def misplacedDetail (line : Text) : Text :=
  match callOfLine? line with
  | some _ => "Top-level statement missing component group name"
  | none => "Top-level statement must be a component in the format 'Group#component()'"

theorem read?_of_isBlank {line : Text} (h : Text.isBlank line = true) :
    Statement.read? line = none := by
  rw [Statement.read?, Text.trimStart_eq_nil_iff.2 h]
  rfl

/-- The group of a call that is read is absent or not empty. -/
theorem nonempty?_group_of_callOfLine? {line : Text} {c : Call} (h : callOfLine? line = some c) :
    Text.nonempty? c.group = c.group := by
  obtain ⟨r, hr, hc⟩ := Option.bind_eq_some_iff.1 h
  obtain ⟨body, hbody⟩ := exists_callOf?_of_read? hr hc
  obtain ⟨group, method, tail, comments, hgroup, -, -, -, rfl⟩ := callOf?_eq_some_iff.1 hbody
  exact Text.nonempty?_of_ne_some_nil fun hnil => (hgroup [] hnil).ne_nil rfl

/-- The node of a line is in order at the first level if the line is a call with a group. -/
theorem rootFault?_of_nodeOfLine? {line : Text} {index : Nat} {n : Node}
    (h : nodeOfLine? (line, index) = some n) :
    (rootFault? n = none ↔ ∃ c, callOfLine? line = some c ∧ c.group ≠ none) ∧
      ∀ e, rootFault? n = some e →
        e.index = index ∧ e.content = line ∧ e.detail = misplacedDetail line := by
  unfold nodeOfLine? at h
  split at h
  · simp at h
  · obtain ⟨⟨indent, statement⟩, hr, rfl⟩ := Option.map_eq_some_iff.1 h
    have hcall : callOfLine? line = statement.call? := by rw [callOfLine?, hr]; rfl
    cases statement with
    | call c =>
      have hgroup := nonempty?_group_of_callOfLine? hcall
      cases hg : c.group with
      | none =>
        rw [hg] at hgroup
        simp [rootFault?, misplacedDetail, hcall, Statement.call?, hg, hgroup, ParseError.detail]
      | some g =>
        rw [hg] at hgroup
        simp [rootFault?, hcall, Statement.call?, hg, hgroup]
    | _ => simp [rootFault?, misplacedDetail, hcall, Statement.call?, ParseError.detail]

/-! ## The two passes -/

/-- The refusal of an unknown line. -/
def unknownError? (front : List Text) (line : Text) : Option ParseError :=
  if isUnknownLine line then some ⟨.unknownStatement, front.length, line⟩ else none

/-- The first pass looks for unknown lines. -/
theorem scan_failure_eq_firstAnswer (front document : List Text) :
    (scan front.length document).2 = firstAnswer unknownError? front document := by
  induction document generalizing front with
  | nil => rfl
  | cons line rest ih =>
    have hrest := ih (front ++ [line])
    rw [List.length_append, List.length_singleton] at hrest
    rw [scan, firstAnswer, ← hrest]
    by_cases hb : Text.isBlank line = true
    · simp [hb, unknownError?, isUnknownLine]
    · cases hr : Statement.read? line <;> simp [hb, hr, unknownError?, isUnknownLine]

/-- The refusal of a line that stands at the left margin. -/
def marginError? (front : List Text) (line : Text) : Option ParseError :=
  if IsLeftmost front line then (nodeOfLine? (line, front.length)).bind rootFault? else none

/-- The fault of a node that hangs nowhere. -/
def freeFault? (e : Node × Option Node) : Option ParseError :=
  if e.2.isNone then rootFault? e.1 else none

/-- A node hangs nowhere if the line that made it stands at the left margin: the indents of the
nodes before are those of the written lines in front. -/
theorem freeFault?_eq_marginError? {front : List Text} {line : Text} {before : List Node} {n : Node}
    (hbefore : ∀ d : Int, (∀ b ∈ before, d ≤ b.indent) ↔
      ∀ t ∈ front, Text.isBlank t = false → d ≤ indentOf t)
    (hb : Text.isBlank line = false) (hn : nodeOfLine? (line, front.length) = some n)
    (hindent : n.indent = indentOf line) :
    freeFault? (n, Forest.nearest Node.indent before n) = marginError? front line := by
  have hmargin : Forest.nearest Node.indent before n = none ↔ IsLeftmost front line := by
    have hlow := hbefore n.indent
    simp only [hindent, Int.ofNat_le] at hlow
    simpa [Forest.nearest, IsLeftmost, hb, hindent] using hlow
  rw [freeFault?, marginError?, hn, Option.bind_some]
  by_cases h : IsLeftmost front line
  · rw [if_pos h, hmargin.2 h]
    rfl
  · rw [if_neg h, if_neg]
    rw [Option.isNone_iff_eq_none]
    exact fun hnone => h (hmargin.1 hnone)

/-- The second pass looks for lines that no line before is left of. -/
theorem findSome?_hung (front document : List Text) (before : List Node)
    (hbefore : ∀ d : Int, (∀ b ∈ before, d ≤ b.indent) ↔
      ∀ t ∈ front, Text.isBlank t = false → d ≤ indentOf t)
    (hknown : ∀ t ∈ document, isUnknownLine t = false) :
    (Forest.hung Node.indent before
        ((document.zipIdx front.length).filterMap nodeOfLine?)).findSome? freeFault?
      = firstAnswer marginError? front document := by
  induction document generalizing front before with
  | nil => rfl
  | cons line rest ih =>
    have hrest : ∀ t ∈ rest, isUnknownLine t = false := fun t ht =>
      hknown t (List.mem_cons_of_mem _ ht)
    have hlength : (front ++ [line]).length = front.length + 1 := by simp
    rw [List.zipIdx_cons, firstAnswer]
    by_cases hb : Text.isBlank line = true
    · have hnode : nodeOfLine? (line, front.length) = none := by simp [nodeOfLine?, hb]
      have hmargin : marginError? front line = none := by simp [marginError?, hnode]
      have hih := ih (front ++ [line]) before
        (fun d => by simp [hbefore, or_imp, forall_and, hb]) hrest
      rw [hlength] at hih
      rw [List.filterMap_cons_none hnode, hmargin, Option.none_or, hih]
    · rw [Bool.not_eq_true] at hb
      have hline := hknown line List.mem_cons_self
      obtain ⟨r, hr⟩ := Option.isSome_iff_exists.1
        (by simpa [isUnknownLine, hb] using hline : (Statement.read? line).isSome = true)
      have hindent := indent_of_read? hr
      have hnode : nodeOfLine? (line, front.length) = some ⟨front.length, line, r.1, r.2⟩ := by
        simp [nodeOfLine?, hb, hr]
      have hih := ih (front ++ [line]) (⟨front.length, line, r.1, r.2⟩ :: before)
        (fun d => by simp [hbefore, or_imp, forall_and, hb, hindent, and_comm]) hrest
      rw [hlength] at hih
      rw [List.filterMap_cons_some hnode, Forest.hung, List.findSome?_cons,
        freeFault?_eq_marginError? hbefore hb hnode (congrArg Int.ofNat hindent), hih]
      cases marginError? front line <;> rfl

/-- Numbering does not change which node of the first level is at fault. -/
theorem findSome?_tops_number (counter : Counter) (nodes : List Node) :
    (Forest.ofList Node.indent (number counter nodes)).tops.findSome? rootFault?
      = (Forest.ofList Node.indent nodes).tops.findSome? rootFault? := by
  have hfault : ∀ (name : Text) (n : Node),
      ((n.withAlias name).indent, rootFault? (n.withAlias name)) = (n.indent, rootFault? n) := by
    intro name n
    obtain ⟨index, source, indent, statement⟩ := n
    cases statement <;> rfl
  have hmap : ∀ l : List Node,
      (Forest.ofList Node.indent l).tops.findSome? rootFault?
        = (Forest.ofList Prod.fst (l.map fun n => (n.indent, rootFault? n))).tops.findSome?
            Prod.snd := by
    intro l
    have hforest := Forest.map_ofList (fun n : Node => (n.indent, rootFault? n)) Prod.fst l
    rw [← hforest, Forest.tops_map, List.findSome?_map]
    rfl
  rw [hmap, hmap, map_number hfault]

/-- A document without unknown lines is arranged if no line at the left margin is at fault. -/
theorem findSome?_tops_scan {document : List Text}
    (h : ∀ t ∈ document, isUnknownLine t = false) (counter : Counter) :
    (Forest.ofList Node.indent (number counter (scan 0 document).1)).tops.findSome? rootFault?
      = firstAnswer marginError? [] document := by
  rw [findSome?_tops_number, Forest.tops_eq_filterMap, Forest.parents_ofList,
    ← List.head?_filterMap, List.filterMap_filterMap, List.head?_filterMap,
    scan_nodes_of_failure_eq_none (scan_failure_eq_none_iff.2 h),
    ← findSome?_hung [] document [] (by simp) h]
  congr 1
  funext e
  rw [freeFault?]
  cases e.2 <;> rfl

/-! ## Numbers -/

/-- How many calls are read: those in front of the first unknown line, or all. -/
def callsRead (document : List Text) : Nat :=
  (document.takeWhile fun t => !isUnknownLine t).countP fun t => (callOfLine? t).isSome

/-- Whether the numbers of all calls that are read are short enough to be written. -/
def AliasesWritable (counter : Counter) (document : List Text) : Prop :=
  ∀ k < callsRead document, Number.isWritable (counter.next + k) = true

theorem callCount_scan (document : List Text) :
    callCount (scan 0 document).1 = callsRead document := by
  have hline : ∀ l : Text × Nat,
      ((nodeOfLine? l).map fun n => n.call?.isSome).getD false = (callOfLine? l.1).isSome := by
    intro l
    unfold nodeOfLine?
    split
    · rename_i hb
      rw [callOfLine?, read?_of_isBlank hb]
      rfl
    · cases hr : Statement.read? l.1 <;> simp [callOfLine?, hr, Node.call?]
  rw [callCount, scan_nodes, List.countP_filterMap, callsRead,
    ← List.zipIdx_map_fst 0 (document.takeWhile fun t => !isUnknownLine t), List.countP_map]
  simp only [hline, List.zipIdx_map_fst]
  rfl

/-- The usual counter can number every document that is not longer than the largest number that is
written. -/
theorem aliasesWritable_default {document : List Text}
    (h : document.length < Nat.pow 10 Number.digitLimit) : AliasesWritable {} document := by
  intro k hk
  have hcount : callsRead document ≤ document.length :=
    (List.countP_le_length).trans (List.takeWhile_sublist _).length_le
  rw [Number.isWritable_iff]
  generalize Nat.pow 10 Number.digitLimit = bound at h
  show (1 + (k : Int)).natAbs < bound
  omega

/-! ## The law -/

/-- A document is refused for the first line of a kind, with its number and its text. -/
def Blames (document : List Text) (result : Except DocumentError (Forest Node))
    (P : List Text → Text → Prop) (detail : Text → Text) : Prop :=
  ∃ front line e, IsFirst P document front line ∧ result = .error (.line e) ∧
    e.lineNumber = front.length + 1 ∧ e.content = line ∧ e.detail = detail line

/-- What becomes of a document whose numbers can be written. -/
structure RefusalLaw (document : List Text) (result : Except DocumentError (Forest Node)) :
    Prop where
  /-- The first unknown line is refused, whatever is wrong with the lines in front. -/
  unknown : (∃ line ∈ document, isUnknownLine line = true) →
    Blames document result (fun _ line => isUnknownLine line = true)
      fun line => "Unknown statement '" ++ line ++ ['\'']
  /-- Else the first misplaced line is refused. -/
  misplaced : (∀ line ∈ document, isUnknownLine line = false) →
    (∃ front line, front ++ [line] <+: document ∧ IsMisplaced front line) →
    Blames document result IsMisplaced misplacedDetail
  /-- Else there is a forest. -/
  accepted : (∀ line ∈ document, isUnknownLine line = false) →
    (∀ front line, front ++ [line] <+: document → ¬ IsMisplaced front line) →
    ∃ f, result = .ok f

/-- What becomes of a document. -/
structure ParseLaw (counter : Counter) (document : List Text)
    (result : Except DocumentError (Forest Node)) : Prop where
  /-- A number that cannot be written stops the document before anything else. -/
  unwritten : ¬ AliasesWritable counter document → result = .error (.number .tooManyDigits)
  /-- Else its lines decide. -/
  written : AliasesWritable counter document → RefusalLaw document result

theorem unknownError?_eq_none_iff {front : List Text} {line : Text} :
    unknownError? front line = none ↔ ¬ isUnknownLine line = true := by
  simp [unknownError?]

theorem marginError?_eq_none_iff {front : List Text} {line : Text}
    (hknown : isUnknownLine line = false) :
    marginError? front line = none ↔ ¬ IsMisplaced front line := by
  unfold marginError? IsMisplaced
  by_cases h : IsLeftmost front line
  · obtain ⟨r, hr⟩ := Option.isSome_iff_exists.1
      (by simpa [isUnknownLine, h.1] using hknown : (Statement.read? line).isSome = true)
    have hnode : nodeOfLine? (line, front.length) = some ⟨front.length, line, r.1, r.2⟩ := by
      simp [nodeOfLine?, h.1, hr]
    rw [if_pos h, hnode, Option.bind_some, (rootFault?_of_nodeOfLine? hnode).1]
    simp [h]
  · simp [h]

theorem eq_of_marginError? {front : List Text} {line : Text} {e : ParseError}
    (h : marginError? front line = some e) :
    e.lineNumber = front.length + 1 ∧ e.content = line ∧ e.detail = misplacedDetail line := by
  unfold marginError? at h
  split at h
  · obtain ⟨n, hn, he⟩ := Option.bind_eq_some_iff.1 h
    obtain ⟨hindex, hcontent, hdetail⟩ := (rootFault?_of_nodeOfLine? hn).2 e he
    exact ⟨by rw [ParseError.lineNumber, hindex], hcontent, hdetail⟩
  · simp at h

/-- Every document is refused or accepted by the law. -/
theorem parseLaw (counter : Counter) (links : Links) (document : List Text) :
    ParseLaw counter document (parseLimited counter links document).1 := by
  have hscan : (scan 0 document).2 = firstAnswer unknownError? [] document :=
    scan_failure_eq_firstAnswer [] document
  have hplain : AliasesWritable counter document → (parseLimited counter links document).1
      = (parse counter links document).1.mapError .line := fun h =>
    parseLimited_of_writable (by rwa [callCount_scan]) links
  -- without unknown lines the second pass decides
  have harrange : (∀ line ∈ document, isUnknownLine line = false) →
      (parse counter links document).1
        = (arrange (number counter (scan 0 document).1)).map (resolve links) := fun h =>
    parse_of_no_failure (scan_failure_eq_none_iff.2 h) counter links
  refine ⟨fun h => ?unwritten, fun hw => ⟨fun hunknown => ?unknown, fun hknown hmis => ?misplaced,
    fun hknown hplaced => ?accepted⟩⟩
  case unwritten =>
    obtain ⟨k, hk, hlong⟩ : ∃ k, k < callsRead document ∧
        Number.isWritable (counter.next + k) = false := by simpa [AliasesWritable] using h
    exact parseLimited_of_not_writable (by rwa [callCount_scan]) hlong links
  case unknown =>
    obtain ⟨line, hline, hun⟩ := hunknown
    obtain ⟨front, hfront⟩ := exists_front_of_mem hline
    obtain ⟨front, line, e, hfirst, he, hanswer⟩ := exists_isFirst unknownError?
      (fun _ _ _ => unknownError?_eq_none_iff) ⟨front, line, hfront, hun⟩
    rw [unknownError?, if_pos hfirst.2.1, Option.some.injEq] at he
    subst he
    exact ⟨front, line, _, hfirst,
      by rw [hplain hw, parse_of_failure (hscan.trans hanswer)]; rfl, rfl, rfl, rfl⟩
  case misplaced =>
    obtain ⟨front, line, e, hfirst, he, hanswer⟩ := exists_isFirst marginError?
      (fun _ t ht => marginError?_eq_none_iff (hknown t ht)) hmis
    have hfault := arrange_eq_error_iff.2 ((findSome?_tops_scan hknown counter).trans hanswer)
    exact ⟨front, line, e, hfirst, by rw [hplain hw, harrange hknown, hfault]; rfl,
      eq_of_marginError? he⟩
  case accepted =>
    have hanswer := firstAnswer_eq_none marginError?
      (fun _ t ht => marginError?_eq_none_iff (hknown t ht)) hplaced
    have hok := arrange_eq_ok_iff.2 ⟨(findSome?_tops_scan hknown counter).trans hanswer, rfl⟩
    exact ⟨_, by rw [hplain hw, harrange hknown, hok]; rfl⟩

/-- With the usual counter every document that is not longer than the largest number that is written
is refused for its first unknown line, else for its first misplaced line, or else accepted. -/
theorem refusalLaw_of_parseLimited (links : Links) {document : List Text}
    (h : document.length < Nat.pow 10 Number.digitLimit) :
    RefusalLaw document (parseLimited {} links document).1 :=
  (parseLaw {} links document).written (aliasesWritable_default h)

/-- A document with an unknown line behind one that is misplaced. -/
theorem refusalLaw_misplacedAndUnknown :
    (["loop x", "  A#f()", "???"] : List Text).length < Nat.pow 10 Number.digitLimit ∧
      RefusalLaw ["loop x", "  A#f()", "???"]
        (parseLimited {} [] ["loop x", "  A#f()", "???"]).1 := by
  have hpower : ∀ n, 3 < n → 3 < Nat.pow 10 n := fun n hn => hn.trans (Nat.lt_pow_self (by decide))
  have hshort : (["loop x", "  A#f()", "???"] : List Text).length
      < Nat.pow 10 Number.digitLimit := hpower Number.digitLimit (by decide)
  exact ⟨hshort, refusalLaw_of_parseLimited [] hshort⟩

end CallDiagram
