import CallDiagram.Proofs.Statement.Reader
import CallDiagram.Text.Lines

/-!
# Reading what was spelled

The reader takes from a line only statements of a canonical form, and reads the spelling of such a
statement back.

* `Statement.Canonical` — names are names, notes are trimmed, comments hold no `<`;
* `canonical_of_read?` — a line without line terminators reads as a canonical statement;
* `read?_replicate_append_text` — a canonical statement, indented by some spaces, reads as itself,
  but for its alias and link, which no line holds.
-/

namespace CallDiagram

/-! ## Canonical statements -/

/-- A note as the reader keeps it: trimmed, and without a line terminator. -/
structure IsNote (t : Text) : Prop where
  trimmed : Text.Trimmed t
  no_end : ∀ c ∈ t, isLineEnd c = false

/-- The form of the statements that the reader makes from lines without terminators. -/
def Statement.Canonical : Statement → Prop
  | .call c =>
      (∀ g ∈ c.group, IsName g) ∧ IsName c.method ∧
        (∀ t ∈ c.comment, t ≠ [] ∧ IsNote t ∧ '<' ∉ t) ∧ ∀ t ∈ c.answer, t ≠ [] ∧ IsNote t
  | .loop note => IsNote note
  | .condition note => IsNote note
  | .alternative note => ∀ t ∈ note, t ≠ [] ∧ IsNote t
  | .bare => False

/-- A call without what no line holds: its alias and its link. -/
def Call.asWritten (c : Call) : Call := { c with aliasName := [], link := .null }

/-- A statement without what no line holds. -/
def Statement.asWritten : Statement → Statement
  | .call c => .call c.asWritten
  | s => s

/-! ## Characters -/

theorem isBlank_of_isLineEnd {c : Char} (h : isLineEnd c = true) : isBlank c = true := by
  simp only [isLineEnd, List.mem_cons, List.not_mem_nil, or_false, decide_eq_true_eq] at h
  rcases h with rfl | rfl | rfl | rfl | rfl | rfl | rfl | rfl | rfl | rfl <;> decide

theorem isLineEnd_of_not_isBlank {c : Char} (h : isBlank c = false) : isLineEnd c = false := by
  by_contra hc
  rw [isBlank_of_isLineEnd (by simpa using hc)] at h
  exact Bool.noConfusion h

theorem isAlpha_iff_toNat {c : Char} :
    c.isAlpha = true ↔
      (65 ≤ c.toNat ∧ c.toNat ≤ 90) ∨ (97 ≤ c.toNat ∧ c.toNat ≤ 122) := by
  show (decide (c.val ≥ 'A'.val ∧ c.val ≤ 'Z'.val)
    || (decide (c.val ≥ 'a'.val) && decide (c.val ≤ 'z'.val))) = true ↔ _
  simp only [Bool.or_eq_true, Bool.and_eq_true, decide_eq_true_eq, ge_iff_le,
    UInt32.le_iff_toNat_le]
  rfl

theorem isBlank_of_isNamePart {c : Char} (h : isNamePart c = true) : isBlank c = false := by
  have hrange : c.toNat = 36 ∨ c.toNat = 95 ∨ (48 ≤ c.toNat ∧ c.toNat ≤ 57) ∨
      (65 ≤ c.toNat ∧ c.toNat ≤ 90) ∨ (97 ≤ c.toNat ∧ c.toNat ≤ 122) := by
    simp only [isNamePart, isNameStart, Bool.or_eq_true, beq_iff_eq, isAlpha_iff_toNat,
      Char.isDigit_iff_toNat] at h
    rcases h with ((hletter | rfl) | rfl) | hdigit
    · exact Or.inr (Or.inr (Or.inr hletter))
    · exact Or.inr (Or.inl rfl)
    · exact Or.inl rfl
    · exact Or.inr (Or.inr (Or.inl hdigit))
  simp only [isBlank, inRanges, blankRanges, List.any_cons, List.any_nil, Bool.or_false,
    Bool.or_eq_false_iff, Bool.and_eq_false_iff, decide_eq_false_iff_not]
  omega

theorem not_isLineEnd_of_mem_name {name : Text} (h : IsName name) {c : Char} (hc : c ∈ name) :
    isLineEnd c = false :=
  isLineEnd_of_not_isBlank (isBlank_of_isNamePart (isNamePart_of_mem h hc))

theorem not_mem_break {t : Text} (h : ∀ c ∈ t, isLineEnd c = false) : '\n' ∉ t := fun hmem => by
  have := h _ hmem
  simp [isLineEnd] at this

/-! ## Lines read as canonical statements -/

theorem isNote_trim {t : Text} (h : ∀ c ∈ t, isLineEnd c = false) : IsNote (Text.trim t) :=
  ⟨Text.trimmed_trim t, fun c hc => h c (Text.mem_of_mem_trim hc)⟩

theorem isNote_of_note? {t note : Text} (h : ∀ c ∈ t, isLineEnd c = false)
    (hnote : note? t = some note) : IsNote note := by
  rw [note?_of_no_break (not_mem_break h), Option.some.injEq] at hnote
  exact hnote ▸ isNote_trim h

theorem isNote_of_nonempty? {t note : Text} (h : ∀ c ∈ t, isLineEnd c = false)
    (hnote : Text.nonempty? (some (Text.trim t)) = some note) : note ≠ [] ∧ IsNote note := by
  obtain ⟨heq, hne⟩ := Text.nonempty?_eq_some_iff.1 hnote
  exact ⟨hne, Option.some.inj heq ▸ isNote_trim h⟩

theorem mem_of_mem_beforeAngle {c : Char} {t : Text} (h : c ∈ beforeAngle t) :
    c ∈ t ∧ c ≠ '<' :=
  ⟨(List.takeWhile_sublist _).mem h, by simpa using List.all_eq_true.1 List.all_takeWhile c h⟩

theorem mem_of_mem_behindAngle? {c : Char} {t u : Text} (h : behindAngle? t = some u)
    (hc : c ∈ u) : c ∈ t := by
  unfold behindAngle? at h
  cases hd : t.dropWhile (· != '<') with
  | nil => simp [hd] at h
  | cons d rest =>
    obtain rfl : rest = u := by simpa [hd] using h
    exact (List.dropWhile_sublist (· != '<')).mem (hd ▸ List.mem_cons_of_mem _ hc)

/-- The comments of a call as the reader keeps them. -/
def CommentsCanonical (r : Option Text × Option Text) : Prop :=
  (∀ t ∈ r.1, t ≠ [] ∧ IsNote t ∧ '<' ∉ t) ∧ ∀ t ∈ r.2, t ≠ [] ∧ IsNote t

theorem canonical_of_comments? {tail : Text} {r : Option Text × Option Text}
    (h : ∀ c ∈ tail, isLineEnd c = false) (hr : comments? tail = some r) :
    CommentsCanonical r := by
  rw [comments?_of_no_break (not_mem_break h)] at hr
  have hstart : ∀ c ∈ Text.trimStart tail, isLineEnd c = false := fun c hc =>
    h c (Text.mem_of_mem_trimStart hc)
  split at hr
  · obtain rfl := Option.some.inj hr
    exact ⟨by simp, by simp⟩
  · rename_i rest heq
    have hrest : ∀ c ∈ rest, isLineEnd c = false := fun c hc =>
      hstart c (heq ▸ List.mem_cons_of_mem _ hc)
    obtain rfl := Option.some.inj hr
    constructor
    · intro t ht
      obtain ⟨hne, hnote⟩ := isNote_of_nonempty?
        (fun c hc => hrest c (mem_of_mem_beforeAngle hc).1) (Option.mem_def.1 ht)
      refine ⟨hne, hnote, fun hangle => ?_⟩
      obtain ⟨hsome, -⟩ := Text.nonempty?_eq_some_iff.1 (Option.mem_def.1 ht)
      rw [← Option.some.inj hsome] at hangle
      exact (mem_of_mem_beforeAngle (Text.mem_of_mem_trim hangle)).2 rfl
    · intro t ht
      cases hbehind : behindAngle? rest with
      | none => simp [hbehind, Text.nonempty?] at ht
      | some u =>
        rw [hbehind, Option.map_some] at ht
        exact isNote_of_nonempty? (fun c hc => hrest c (mem_of_mem_behindAngle? hbehind hc))
          (Option.mem_def.1 ht)
  · rename_i answer heq
    have hanswer : ∀ c ∈ answer, isLineEnd c = false := fun c hc =>
      hstart c (heq ▸ List.mem_cons_of_mem _ hc)
    obtain rfl := Option.some.inj hr
    exact ⟨by simp, fun t ht => isNote_of_nonempty? hanswer (Option.mem_def.1 ht)⟩
  · simp at hr

theorem isNote_of_keyword? {word body note : Text} (h : ∀ c ∈ body, isLineEnd c = false)
    (hnote : keyword? word body = some note) : IsNote note := by
  obtain ⟨c, rest, rfl, -, hread⟩ := keyword?_eq_some_iff.1 hnote
  exact isNote_of_note? (fun d hd => h d (List.mem_append_right _ hd)) hread

theorem canonical_of_alternative? {body : Text} {note : Option Text}
    (h : ∀ c ∈ body, isLineEnd c = false) (hnote : alternative? body = some note) :
    (Statement.alternative note).Canonical := by
  unfold alternative? at hnote
  split at hnote
  · obtain rfl := Option.some.inj hnote
    simp [Statement.Canonical]
  · obtain ⟨t, ht, rfl⟩ := Option.map_eq_some_iff.1 hnote
    intro u hu
    obtain ⟨heq, hne⟩ := Text.nonempty?_eq_some_iff.1 (Option.mem_def.1 hu)
    exact ⟨hne, Option.some.inj heq ▸ isNote_of_keyword? h ht⟩

/-- What a body can be, in the order in which it is tried. -/
theorem ofBody?_eq_some {body : Text} {s : Statement} (h : Statement.ofBody? body = some s) :
    (∃ c, callOf? body = some c ∧ s = .call c) ∨
      (∃ note, keyword? ['l', 'o', 'o', 'p'] body = some note ∧ s = .loop note) ∨
      (∃ note, keyword? ['i', 'f'] body = some note ∧ s = .condition note) ∨
      ∃ note, alternative? body = some note ∧ s = .alternative note := by
  unfold Statement.ofBody? at h
  simp only [Option.orElse_eq_orElse, Option.orElse_eq_or, Option.or_eq_some_iff,
    Option.map_eq_some_iff] at h
  rcases h with ⟨c, hc, rfl⟩ | ⟨-, ⟨note, hn, rfl⟩ | ⟨-, ⟨note, hn, rfl⟩ | ⟨-, note, hn, rfl⟩⟩⟩
  · exact Or.inl ⟨c, hc, rfl⟩
  · exact Or.inr (Or.inl ⟨note, hn, rfl⟩)
  · exact Or.inr (Or.inr (Or.inl ⟨note, hn, rfl⟩))
  · exact Or.inr (Or.inr (Or.inr ⟨note, hn, rfl⟩))

/-- A call that a line makes is read as a call from some body. -/
theorem exists_callOf?_of_read? {line : Text} {r : Nat × Statement}
    (hr : Statement.read? line = some r) {c : Call} (hc : r.2.call? = some c) :
    ∃ body, callOf? body = some c := by
  obtain ⟨s, hs, rfl⟩ := Option.map_eq_some_iff.1 hr
  rcases ofBody?_eq_some hs with ⟨d, hd, rfl⟩ | ⟨note, -, rfl⟩ | ⟨note, -, rfl⟩ | ⟨note, -, rfl⟩
  · exact ⟨_, hd.trans hc⟩
  · simp [Statement.call?] at hc
  · simp [Statement.call?] at hc
  · simp [Statement.call?] at hc

theorem canonical_of_ofBody? {body : Text} {s : Statement}
    (h : ∀ c ∈ body, isLineEnd c = false) (hs : Statement.ofBody? body = some s) :
    s.Canonical := by
  rcases ofBody?_eq_some hs with ⟨c, hc, rfl⟩ | ⟨note, hn, rfl⟩ | ⟨note, hn, rfl⟩ | ⟨note, hn, rfl⟩
  · obtain ⟨group, method, tail, r, hg, hm, rfl, hr, rfl⟩ := callOf?_eq_some_iff.1 hc
    have htail : ∀ d ∈ tail, isLineEnd d = false := fun d hd => h d (by simp [hd])
    obtain ⟨hcomment, hanswer⟩ := canonical_of_comments? htail hr
    exact ⟨hg, hm, hcomment, hanswer⟩
  · exact isNote_of_keyword? h hn
  · exact isNote_of_keyword? h hn
  · exact canonical_of_alternative? h hn

/-- A line without line terminators reads as a canonical statement. -/
theorem canonical_of_read? {line : Text} {r : Nat × Statement}
    (h : ∀ c ∈ line, isLineEnd c = false) (hr : Statement.read? line = some r) :
    r.2.Canonical := by
  obtain ⟨s, hs, rfl⟩ := Option.map_eq_some_iff.1 hr
  exact canonical_of_ofBody? (fun c hc => h c (Text.mem_of_mem_trimStart hc)) hs

/-! ## Canonical statements read back -/

/-- The spelling of a call comment behind the parentheses of a call. -/
def commentText : Option Text → Text
  | some t => ':' :: ' ' :: t
  | none => []

/-- The spelling of an answer behind a call and its comment. -/
def answerText : Option Text → Text
  | some t => ' ' :: '<' :: ' ' :: t
  | none => []

theorem isBlank_space : isBlank ' ' = true := by decide

theorem trim_space_cons {t : Text} (h : Text.Trimmed t) : Text.trim (' ' :: t) = t := by
  simpa using Text.trim_append_blanks (v := [' ']) (w := []) rfl rfl h

theorem trim_space_cons_space {t : Text} (h : Text.Trimmed t) :
    Text.trim (' ' :: (t ++ [' '])) = t := by
  simpa using Text.trim_append_blanks (v := [' ']) (w := [' ']) rfl rfl h

theorem note?_space_cons {t : Text} (h : IsNote t) : note? (' ' :: t) = some t := by
  have hbreak : '\n' ∉ ' ' :: t := by simpa using not_mem_break h.no_end
  rw [note?_of_no_break hbreak, trim_space_cons h.trimmed]

theorem beforeAngle_of_not_mem {t : Text} (h : '<' ∉ t) (rest : Text) :
    beforeAngle (t ++ '<' :: rest) = t ∧ behindAngle? (t ++ '<' :: rest) = some rest := by
  obtain ⟨htake, hdrop⟩ := Text.takeWhile_ne_append h rest
  refine ⟨htake, ?_⟩
  rw [behindAngle?, hdrop]
  rfl

theorem angle_of_not_mem {t : Text} (h : '<' ∉ t) : beforeAngle t = t ∧ behindAngle? t = none := by
  obtain ⟨htake, hdrop⟩ := Text.takeWhile_ne_of_not_mem h
  refine ⟨htake, ?_⟩
  rw [behindAngle?, hdrop]
  rfl

theorem not_isLineEnd_of_mem_comments {r : Option Text × Option Text}
    (h : CommentsCanonical r) {c : Char} (hc : c ∈ commentText r.1 ++ answerText r.2) :
    isLineEnd c = false := by
  obtain ⟨comment, answer⟩ := r
  rcases List.mem_append.1 hc with hc | hc
  · cases comment with
    | none => simp [commentText] at hc
    | some t =>
      simp only [commentText, List.mem_cons] at hc
      rcases hc with rfl | rfl | hc
      · decide
      · decide
      · exact (h.1 t rfl).2.1.no_end c hc
  · cases answer with
    | none => simp [answerText] at hc
    | some t =>
      simp only [answerText, List.mem_cons] at hc
      rcases hc with rfl | rfl | rfl | hc
      · decide
      · decide
      · decide
      · exact (h.2 t rfl).2.no_end c hc

/-- Comments read back. -/
theorem comments?_text {r : Option Text × Option Text} (h : CommentsCanonical r) :
    comments? (commentText r.1 ++ answerText r.2) = some r := by
  rw [comments?_of_no_break (not_mem_break fun c hc => not_isLineEnd_of_mem_comments h hc)]
  obtain ⟨comment, answer⟩ := r
  have hnonempty : ∀ t : Text, t ≠ [] → Text.nonempty? (some t) = some t := fun t ht =>
    Text.nonempty?_eq_some_iff.2 ⟨rfl, ht⟩
  cases comment with
  | none =>
    cases answer with
    | none => rfl
    | some a =>
      obtain ⟨hne, hnote⟩ := h.2 a rfl
      show some (none, Text.nonempty? (some (Text.trim (' ' :: a)))) = _
      rw [trim_space_cons hnote.trimmed, hnonempty a hne]
  | some t =>
    obtain ⟨hne, hnote, hangle⟩ := h.1 t rfl
    cases answer with
    | none =>
      obtain ⟨hbefore, hbehind⟩ := angle_of_not_mem (t := ' ' :: t) (by simpa using hangle)
      show some (Text.nonempty? (some (Text.trim (beforeAngle (' ' :: (t ++ []))))),
        Text.nonempty? ((behindAngle? (' ' :: (t ++ []))).map Text.trim)) = _
      rw [List.append_nil, hbefore, hbehind, trim_space_cons hnote.trimmed, hnonempty t hne]
      rfl
    | some a =>
      obtain ⟨hne', hnote'⟩ := h.2 a rfl
      have hsplit : ' ' :: (t ++ answerText (some a)) = ' ' :: (t ++ [' ']) ++ '<' :: ' ' :: a := by
        simp [answerText]
      obtain ⟨hbefore, hbehind⟩ := beforeAngle_of_not_mem (t := ' ' :: (t ++ [' ']))
        (by simpa using hangle) (' ' :: a)
      show some
        (Text.nonempty? (some (Text.trim (beforeAngle (' ' :: (t ++ answerText (some a)))))),
          Text.nonempty? ((behindAngle? (' ' :: (t ++ answerText (some a)))).map Text.trim)) = _
      rw [hsplit, hbefore, hbehind, Option.map_some, trim_space_cons_space hnote.trimmed,
        trim_space_cons hnote'.trimmed, hnonempty t hne, hnonempty a hne']

/-- The spelling of a canonical call, part by part. -/
theorem call_text_eq {c : Call} (h : (Statement.call c).Canonical) :
    c.text = groupStem c.group
      ++ (c.method ++ '(' :: ')' :: (commentText c.comment ++ answerText c.answer)) := by
  obtain ⟨hg, -, hcomment, hanswer⟩ := h
  have hgroup : Text.nonempty? c.group = c.group :=
    Text.nonempty?_of_ne_some_nil fun hnil => (hg [] hnil).ne_nil rfl
  have hc : Text.nonempty? c.comment = c.comment :=
    Text.nonempty?_of_ne_some_nil fun hnil => (hcomment [] hnil).1 rfl
  have ha : Text.nonempty? c.answer = c.answer :=
    Text.nonempty?_of_ne_some_nil fun hnil => (hanswer [] hnil).1 rfl
  rw [Call.text, hgroup, hc, ha, Call.label]
  cases c.group <;> cases c.comment <;> cases c.answer <;>
    simp [groupStem, commentText, answerText]

theorem callOf?_text {c : Call} (h : (Statement.call c).Canonical) :
    callOf? c.text = some c.asWritten := by
  rw [call_text_eq h]
  obtain ⟨hg, hm, hcomments⟩ := h
  have hread := comments?_text (r := (c.comment, c.answer)) hcomments
  exact callOf?_eq_some_iff.2 ⟨c.group, c.method, _, (c.comment, c.answer), hg, hm, rfl, hread, rfl⟩

/-- A name that is followed by neither a group mark nor parentheses starts no call. -/
theorem callOf?_name_blank (word rest : Text) (hw : IsName word)
    (hrest : ∀ c ∈ rest.head?, isBlank c = true) : callOf? (word ++ rest) = none := by
  have hpart : ∀ c ∈ rest.head?, isNamePart c = false := fun c hc => by
    by_contra hp
    have hb := isBlank_of_isNamePart (by simpa using hp : isNamePart c = true)
    rw [hrest c hc] at hb
    exact Bool.noConfusion hb
  have hname : identifier? (word ++ rest) = some (word, rest) :=
    identifier?_eq_some_iff.2 ⟨hw, rfl, hpart⟩
  rw [callOf?, hname]
  cases rest with
  | nil => rfl
  | cons d rest =>
    have hd : isBlank d = true := hrest d rfl
    have hhash : d ≠ '#' := by rintro rfl; exact absurd hd (by decide)
    have hparen : '(' ≠ d := by rintro rfl; exact absurd hd (by decide)
    simp [callWith?, hhash, hparen.symm]

theorem keyword?_space {word note : Text} (h : IsNote note) :
    keyword? word (word ++ ' ' :: note) = some note :=
  keyword?_eq_some_iff.2 ⟨' ', note, rfl, isBlank_space, note?_space_cons h⟩

theorem alternative?_text {note : Option Text} (h : (Statement.alternative note).Canonical) :
    alternative? (Statement.alternative note).text = some note := by
  cases note with
  | none => rfl
  | some t =>
    obtain ⟨hne, hnote⟩ := h t rfl
    have hsome : Text.nonempty? (some t) = some t := Text.nonempty?_eq_some_iff.2 ⟨rfl, hne⟩
    rw [alternative?, Statement.text, hsome, if_neg (by simp), keyword?_space hnote,
      Option.map_some, hsome]

/-- The spelling of a canonical statement reads as that statement. -/
theorem ofBody?_text {s : Statement} (h : s.Canonical) :
    Statement.ofBody? s.text = some s.asWritten := by
  cases s with
  | call c => simp [Statement.ofBody?, Statement.text, callOf?_text h, Statement.asWritten]
  | loop note =>
    have hcall : callOf? (Statement.loop note).text = none :=
      callOf?_name_blank ['l', 'o', 'o', 'p'] (' ' :: note) (by decide)
        (by simp [isBlank_space])
    have hloop : keyword? ['l', 'o', 'o', 'p'] (Statement.loop note).text = some note :=
      keyword?_space h
    simp [Statement.ofBody?, hcall, hloop, Statement.asWritten]
  | condition note =>
    have hcall : callOf? (Statement.condition note).text = none :=
      callOf?_name_blank ['i', 'f'] (' ' :: note) (by decide)
        (by simp [isBlank_space])
    have hloop : keyword? ['l', 'o', 'o', 'p'] (Statement.condition note).text = none := rfl
    have hif : keyword? ['i', 'f'] (Statement.condition note).text = some note := keyword?_space h
    simp [Statement.ofBody?, hcall, hloop, hif, Statement.asWritten]
  | alternative note =>
    have hcall : callOf? (Statement.alternative note).text = none := by
      apply callOf?_name_blank ['e', 'l', 's', 'e'] _ (by decide)
      rcases note with _ | _ | ⟨c, t⟩ <;> simp [Text.nonempty?, isBlank_space]
    have hloop : keyword? ['l', 'o', 'o', 'p'] (Statement.alternative note).text = none := rfl
    have hif : keyword? ['i', 'f'] (Statement.alternative note).text = none := rfl
    simp [Statement.ofBody?, hcall, hloop, hif, alternative?_text h, Statement.asWritten]
  | bare => exact absurd h id

/-! ## Whole lines -/

/-- The spelling of a canonical statement starts with a character that is not blank. -/
theorem exists_text_eq_cons {s : Statement} (h : s.Canonical) :
    ∃ c rest, s.text = c :: rest ∧ isBlank c = false := by
  cases s with
  | call c =>
    obtain ⟨hg, hm, -⟩ := id h
    have hname : ∀ name : Text, IsName name → ∀ rest, ∃ c t, name ++ rest = c :: t ∧
        isBlank c = false := by
      intro name hname rest
      cases name with
      | nil => exact absurd rfl hname.ne_nil
      | cons d name =>
        exact ⟨d, name ++ rest, rfl, isBlank_of_isNamePart (isNamePart_of_mem hname (by simp))⟩
    rw [Statement.text, call_text_eq h]
    cases hgroup : c.group with
    | none => exact hname c.method hm _
    | some g =>
      rw [groupStem, List.append_assoc]
      exact hname g (hg g hgroup) _
  | loop note => exact ⟨'l', _, rfl, by decide⟩
  | condition note => exact ⟨'i', _, rfl, by decide⟩
  | alternative note => exact ⟨'e', _, rfl, by decide⟩
  | bare => exact absurd h id

theorem not_isLineEnd_of_mem_keyword {word note : Text} (hword : word.any isLineEnd = false)
    (hnote : IsNote note) {c : Char} (hc : c ∈ word ++ note) : isLineEnd c = false := by
  rcases List.mem_append.1 hc with hc | hc
  · exact Bool.eq_false_iff.2 (List.any_eq_false.1 hword c hc)
  · exact hnote.no_end c hc

/-- No line terminator occurs in the spelling of a canonical statement. -/
theorem not_isLineEnd_of_mem_text {s : Statement} (h : s.Canonical) {c : Char}
    (hc : c ∈ s.text) : isLineEnd c = false := by
  cases s with
  | call call =>
    obtain ⟨hg, hm, hcomments⟩ := id h
    rw [Statement.text, call_text_eq h] at hc
    simp only [List.mem_append, List.mem_cons] at hc
    rcases hc with hc | hc | rfl | rfl | hc
    · cases hgroup : call.group with
      | none => simp [hgroup, groupStem] at hc
      | some g =>
        rw [hgroup, groupStem, List.mem_append, List.mem_singleton] at hc
        rcases hc with hc | rfl
        · exact not_isLineEnd_of_mem_name (hg g hgroup) hc
        · decide
    · exact not_isLineEnd_of_mem_name hm hc
    · decide
    · decide
    · exact not_isLineEnd_of_mem_comments (r := (call.comment, call.answer)) hcomments
        (List.mem_append.2 hc)
  | loop note => exact not_isLineEnd_of_mem_keyword (by decide) h hc
  | condition note => exact not_isLineEnd_of_mem_keyword (by decide) h hc
  | alternative note =>
    cases note with
    | none =>
      have hnil : IsNote [] := ⟨Text.trimmed_nil, by simp⟩
      exact not_isLineEnd_of_mem_keyword (by decide) hnil hc
    | some t =>
      obtain ⟨hne, hnote⟩ := h t rfl
      have hword : ['e', 'l', 's', 'e', ' '].any isLineEnd = false := by decide
      rw [Statement.text, Text.nonempty?_eq_some_iff.2 ⟨rfl, hne⟩] at hc
      exact not_isLineEnd_of_mem_keyword hword hnote (by simpa using hc)
  | bare => exact absurd h id

/-- A canonical statement that is indented by some spaces reads as itself. -/
theorem read?_replicate_append_text {s : Statement} (h : s.Canonical) (n : Nat) :
    Statement.read? (List.replicate n ' ' ++ s.text) = some (n, s.asWritten) := by
  obtain ⟨c, rest, htext, hc⟩ := exists_text_eq_cons h
  have hspaces : ∀ d ∈ List.replicate n ' ', isBlank d = true := fun d hd => by
    rw [List.eq_of_mem_replicate hd, isBlank_space]
  have htrim : Text.trimStart (List.replicate n ' ' ++ s.text) = s.text := by
    rw [Text.trimStart, List.dropWhile_append_of_pos hspaces, htext]
    exact Text.trimStart_cons_of_not_blank hc rest
  have hindent : indentOf (List.replicate n ' ' ++ s.text) = n := by
    rw [indentOf, List.takeWhile_append_of_pos hspaces, htext,
      List.takeWhile_cons_of_neg (by simp [hc])]
    simp
  rw [Statement.read?, htrim, ofBody?_text h, hindent, Option.map_some]

end CallDiagram
