import CallDiagram.Proofs.Statement.Spelling

/-!
# The grammar of lines

A line without line breaks is read exactly if a grammar derives it that goes through the line once,
from left to right.

* `SpellsComments` — what may follow the parentheses of a call, and the comments that it gives;
* `SpellsBody` — what may follow the leading blanks of a line, and the statement that it gives;
* `SpellsLine` — whole lines, with their indents;
* `comments?_eq_some_iff`, `ofBody?_eq_some_iff`, `read?_eq_some_iff` — reading is going by the
  grammar.
-/

namespace CallDiagram

/-! ## The grammar -/

/-- A text as a comment: without blanks at its ends, and only if something is left. -/
def keptComment (t : Text) : Option Text := Text.nonempty? (some (Text.trim t))

/-- What may follow the parentheses of a call.  The first character that is not blank, if there is
one, is a colon or a `<`; what is said on the way there goes from the colon up to the first `<`. -/
inductive SpellsComments : Text → Option Text × Option Text → Prop where
  | nothing {w : Text} : Text.isBlank w = true → SpellsComments w (none, none)
  | comment {w t : Text} : Text.isBlank w = true → '<' ∉ t →
      SpellsComments (w ++ ':' :: t) (keptComment t, none)
  | both {w t a : Text} : Text.isBlank w = true → '<' ∉ t →
      SpellsComments (w ++ ':' :: (t ++ '<' :: a)) (keptComment t, keptComment a)
  | answer {w a : Text} : Text.isBlank w = true →
      SpellsComments (w ++ '<' :: a) (none, keptComment a)

/-- What may follow the leading blanks of a line. -/
inductive SpellsBody : Text → Statement → Prop where
  | call {group : Option Text} {method tail : Text} {r : Option Text × Option Text} :
      (∀ g ∈ group, IsName g) → IsName method → SpellsComments tail r →
      SpellsBody (groupStem group ++ (method ++ '(' :: ')' :: tail))
        (.call { group, method, comment := r.1, answer := r.2 })
  | loop {c : Char} {t : Text} : isBlank c = true →
      SpellsBody (['l', 'o', 'o', 'p'] ++ c :: t) (.loop (Text.trim t))
  | condition {c : Char} {t : Text} : isBlank c = true →
      SpellsBody (['i', 'f'] ++ c :: t) (.condition (Text.trim t))
  | otherwise : SpellsBody ['e', 'l', 's', 'e'] (.alternative none)
  | alternative {c : Char} {t : Text} : isBlank c = true →
      SpellsBody (['e', 'l', 's', 'e'] ++ c :: t) (.alternative (keptComment t))

/-- What a whole line may be: leading blanks, and a body that starts with another character. -/
structure SpellsLine (line : Text) (indent : Nat) (s : Statement) : Prop where
  indent_eq : indent = (line.takeWhile isBlank).length
  body : SpellsBody (line.dropWhile isBlank) s

/-! ## Comments -/

theorem trim_cons_of_blank {c : Char} (h : isBlank c = true) (t : Text) :
    Text.trim (c :: t) = Text.trim t := by
  rw [Text.trim, Text.trimStart_cons_of_blank h, ← Text.trim]

/-- A text is cut at its first `<`, if it has one. -/
theorem angle_cases (t : Text) :
    ('<' ∉ t ∧ beforeAngle t = t ∧ behindAngle? t = none) ∨
      ∃ u a, t = u ++ '<' :: a ∧ '<' ∉ u ∧ beforeAngle t = u ∧ behindAngle? t = some a := by
  by_cases h : '<' ∈ t
  · obtain ⟨u, a, rfl, hu⟩ := List.eq_append_cons_of_mem h
    exact Or.inr ⟨u, a, rfl, hu, beforeAngle_of_not_mem hu a⟩
  · exact Or.inl ⟨h, angle_of_not_mem h⟩

theorem exists_blank_append_trimStart (t : Text) :
    ∃ w, Text.isBlank w = true ∧ t = w ++ Text.trimStart t :=
  ⟨t.takeWhile isBlank, List.all_takeWhile, List.takeWhile_append_dropWhile.symm⟩

theorem spellsComments_of_comments? {tail : Text} {r : Option Text × Option Text}
    (h : '\n' ∉ tail) (hr : comments? tail = some r) : SpellsComments tail r := by
  rw [comments?_of_no_break h] at hr
  obtain ⟨w, hw, htail⟩ := exists_blank_append_trimStart tail
  rw [htail]
  generalize Text.trimStart tail = t at hr ⊢
  split at hr
  · obtain rfl := Option.some.inj hr
    rw [List.append_nil]
    exact .nothing hw
  · rename_i rest
    obtain rfl := Option.some.inj hr
    rcases angle_cases rest with ⟨hrest, hbefore, hbehind⟩ | ⟨u, a, rfl, hu, hbefore, hbehind⟩
    · rw [hbefore, hbehind]
      exact .comment hw hrest
    · rw [hbefore, hbehind]
      exact .both hw hu
  · obtain rfl := Option.some.inj hr
    exact .answer hw
  · simp at hr

theorem comments?_of_spellsComments {tail : Text} {r : Option Text × Option Text}
    (h : '\n' ∉ tail) (hr : SpellsComments tail r) : comments? tail = some r := by
  have hcolon : ∀ {w : Text}, Text.isBlank w = true → ∀ t,
      Text.trimStart (w ++ ':' :: t) = ':' :: t := fun hw t => by
    rw [Text.trimStart_append_of_blank hw, Text.trimStart_cons_of_not_blank (by decide)]
  rw [comments?_of_no_break h]
  cases hr with
  | nothing hw => rw [Text.trimStart_eq_nil_iff.2 hw]
  | @comment w t hw ht =>
    obtain ⟨hbefore, hbehind⟩ := angle_of_not_mem ht
    rw [hcolon hw]
    simp only [hbefore, hbehind]
    rfl
  | @both w t a hw ht =>
    obtain ⟨hbefore, hbehind⟩ := beforeAngle_of_not_mem ht a
    rw [hcolon hw]
    simp only [hbefore, hbehind]
    rfl
  | answer hw =>
    rw [Text.trimStart_append_of_blank hw, Text.trimStart_cons_of_not_blank (by decide)]
    rfl

theorem comments?_eq_some_iff {tail : Text} (h : '\n' ∉ tail) {r : Option Text × Option Text} :
    comments? tail = some r ↔ SpellsComments tail r :=
  ⟨spellsComments_of_comments? h, comments?_of_spellsComments h⟩

/-! ## Bodies -/

/-- The note behind a keyword is all that follows the blank behind it. -/
theorem keyword?_eq_some_iff_of_no_break {word body note : Text} (h : '\n' ∉ body) :
    keyword? word body = some note ↔
      ∃ c t, body = word ++ c :: t ∧ isBlank c = true ∧ note = Text.trim t := by
  rw [keyword?_eq_some_iff]
  refine exists_congr fun c => exists_congr fun t => and_congr_right fun hbody =>
    and_congr_right fun hc => ?_
  have ht : '\n' ∉ c :: t := fun hmem => h (hbody ▸ List.mem_append_right word hmem)
  rw [note?_of_no_break ht, trim_cons_of_blank hc, Option.some.injEq, eq_comm]

theorem spellsBody_of_ofBody? {body : Text} {s : Statement} (h : '\n' ∉ body)
    (hs : Statement.ofBody? body = some s) : SpellsBody body s := by
  rcases ofBody?_eq_some hs with ⟨c, hc, rfl⟩ | ⟨note, hn, rfl⟩ | ⟨note, hn, rfl⟩ | ⟨note, hn, rfl⟩
  · obtain ⟨group, method, tail, r, hg, hm, rfl, hr, rfl⟩ := callOf?_eq_some_iff.1 hc
    have htail : '\n' ∉ tail := fun hmem => h (by simp [hmem])
    exact .call hg hm ((comments?_eq_some_iff htail).1 hr)
  · obtain ⟨c, t, rfl, hblank, rfl⟩ := (keyword?_eq_some_iff_of_no_break h).1 hn
    exact .loop hblank
  · obtain ⟨c, t, rfl, hblank, rfl⟩ := (keyword?_eq_some_iff_of_no_break h).1 hn
    exact .condition hblank
  · unfold alternative? at hn
    split at hn
    · rename_i heq
      obtain rfl := Option.some.inj hn
      rw [heq]
      exact .otherwise
    · obtain ⟨t, ht, rfl⟩ := Option.map_eq_some_iff.1 hn
      obtain ⟨c, t, rfl, hblank, rfl⟩ := (keyword?_eq_some_iff_of_no_break h).1 ht
      exact .alternative hblank

/-- A keyword is no call, whatever follows the blank behind it. -/
theorem callOf?_keyword (word : Text) (hw : IsName word) {c : Char} (hc : isBlank c = true)
    (t : Text) : callOf? (word ++ c :: t) = none :=
  callOf?_name_blank word (c :: t) hw (by simpa using hc)

theorem ofBody?_of_spellsBody {body : Text} {s : Statement} (h : '\n' ∉ body)
    (hs : SpellsBody body s) : Statement.ofBody? body = some s := by
  cases hs with
  | @call group method tail r hg hm hr =>
    have htail : '\n' ∉ tail := fun hmem => h (by simp [hmem])
    have hcall := callOf?_eq_some_iff.2
      ⟨group, method, tail, r, hg, hm, rfl, (comments?_eq_some_iff htail).2 hr, rfl⟩
    simp [Statement.ofBody?, hcall]
  | @loop c t hblank =>
    have hcall := callOf?_keyword ['l', 'o', 'o', 'p'] (by decide) hblank t
    have hloop : keyword? ['l', 'o', 'o', 'p'] (['l', 'o', 'o', 'p'] ++ c :: t)
        = some (Text.trim t) :=
      (keyword?_eq_some_iff_of_no_break h).2 ⟨c, t, rfl, hblank, rfl⟩
    rw [Statement.ofBody?, hcall, hloop]
    rfl
  | @condition c t hblank =>
    have hcall := callOf?_keyword ['i', 'f'] (by decide) hblank t
    have hloop : keyword? ['l', 'o', 'o', 'p'] (['i', 'f'] ++ c :: t) = none := rfl
    have hif : keyword? ['i', 'f'] (['i', 'f'] ++ c :: t) = some (Text.trim t) :=
      (keyword?_eq_some_iff_of_no_break h).2 ⟨c, t, rfl, hblank, rfl⟩
    rw [Statement.ofBody?, hcall, hloop, hif]
    rfl
  | otherwise => rfl
  | @alternative c t hblank =>
    have hcall := callOf?_keyword ['e', 'l', 's', 'e'] (by decide) hblank t
    have hloop : keyword? ['l', 'o', 'o', 'p'] (['e', 'l', 's', 'e'] ++ c :: t) = none := rfl
    have hif : keyword? ['i', 'f'] (['e', 'l', 's', 'e'] ++ c :: t) = none := rfl
    have helse : keyword? ['e', 'l', 's', 'e'] (['e', 'l', 's', 'e'] ++ c :: t)
        = some (Text.trim t) :=
      (keyword?_eq_some_iff_of_no_break h).2 ⟨c, t, rfl, hblank, rfl⟩
    have hne : ¬ ['e', 'l', 's', 'e'] ++ c :: t = ['e', 'l', 's', 'e'] := by simp
    rw [Statement.ofBody?, hcall, hloop, hif, alternative?, if_neg hne, helse]
    rfl

theorem ofBody?_eq_some_iff {body : Text} (h : '\n' ∉ body) {s : Statement} :
    Statement.ofBody? body = some s ↔ SpellsBody body s :=
  ⟨spellsBody_of_ofBody? h, ofBody?_of_spellsBody h⟩

/-! ## Lines -/

/-- A line without line breaks reads as a statement exactly if it spells that statement. -/
theorem read?_eq_some_iff {line : Text} (h : '\n' ∉ line) {indent : Nat} {s : Statement} :
    Statement.read? line = some (indent, s) ↔ SpellsLine line indent s := by
  have hbody : '\n' ∉ Text.trimStart line := fun hmem => h (Text.mem_of_mem_trimStart hmem)
  rw [Statement.read?, Option.map_eq_some_iff]
  constructor
  · rintro ⟨t, ht, heq⟩
    obtain ⟨rfl, rfl⟩ := Prod.mk.inj heq
    exact ⟨rfl, (ofBody?_eq_some_iff hbody).1 ht⟩
  · rintro ⟨rfl, hs⟩
    exact ⟨s, (ofBody?_eq_some_iff hbody).2 hs, rfl⟩

theorem read?_eq_none_iff {line : Text} (h : '\n' ∉ line) :
    Statement.read? line = none ↔ ∀ indent s, ¬ SpellsLine line indent s := by
  simp only [← read?_eq_some_iff h, Option.eq_none_iff_forall_ne_some, Prod.forall, ne_eq]

end CallDiagram
