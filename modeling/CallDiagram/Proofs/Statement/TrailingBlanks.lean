import CallDiagram.Proofs.Statement.Spelling

/-!
# Blanks behind a line

Every part of a statement ends in front of blanks, so blanks behind a line do not count.  Only a
loop and a condition demand a blank behind their keyword, which may be the last character of the
line.

* `callOf?_append_of_blank`, `keyword?_append_of_blank`, `alternative?_append_of_blank` — the bodies
  of lines;
* `Statement.ofBareKeyword?` — the lines that lack nothing but a blank;
* `read?_append_of_blank`, `read?_append_of_bareKeyword` — all lines but those, and those.
-/

namespace CallDiagram

/-! ## Comments -/

section Blanks

variable {w : Text} (hw : Text.isBlank w = true)

include hw

theorem note?_append_of_blank (t : Text) : note? (t ++ w) = note? t := by
  rw [note?, note?, Text.trim_append_of_blank hw]

theorem commentEnd?_append_of_blank (t : Text) : commentEnd? (t ++ w) = commentEnd? t := by
  rcases Text.trimStart_append_cases hw t with ⟨ht, htw⟩ | ⟨c, rest, -, ht, htw⟩
  · rw [commentEnd?, commentEnd?, ht, htw]
  · by_cases hc : c = '<'
    · simp [commentEnd?, ht, htw, hc, note?_append_of_blank hw]
    · simp [commentEnd?, ht, htw, hc]

/-- A comment ends where it ended, because it can end in front of blanks. -/
theorem commentAndAnswer?_append_of_blank (t : Text) :
    commentAndAnswer? (t ++ w) = commentAndAnswer? t := by
  induction t with
  | nil =>
    cases w with
    | nil => rfl
    | cons c rest =>
      have hend : commentEnd? (c :: rest) = some none := by
        rw [commentEnd?, Text.trimStart_eq_nil_iff.2 hw]
      simp [commentAndAnswer?, hend]
  | cons c t ih =>
    have hend : commentEnd? (c :: (t ++ w)) = commentEnd? (c :: t) :=
      commentEnd?_append_of_blank hw (c :: t)
    rw [List.cons_append, commentAndAnswer?, commentAndAnswer?, hend, ih]

theorem comments?_append_of_blank (tail : Text) : comments? (tail ++ w) = comments? tail := by
  rcases Text.trimStart_append_cases hw tail with ⟨ht, htw⟩ | ⟨c, rest, -, ht, htw⟩
  · rw [comments?, comments?, ht, htw]
  · by_cases hcolon : c = ':'
    · have hrest : commentAndAnswer? (Text.trimStart (rest ++ w))
          = commentAndAnswer? (Text.trimStart rest) := by
        rcases Text.trimStart_append_cases hw rest with ⟨hr, hrw⟩ | ⟨d, rest', -, hr, hrw⟩
        · rw [hr, hrw]
        · rw [hr, hrw, ← List.cons_append, commentAndAnswer?_append_of_blank hw]
      simp [comments?, ht, htw, hcolon, hrest]
    · by_cases hangle : c = '<'
      · simp [comments?, ht, htw, hangle, note?_append_of_blank hw]
      · simp [comments?, ht, htw, hcolon, hangle]

/-! ## Statements -/

/-- Blanks behind a text lie behind every part of it that ends in another character. -/
theorem exists_append_of_append_eq {front : Text} {c : Char} (hc : isBlank c = false)
    {t rest : Text} (h : t ++ w = front ++ c :: rest) :
    ∃ rest', t = front ++ c :: rest' ∧ rest = rest' ++ w := by
  have hout : c ∉ w := by
    intro hmem
    rw [List.all_eq_true.1 hw c hmem] at hc
    exact Bool.noConfusion hc
  rcases List.append_eq_append_iff.1 h with ⟨u, rfl, rfl⟩ | ⟨u, rfl, hu⟩
  · simp at hout
  · cases u with
    | nil =>
      rw [List.nil_append] at hu
      rw [← hu] at hout
      exact absurd List.mem_cons_self hout
    | cons d u =>
      obtain ⟨rfl, rfl⟩ := List.cons.inj hu
      exact ⟨u, rfl, rfl⟩

theorem callOf?_append_of_blank (body : Text) : callOf? (body ++ w) = callOf? body := by
  refine Option.ext fun c => ?_
  rw [callOf?_eq_some_iff, callOf?_eq_some_iff]
  constructor
  · rintro ⟨group, method, tail, r, hg, hm, hbody, hr, rfl⟩
    have hsplit : body ++ w = (groupStem group ++ (method ++ ['('])) ++ ')' :: tail := by
      simpa using hbody
    obtain ⟨tail', rfl, rfl⟩ := exists_append_of_append_eq hw (by decide) hsplit
    rw [comments?_append_of_blank hw] at hr
    exact ⟨group, method, tail', r, hg, hm, by simp, hr, rfl⟩
  · rintro ⟨group, method, tail, r, hg, hm, rfl, hr, rfl⟩
    exact ⟨group, method, tail ++ w, r, hg, hm, by simp, by rwa [comments?_append_of_blank hw], rfl⟩

/-- Blanks behind a keyword count only if nothing else follows it. -/
theorem keyword?_append_of_blank {word body : Text} (hword : IsName word)
    (hne : body ≠ word) : keyword? word (body ++ w) = keyword? word body := by
  refine Option.ext fun note => ?_
  rw [keyword?_eq_some_iff, keyword?_eq_some_iff]
  constructor
  · rintro ⟨c, rest, hbody, hc, hnote⟩
    rcases List.append_eq_append_iff.1 hbody with ⟨u, rfl, hu⟩ | ⟨u, rfl, hu⟩
    · -- the keyword cannot end among the blanks
      cases u with
      | nil => simp at hne
      | cons d u =>
        have hd : isBlank d = true := List.all_eq_true.1 hw d (by rw [hu]; simp)
        rw [isBlank_of_isNamePart (isNamePart_of_mem hword (by simp))] at hd
        exact Bool.noConfusion hd
    · cases u with
      | nil => simp at hne
      | cons d u =>
        obtain ⟨rfl, rfl⟩ := List.cons.inj hu
        refine ⟨c, u, rfl, hc, ?_⟩
        rwa [← note?_append_of_blank hw]
  · rintro ⟨c, rest, rfl, hc, hnote⟩
    refine ⟨c, rest ++ w, by simp, hc, ?_⟩
    rwa [← List.cons_append, note?_append_of_blank hw]

/-- Blanks behind a keyword are a note that holds nothing. -/
theorem keyword?_blank {word : Text} {c : Char} {rest : Text} (h : w = c :: rest) :
    keyword? word (word ++ w) = some [] := by
  subst h
  have hc : isBlank c = true := List.all_eq_true.1 hw c List.mem_cons_self
  have htrim : Text.trim (c :: rest) = [] := by
    rw [Text.trim, Text.trimStart_eq_nil_iff.2 hw, Text.trimEnd_nil]
  refine keyword?_eq_some_iff.2 ⟨c, rest, rfl, hc, ?_⟩
  rw [note?, htrim, if_neg List.not_mem_nil]

/-- An alternative may lack its note, so blanks behind its keyword do not count. -/
theorem alternative?_append_of_blank (body : Text) :
    alternative? (body ++ w) = alternative? body := by
  by_cases hbody : body = ['e', 'l', 's', 'e']
  · cases hblanks : w with
    | nil => rw [List.append_nil]
    | cons c rest =>
      have hnote : keyword? ['e', 'l', 's', 'e'] (['e', 'l', 's', 'e'] ++ w) = some [] :=
        keyword?_blank hw hblanks
      rw [hblanks] at hnote
      rw [hbody, alternative?, if_neg (by simp), hnote]
      rfl
  · have hlong : body ++ w ≠ ['e', 'l', 's', 'e'] := by
      intro heq
      -- the last character of the keyword would be a blank, unless there are none
      rcases List.eq_nil_or_concat w with rfl | ⟨front, c, rfl⟩
      · exact hbody (by simpa using heq)
      · have hlast := congrArg List.getLast? heq
        have hc : isBlank c = true := List.all_eq_true.1 hw c (by simp)
        obtain rfl : c = 'e' := by simpa [← List.append_assoc] using hlast
        exact absurd hc (by decide)
    rw [alternative?, alternative?, if_neg hbody, if_neg hlong,
      keyword?_append_of_blank hw (by decide) hbody]

theorem ofBody?_append_of_blank {body : Text} (hloop : body ≠ ['l', 'o', 'o', 'p'])
    (hif : body ≠ ['i', 'f']) : Statement.ofBody? (body ++ w) = Statement.ofBody? body := by
  rw [Statement.ofBody?, Statement.ofBody?, callOf?_append_of_blank hw,
    keyword?_append_of_blank hw (by decide) hloop, keyword?_append_of_blank hw (by decide) hif,
    alternative?_append_of_blank hw]

end Blanks

/-! ## Lines -/

theorem isBlank_append_of_blank {w : Text} (hw : Text.isBlank w = true) (line : Text) :
    Text.isBlank (line ++ w) = Text.isBlank line := by
  have hall : w.all isBlank = true := hw
  rw [Text.isBlank, Text.isBlank, List.all_append, hall, Bool.and_true]

theorem indentOf_append_of_not_blank {line : Text} (h : Text.isBlank line = false) (w : Text) :
    indentOf (line ++ w) = indentOf line := by
  induction line with
  | nil => simp [Text.isBlank] at h
  | cons c line ih =>
    by_cases hc : isBlank c = true
    · have hline : Text.isBlank line = false := by
        rwa [Text.isBlank_cons, hc, Bool.true_and] at h
      have htail := ih hline
      simp only [indentOf] at htail
      simp [indentOf, hc, htail]
    · simp [indentOf, hc]

/-- Blanks behind a line lie behind its body. -/
theorem read?_append_eq {line w : Text} (hw : Text.isBlank w = true)
    (h : Text.isBlank line = false) :
    Statement.read? (line ++ w)
      = (Statement.ofBody? (Text.trimStart line ++ w)).map fun s => (indentOf line, s) := by
  rcases Text.trimStart_append_cases hw line with ⟨hl, -⟩ | ⟨c, rest, -, hl, hlw⟩
  · rw [Text.trimStart_eq_nil_iff, h] at hl
    exact Bool.noConfusion hl
  · rw [Statement.read?, hl, hlw, indentOf_append_of_not_blank h, List.cons_append]

/-- What a line says with blanks behind it if it holds nothing but a keyword that demands one. -/
def Statement.ofBareKeyword? (line : Text) : Option Statement :=
  if Text.trimStart line = ['l', 'o', 'o', 'p'] then some (.loop [])
  else if Text.trimStart line = ['i', 'f'] then some (.condition [])
  else none

/-- Blanks behind a line do not count, unless it is a keyword that demands one. -/
theorem read?_append_of_blank {line w : Text} (hw : Text.isBlank w = true)
    (h : Statement.ofBareKeyword? line = none) :
    Statement.read? (line ++ w) = Statement.read? line := by
  cases hblank : Text.isBlank line with
  | true =>
    have hall := isBlank_append_of_blank hw line
    rw [hblank] at hall
    rw [Statement.read?, Statement.read?, Text.trimStart_eq_nil_iff.2 hblank,
      Text.trimStart_eq_nil_iff.2 hall]
    rfl
  | false =>
    have hloop : Text.trimStart line ≠ ['l', 'o', 'o', 'p'] := by
      intro heq
      simp [Statement.ofBareKeyword?, heq] at h
    have hif : Text.trimStart line ≠ ['i', 'f'] := by
      intro heq
      simp [Statement.ofBareKeyword?, heq] at h
    rw [read?_append_eq hw hblank, ofBody?_append_of_blank hw hloop hif, Statement.read?]

/-- The two keywords that demand a blank. -/
theorem bareKeyword_cases {line : Text} {s : Statement}
    (h : Statement.ofBareKeyword? line = some s) :
    Text.trimStart line = ['l', 'o', 'o', 'p'] ∧ s = .loop [] ∨
      Text.trimStart line = ['i', 'f'] ∧ s = .condition [] := by
  unfold Statement.ofBareKeyword? at h
  split at h
  · rename_i hloop
    exact Or.inl ⟨hloop, (Option.some.inj h).symm⟩
  · split at h
    · rename_i hif
      exact Or.inr ⟨hif, (Option.some.inj h).symm⟩
    · simp at h

theorem call?_of_bareKeyword {line : Text} {s : Statement}
    (h : Statement.ofBareKeyword? line = some s) : s.call? = none := by
  rcases bareKeyword_cases h with ⟨-, rfl⟩ | ⟨-, rfl⟩ <;> rfl

/-- Such a keyword says nothing by itself. -/
theorem read?_of_bareKeyword {line : Text} {s : Statement}
    (h : Statement.ofBareKeyword? line = some s) : Statement.read? line = none := by
  rcases bareKeyword_cases h with ⟨hline, -⟩ | ⟨hline, -⟩
  · rw [Statement.read?, hline]
    rfl
  · rw [Statement.read?, hline]
    rfl

/-- With blanks behind it, it opens a region without a note. -/
theorem read?_append_of_bareKeyword {line w : Text} {s : Statement}
    (h : Statement.ofBareKeyword? line = some s) (hw : Text.isBlank w = true) (hne : w ≠ []) :
    Statement.read? (line ++ w) = some (indentOf line, s) := by
  obtain ⟨c, rest, hcons⟩ := List.exists_cons_of_ne_nil hne
  have hblank : Text.isBlank line = false := by
    rw [← Bool.not_eq_true, ← Text.trimStart_eq_nil_iff]
    intro hnil
    simp [Statement.ofBareKeyword?, hnil] at h
  rw [read?_append_eq hw hblank]
  rcases bareKeyword_cases h with ⟨hline, rfl⟩ | ⟨hline, rfl⟩
  · have hcall : callOf? ['l', 'o', 'o', 'p'] = none := rfl
    rw [hline, Statement.ofBody?, callOf?_append_of_blank hw, hcall, keyword?_blank hw hcons]
    rfl
  · have hcall : callOf? ['i', 'f'] = none := rfl
    have hloop : keyword? ['l', 'o', 'o', 'p'] ['i', 'f'] = none := rfl
    rw [hline, Statement.ofBody?, callOf?_append_of_blank hw, hcall,
      keyword?_append_of_blank hw (by decide) (by decide), hloop, keyword?_blank hw hcons]
    rfl

end CallDiagram
