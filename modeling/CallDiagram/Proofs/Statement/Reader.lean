import CallDiagram.Statement.Reader
import CallDiagram.Proofs.Text.Trim
import Mathlib.Data.List.TakeWhile

/-!
# What the reader of lines accepts

* `identifier?_eq_some_iff` — a name is read to its end;
* `callOf?_eq_some_iff` — a call is an optional group, a method, parentheses and comments;
* `commentAndAnswer?_of_no_break`, `comments?_of_no_break` — in a line without line breaks the
  call comment goes up to the first `<`, and the answer is all that follows it;
* `note?_of_no_break`, `keyword?_eq_some_iff` — notes.
-/

namespace CallDiagram

/-! ## Names -/

/-- A name: a character that may start one, then characters that may continue one. -/
def IsName : Text → Prop
  | [] => False
  | c :: rest => isNameStart c = true ∧ rest.all isNamePart = true

instance : DecidablePred IsName
  | [] => isFalse id
  | c :: rest => inferInstanceAs (Decidable (isNameStart c = true ∧ rest.all isNamePart = true))

theorem IsName.ne_nil {name : Text} (h : IsName name) : name ≠ [] := by
  rintro rfl
  exact h

theorem isNamePart_of_mem {name : Text} (h : IsName name) {c : Char} (hc : c ∈ name) :
    isNamePart c = true := by
  cases name with
  | nil => simp at hc
  | cons d rest =>
    rcases List.mem_cons.1 hc with rfl | hc
    · simp [isNamePart, h.1]
    · exact List.all_eq_true.1 h.2 c hc

/-- A name is read to its end. -/
theorem identifier?_eq_some_iff {t name rest : Text} :
    identifier? t = some (name, rest) ↔
      IsName name ∧ t = name ++ rest ∧ ∀ c ∈ rest.head?, isNamePart c = false := by
  constructor
  · intro h
    cases t with
    | nil => simp [identifier?] at h
    | cons c t =>
      by_cases hc : isNameStart c = true
      · simp only [identifier?, hc, if_true, Option.some.injEq, Prod.mk.injEq] at h
        obtain ⟨rfl, rfl⟩ := h
        refine ⟨⟨hc, List.all_takeWhile⟩, by simp, ?_⟩
        intro d hd
        have hnot := List.head?_dropWhile_not isNamePart t
        rw [Option.mem_def.1 hd] at hnot
        exact hnot
      · simp [identifier?, hc] at h
  · rintro ⟨hname, rfl, hrest⟩
    cases name with
    | nil => exact absurd rfl hname.ne_nil
    | cons c name =>
      have htake : rest.takeWhile isNamePart = [] := by
        cases rest with
        | nil => rfl
        | cons d rest => simp [hrest d (by simp)]
      have hdrop : rest.dropWhile isNamePart = rest := by
        cases rest with
        | nil => rfl
        | cons d rest => simp [hrest d (by simp)]
      have htake' : (name ++ rest).takeWhile isNamePart = name ++ rest.takeWhile isNamePart :=
        List.takeWhile_append_of_pos (List.all_eq_true.1 hname.2)
      have hdrop' : (name ++ rest).dropWhile isNamePart = rest.dropWhile isNamePart :=
        List.dropWhile_append_of_pos (List.all_eq_true.1 hname.2)
      simp [identifier?, hname.1, htake, hdrop, htake', hdrop']

/-! ## Calls -/

/-- The spelling of a group in front of a method. -/
def groupStem : Option Text → Text
  | some g => g ++ ['#']
  | none => []

theorem callWith?_eq_some_iff {group : Option Text} {method t : Text} {c : Call} :
    callWith? group method t = some c ↔
      ∃ tail r, t = '(' :: ')' :: tail ∧ comments? tail = some r ∧
        c = { group, method, comment := r.1, answer := r.2 } := by
  unfold callWith?
  split
  · rename_i tail
    simp only [Option.map_eq_some_iff, List.cons.injEq, true_and, eq_comm (b := c)]
    constructor
    · rintro ⟨r, hr, hc⟩
      exact ⟨tail, r, rfl, hr, hc⟩
    · rintro ⟨_, r, rfl, hr, hc⟩
      exact ⟨r, hr, hc⟩
  · rename_i h
    constructor
    · intro hc
      simp at hc
    · rintro ⟨tail, r, rfl, -, -⟩
      exact absurd rfl (h tail)

theorem callOf?_group {group method rest : Text} (hg : IsName group) (hm : IsName method)
    (hrest : ∀ c ∈ rest.head?, isNamePart c = false) :
    callOf? (group ++ '#' :: (method ++ rest)) = callWith? (some group) method rest := by
  have h1 : identifier? (group ++ '#' :: (method ++ rest))
      = some (group, '#' :: (method ++ rest)) :=
    identifier?_eq_some_iff.2 ⟨hg, rfl, by simp; decide⟩
  have h2 : identifier? (method ++ rest) = some (method, rest) :=
    identifier?_eq_some_iff.2 ⟨hm, rfl, hrest⟩
  simp [callOf?, h1, h2]

theorem callOf?_no_group {method tail : Text} (hm : IsName method) :
    callOf? (method ++ '(' :: tail) = callWith? none method ('(' :: tail) := by
  have h : identifier? (method ++ '(' :: tail) = some (method, '(' :: tail) :=
    identifier?_eq_some_iff.2 ⟨hm, rfl, by simp; decide⟩
  simp [callOf?, h]

/-- A call is an optional group, a method, parentheses, and comments. -/
theorem callOf?_eq_some_iff {body : Text} {c : Call} :
    callOf? body = some c ↔
      ∃ group method tail r, (∀ g ∈ group, IsName g) ∧ IsName method ∧
        body = groupStem group ++ (method ++ '(' :: ')' :: tail) ∧ comments? tail = some r ∧
        c = { group, method, comment := r.1, answer := r.2 } := by
  constructor
  · intro h
    unfold callOf? at h
    split at h
    · simp at h
    · rename_i first rest hfirst
      obtain ⟨hg, rfl, -⟩ := identifier?_eq_some_iff.1 hfirst
      split at h
      · rename_i method rest' hmethod
        obtain ⟨hm, rfl, -⟩ := identifier?_eq_some_iff.1 hmethod
        obtain ⟨tail, r, rfl, hr, rfl⟩ := callWith?_eq_some_iff.1 h
        exact ⟨some first, method, tail, r, by simpa using hg, hm, by simp [groupStem], hr, rfl⟩
      · simp at h
    · rename_i method rest _ hmethod
      obtain ⟨hm, rfl, -⟩ := identifier?_eq_some_iff.1 hmethod
      obtain ⟨tail, r, rfl, hr, rfl⟩ := callWith?_eq_some_iff.1 h
      exact ⟨none, method, tail, r, by simp, hm, rfl, hr, rfl⟩
  · rintro ⟨group, method, tail, r, hg, hm, rfl, hr, rfl⟩
    cases group with
    | none =>
      rw [groupStem, List.nil_append, callOf?_no_group hm]
      exact callWith?_eq_some_iff.2 ⟨tail, r, rfl, hr, rfl⟩
    | some g =>
      rw [groupStem, List.append_assoc, List.singleton_append,
        callOf?_group (hg g rfl) hm (by simp; decide)]
      exact callWith?_eq_some_iff.2 ⟨tail, r, rfl, hr, rfl⟩

/-! ## Comments -/

/-- The part of a text in front of the first `<`. -/
def beforeAngle (t : Text) : Text := t.takeWhile (· != '<')

/-- What follows the first `<` of a text. -/
def behindAngle? (t : Text) : Option Text := (t.dropWhile (· != '<')).tail?

theorem beforeAngle_cons_of_ne {c : Char} (h : c ≠ '<') (t : Text) :
    beforeAngle (c :: t) = c :: beforeAngle t := by
  simp [beforeAngle, h]

theorem behindAngle?_cons_of_ne {c : Char} (h : c ≠ '<') (t : Text) :
    behindAngle? (c :: t) = behindAngle? t := by
  simp [behindAngle?, h]

theorem ne_angle_of_isBlank {c : Char} (h : isBlank c = true) : c ≠ '<' := by
  rintro rfl
  exact absurd h (by decide)

theorem angle_trimStart (t : Text) :
    beforeAngle (Text.trimStart t) = Text.trimStart (beforeAngle t) ∧
      behindAngle? (Text.trimStart t) = behindAngle? t := by
  induction t with
  | nil => exact ⟨rfl, rfl⟩
  | cons c t ih =>
    by_cases hb : isBlank c = true
    · have hc := ne_angle_of_isBlank hb
      rw [Text.trimStart_cons_of_blank hb, beforeAngle_cons_of_ne hc,
        Text.trimStart_cons_of_blank hb, behindAngle?_cons_of_ne hc]
      exact ih
    · rw [Text.trimStart_cons_of_not_blank (by simpa using hb)]
      refine ⟨?_, rfl⟩
      by_cases hc : c = '<'
      · subst hc
        rfl
      · rw [beforeAngle_cons_of_ne hc, Text.trimStart_cons_of_not_blank (by simpa using hb)]

theorem note?_of_no_break {t : Text} (h : '\n' ∉ t) : note? t = some (Text.trim t) :=
  if_neg fun hmem => h (Text.mem_of_mem_trim hmem)

/-- A comment can end where nothing but blanks stands in front of the next `<`, or of the end. -/
theorem commentEnd?_of_no_break {t : Text} (h : '\n' ∉ t) :
    commentEnd? t = if Text.isBlank (beforeAngle t) then some ((behindAngle? t).map Text.trim)
      else none := by
  induction t with
  | nil => rfl
  | cons c t ih =>
    have ht : '\n' ∉ t := fun hmem => h (List.mem_cons_of_mem _ hmem)
    by_cases hb : isBlank c = true
    · have hc := ne_angle_of_isBlank hb
      rw [commentEnd?, Text.trimStart_cons_of_blank hb, ← commentEnd?, ih ht,
        beforeAngle_cons_of_ne hc, behindAngle?_cons_of_ne hc, Text.isBlank_cons, hb,
        Bool.true_and]
    · have hb' : isBlank c = false := by simpa using hb
      rw [commentEnd?, Text.trimStart_cons_of_not_blank hb']
      by_cases hc : c = '<'
      · subst hc
        simp [note?_of_no_break ht, beforeAngle, behindAngle?, Text.isBlank]
      · rw [beforeAngle_cons_of_ne hc, Text.isBlank_cons, hb', Bool.false_and,
          if_neg Bool.false_ne_true]
        split <;> simp_all

/-- Without line breaks the call comment goes up to the first `<`, without the blanks in front of
it, and the answer is what follows. -/
theorem commentAndAnswer?_of_no_break {t : Text} (h : '\n' ∉ t) :
    commentAndAnswer? t
      = some (Text.trimEnd (beforeAngle t), (behindAngle? t).map Text.trim) := by
  induction t with
  | nil => rfl
  | cons c t ih =>
    have ht : '\n' ∉ t := fun hmem => h (List.mem_cons_of_mem _ hmem)
    have hn : c ≠ '\n' := fun hc => h (hc ▸ List.mem_cons_self)
    rw [commentAndAnswer?, commentEnd?_of_no_break h]
    by_cases hb : Text.isBlank (beforeAngle (c :: t)) = true
    · rw [if_pos hb, Text.trimEnd_eq_nil_iff.2 hb]
    · have hc : c ≠ '<' := by
        rintro rfl
        exact hb rfl
      rw [if_neg hb, if_neg hn, ih ht, behindAngle?_cons_of_ne hc]
      rw [beforeAngle_cons_of_ne hc] at hb ⊢
      rw [Text.trimEnd_cons, if_neg hb, Option.map_some]

/-- The comments behind the parentheses of a call, in a line without line breaks. -/
theorem comments?_of_no_break {tail : Text} (h : '\n' ∉ tail) :
    comments? tail =
      match Text.trimStart tail with
      | [] => some (none, none)
      | ':' :: rest =>
          some (Text.nonempty? (some (Text.trim (beforeAngle rest))),
            Text.nonempty? ((behindAngle? rest).map Text.trim))
      | '<' :: answer => some (none, Text.nonempty? (some (Text.trim answer)))
      | _ => none := by
  have hstart : '\n' ∉ Text.trimStart tail := fun hmem => h (Text.mem_of_mem_trimStart hmem)
  unfold comments?
  generalize Text.trimStart tail = t at hstart ⊢
  split
  · rfl
  · rename_i rest
    have hrest : '\n' ∉ Text.trimStart rest := fun hmem =>
      hstart (List.mem_cons_of_mem _ (Text.mem_of_mem_trimStart hmem))
    obtain ⟨hbefore, hbehind⟩ := angle_trimStart rest
    rw [commentAndAnswer?_of_no_break hrest, hbefore, hbehind]
    rfl
  · rename_i answer
    rw [note?_of_no_break fun hmem => hstart (List.mem_cons_of_mem _ hmem)]
    rfl
  · simp_all

/-! ## Keywords -/

theorem keyword?_eq_some_iff {word body note : Text} :
    keyword? word body = some note ↔
      ∃ c rest, body = word ++ c :: rest ∧ isBlank c = true ∧ note? (c :: rest) = some note := by
  unfold keyword?
  split
  · rename_i c rest heq
    rw [Text.dropStem?_eq_some] at heq
    subst heq
    by_cases hb : isBlank c = true
    · rw [if_pos hb]
      constructor
      · intro hnote
        exact ⟨c, rest, rfl, hb, hnote⟩
      · rintro ⟨d, rest', heq, -, hnote⟩
        rwa [List.append_cancel_left heq]
    · rw [if_neg hb]
      constructor
      · intro hnote
        simp at hnote
      · rintro ⟨d, rest', heq, hd, -⟩
        obtain ⟨rfl, -⟩ := List.cons.inj (List.append_cancel_left heq)
        exact absurd hd hb
  · rename_i hnone
    constructor
    · intro hnote
      simp at hnote
    · rintro ⟨c, rest, heq, -, -⟩
      exact absurd (Text.dropStem?_eq_some.2 heq) (hnone c rest)

end CallDiagram
