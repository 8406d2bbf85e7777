/-!
# Text

A text is the list of its characters (code points).  Columns, lengths and cuts are counted in
characters throughout this library, and every scanner is a recursion on this list.

* `Text` — the type, with string literals coerced to it;
* `Text.natural`, `Text.integer`, `Text.hex` — numerals;
* `Text.dropStem?`, `Text.dropEnding?` — removing a known beginning or ending;
* `Text.pieces`, `Text.cutLast?` — pieces between separators.
-/

namespace CallDiagram

/-- A text is the list of its characters. -/
abbrev Text := List Char

/-- A string literal stands for the text of its characters. -/
instance : Coe String Text := ⟨String.toList⟩

/-- A byte string, as files and the drawing program hold it. -/
abbrev Bytes := List UInt8

namespace Text

/-! ## Numerals -/

/-- The decimal numeral of a natural number, without leading zeros. -/
def natural (n : Nat) : Text := Nat.toDigits 10 n

/-- The decimal numeral of an integer; a negative one starts with a minus sign. -/
def integer : Int → Text
  | .ofNat n => natural n
  | .negSucc n => '-' :: natural (n + 1)

/-- The value of an ASCII hexadecimal digit of either case. -/
def hexValue? (c : Char) : Option Nat :=
  if '0' ≤ c ∧ c ≤ '9' then some (c.toNat - 48)
  else if 'a' ≤ c ∧ c ≤ 'f' then some (c.toNat - 87)
  else if 'A' ≤ c ∧ c ≤ 'F' then some (c.toNat - 55)
  else none

/-- The last `width` hexadecimal digits of a number, in lower case. -/
def hex : Nat → Nat → Text
  | 0, _ => []
  | width + 1, n => hex width (n / 16) ++ [Nat.digitChar (n % 16)]

/-! ## Beginnings, endings, parts -/

/-- What follows a given beginning; `none` if the text does not begin so. -/
def dropStem? : Text → Text → Option Text
  | [], rest => some rest
  | _ :: _, [] => none
  | a :: stem, c :: rest => if a = c then dropStem? stem rest else none

/-- Whether a text begins with a given text. -/
def startsWith (text stem : Text) : Bool := (dropStem? stem text).isSome

/-- What precedes a given ending; `none` if the text does not end so. -/
def dropEnding? (ending text : Text) : Option Text :=
  (dropStem? ending.reverse text.reverse).map List.reverse

/-- The pieces of a text between the occurrences of a character: one more than there are
occurrences. -/
def pieces (separator : Char) : Text → List Text
  | [] => [[]]
  | c :: rest =>
      if c = separator then [] :: pieces separator rest
      else match pieces separator rest with
        | [] => [[c]]
        | piece :: more => (c :: piece) :: more

/-- The text in front of the last occurrence of a character and the text behind it; `none` if
the character does not occur. -/
def cutLast? (separator : Char) : Text → Option (Text × Text)
  | [] => none
  | c :: rest =>
      match cutLast? separator rest with
      | some (front, back) => some (c :: front, back)
      | none => if c = separator then some ([], rest) else none

/-- An optional text that counts only if it holds a character. -/
def nonempty? : Option Text → Option Text
  | some (c :: rest) => some (c :: rest)
  | _ => none

/-! ## Beginnings and pieces -/

theorem dropStem?_eq_some {stem text rest : Text} :
    dropStem? stem text = some rest ↔ text = stem ++ rest := by
  induction stem generalizing text with
  | nil => simp [dropStem?, eq_comm]
  | cons a stem ih =>
    cases text with
    | nil => simp [dropStem?]
    | cons c text =>
      by_cases h : a = c
      · subst h; simp [dropStem?, ih]
      · have h' : ¬ c = a := fun e => h e.symm
        simp [dropStem?, h, h']

theorem dropEnding?_eq_some {ending text front : Text} :
    dropEnding? ending text = some front ↔ text = front ++ ending := by
  simp only [dropEnding?, Option.map_eq_some_iff, dropStem?_eq_some]
  constructor
  · rintro ⟨a, ha, rfl⟩
    have := congrArg List.reverse ha
    simpa using this
  · rintro rfl
    exact ⟨front.reverse, by simp, by simp⟩

end Text

end CallDiagram
