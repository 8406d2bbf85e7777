import CallDiagram.Text.Basic

/-!
# Lines of a text

A line ends at any of the ten line terminators, or at the two characters `\r\n` together; a
terminator at the very end opens no further line.

* `Text.lines` — the lines without their terminators;
* `Text.unifyBreaks` — what a file reader does first: `\r\n` and `\r` become `\n`;
* `not_isLineEnd_of_mem_lines` — no line holds a terminator.
-/

namespace CallDiagram

/-- Whether a character ends a line. -/
def isLineEnd (c : Char) : Bool :=
  c ∈ ['\n', '\r', '\x0b', '\x0c', '\x1c', '\x1d', '\x1e', '\u0085', '\u2028', '\u2029']

namespace Text

/-- A character in front of the first of some lines. -/
def ontoFirst (c : Char) : List Text → List Text
  | [] => [[c]]
  | line :: more => (c :: line) :: more

/-- The lines of a text, without their terminators. -/
def lines : Text → List Text
  | [] => []
  | '\r' :: '\n' :: rest => [] :: lines rest
  | c :: rest => if isLineEnd c then [] :: lines rest else ontoFirst c (lines rest)

/-- The text with every `\r\n` and every other `\r` replaced by `\n`. -/
def unifyBreaks : Text → Text
  | [] => []
  | '\r' :: '\n' :: rest => '\n' :: unifyBreaks rest
  | c :: rest => (if c = '\r' then '\n' else c) :: unifyBreaks rest

/-! ## Lines hold no terminator -/

theorem not_isLineEnd_of_mem_lines {text line : Text} {c : Char} (hl : line ∈ lines text)
    (hc : c ∈ line) : isLineEnd c = false := by
  fun_induction lines text generalizing line with
  | case1 => simp at hl
  | case2 rest ih =>
    rcases List.mem_cons.1 hl with rfl | hl
    · simp at hc
    · exact ih hl hc
  | case3 d rest _ hd ih =>
    rcases List.mem_cons.1 hl with rfl | hl
    · simp at hc
    · exact ih hl hc
  | case4 d rest _ hd ih =>
    cases hr : lines rest with
    | nil =>
      simp [hr, ontoFirst] at hl
      subst hl
      simp at hc
      subst hc
      simpa using hd
    | cons first more =>
      simp only [hr, ontoFirst, List.mem_cons] at hl
      rcases hl with rfl | hl
      · rcases List.mem_cons.1 hc with rfl | hc
        · simpa using hd
        · exact ih (by simp [hr]) hc
      · exact ih (by simp [hr, hl]) hc

end Text

end CallDiagram
