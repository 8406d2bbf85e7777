import CallDiagram.Text.Basic

/-!
# Blank characters

The characters with the Unicode property of white space, the four information separators
U+001C to U+001F included.  Line classification, trimming and the reading of numbers all use this
one class.

* `isBlank` — the class, as a table of ranges;
* `Text.trimStart`, `Text.trimEnd`, `Text.trim` — removing blanks at the ends.
-/

namespace CallDiagram

/-- The ranges of blank characters. -/
def blankRanges : List (Nat × Nat) :=
  [(0x09, 0x0D), (0x1C, 0x20), (0x85, 0x85), (0xA0, 0xA0), (0x1680, 0x1680), (0x2000, 0x200A),
   (0x2028, 0x2029), (0x202F, 0x202F), (0x205F, 0x205F), (0x3000, 0x3000)]

/-- Whether a code point lies in one of the ranges of a table. -/
def inRanges (ranges : List (Nat × Nat)) (n : Nat) : Bool :=
  ranges.any fun r => r.1 ≤ n && n ≤ r.2

/-- Whether a character is white space. -/
def isBlank (c : Char) : Bool := inRanges blankRanges c.toNat

namespace Text

/-- The text without the blanks it starts with. -/
def trimStart (text : Text) : Text := text.dropWhile isBlank

/-- The text without the blanks it ends with. -/
def trimEnd (text : Text) : Text := (text.reverse.dropWhile isBlank).reverse

/-- The text without blanks at either end. -/
def trim (text : Text) : Text := trimEnd (trimStart text)

/-- Whether a text holds nothing but blanks. -/
def isBlank (text : Text) : Bool := text.all CallDiagram.isBlank

end Text

end CallDiagram
