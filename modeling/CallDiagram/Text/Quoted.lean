import CallDiagram.Text.Unprintable

/-!
# Quoted literals

A text between quotes, as messages and compound values show it.  Single quotes are used unless the
text holds a single quote and no double quote.  The backslash, the quote in use and the three usual
control characters have short escapes; every other character without a glyph is written by its
code point in two, four or eight hexadecimal digits.
-/

namespace CallDiagram.Text

/-- The quote that a text is put between. -/
def quoteFor (text : Text) : Char :=
  if '\'' ∈ text ∧ '"' ∉ text then '"' else '\''

/-- A character inside a literal with the given quote. -/
def escape (quote c : Char) : Text :=
  if c = '\\' ∨ c = quote then ['\\', c]
  else if c = '\t' then ['\\', 't']
  else if c = '\n' then ['\\', 'n']
  else if c = '\r' then ['\\', 'r']
  else if isPrintable c then [c]
  else if c.toNat < 0x100 then '\\' :: 'x' :: hex 2 c.toNat
  else if c.toNat < 0x10000 then '\\' :: 'u' :: hex 4 c.toNat
  else '\\' :: 'U' :: hex 8 c.toNat

/-- The quoted literal of a text. -/
def quoted (text : Text) : Text :=
  quoteFor text :: (text.flatMap (escape (quoteFor text)) ++ [quoteFor text])

example : quoted "it's" = ("\"it's\"" : Text) := by decide
example : quoted "both'\"" = ("'both\\'\"'" : Text) := by decide
example : quoted "a\tb\x01\x7f" = ("'a\\tb\\x01\\x7f'" : Text) := by decide

end CallDiagram.Text
