import CallDiagram.Json.Basic
import CallDiagram.Text.Utf16

/-!
# Writing JSON

Two layouts are in use.  The compact one has no blanks and leaves every character beyond the
control characters as it is; the indented one puts each item on a line of its own, two columns per
level, and is pure ASCII: other characters are written as escapes of their UTF-16 units.

* `Json.Style` — what the layouts differ in;
* `Json.write` — a value in a style;
* `Json.compact`, `Json.indented` — the two layouts.
-/

namespace CallDiagram.Json

/-- The choices of a layout. -/
structure Style where
  /-- A character inside a text. -/
  escape : Char → Text
  /-- What stands in front of an item, given its level. -/
  lead : Nat → Text
  /-- What stands between a key and its value. -/
  colon : Text

/-- An escape of one UTF-16 unit. -/
def unitEscape (n : Nat) : Text := '\\' :: 'u' :: Text.hex 4 n

/-- The escapes that both layouts share: quote, backslash and control characters. -/
def commonEscape? (c : Char) : Option Text :=
  if c = '"' ∨ c = '\\' then some ['\\', c]
  else if c = '\n' then some ['\\', 'n']
  else if c = '\r' then some ['\\', 'r']
  else if c = '\t' then some ['\\', 't']
  else if c = '\x0c' then some ['\\', 'f']
  else if c = '\x08' then some ['\\', 'b']
  else if c.toNat < 0x20 then some (unitEscape c.toNat)
  else none

/-- Escapes for quote, backslash and control characters only. -/
def plainEscape (c : Char) : Text := (commonEscape? c).getD [c]

/-- Escapes for everything but printable ASCII; beyond the first plane as a surrogate pair. -/
def asciiEscape (c : Char) : Text :=
  match commonEscape? c with
  | some t => t
  | none =>
      if c.toNat < 0x7F then [c] else (Utf16.units c).flatMap unitEscape

/-- No blanks, and characters as they are. -/
def Style.compact : Style := ⟨plainEscape, fun _ => [], [':']⟩

/-- One item a line, two columns per level, in ASCII. -/
def Style.indented : Style :=
  ⟨asciiEscape, fun level => '\n' :: List.replicate (2 * level) ' ', [':', ' ']⟩

/-- A text between double quotes. -/
def writeText (style : Style) (s : Text) : Text := '"' :: (s.flatMap style.escape ++ ['"'])

/-- A number of the format; the three that it lacks have names. -/
def writeReal : Binary64 → Text
  | .nan => "NaN"
  | .infinite false => "Infinity"
  | .infinite true => "-Infinity"
  | x => x.full

mutual

/-- A value at a level. -/
def write (style : Style) (level : Nat) : Json → Text
  | .null => "null"
  | .bool true => "true"
  | .bool false => "false"
  | .int n => Text.integer n
  | .real x => writeReal x
  | .str s => writeText style s
  | .list [] => ['[', ']']
  | .list (item :: items) =>
      '[' :: (style.lead (level + 1) ++ write style (level + 1) item
        ++ writeItems style level items)
  | .object [] => ['{', '}']
  | .object ((key, value) :: fields) =>
      '{' :: (style.lead (level + 1) ++ writeText style key ++ style.colon
        ++ write style (level + 1) value ++ writeFields style level fields)

/-- The items behind the first, and the closing bracket. -/
def writeItems (style : Style) (level : Nat) : List Json → Text
  | [] => style.lead level ++ [']']
  | item :: items =>
      ',' :: (style.lead (level + 1) ++ write style (level + 1) item
        ++ writeItems style level items)

/-- The fields behind the first, and the closing brace. -/
def writeFields (style : Style) (level : Nat) : List (Text × Json) → Text
  | [] => style.lead level ++ ['}']
  | (key, value) :: fields =>
      ',' :: (style.lead (level + 1) ++ writeText style key ++ style.colon
        ++ write style (level + 1) value ++ writeFields style level fields)

end

/-- The compact form of a value. -/
def compact (value : Json) : Text := write .compact 0 value

/-- The indented form of a value. -/
def indented (value : Json) : Text := write .indented 0 value

end CallDiagram.Json
