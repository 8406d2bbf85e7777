import CallDiagram.Text.Basic

/-!
# Words of a command

A command is cut into words as a shell does it.  Blanks separate words; a pair of single quotes
keeps everything between, a pair of double quotes everything but escaped quotes and backslashes; a
backslash outside quotes keeps the next character.  An empty pair of quotes is an empty word.

* `WordError` — the two ways in which a command can be incomplete;
* `wordsFrom` — the scanner, by what is open and the word begun;
* `words?` — the words of a command.
-/

namespace CallDiagram

/-- Why a command has no words. -/
inductive WordError where
  /-- A quote is not closed. -/
  | noClosingQuotation
  /-- The command ends in a backslash. -/
  | noEscapedCharacter
  deriving DecidableEq, Repr

/-- The wording of the error. -/
def WordError.message : WordError → Text
  | .noClosingQuotation => "No closing quotation"
  | .noEscapedCharacter => "No escaped character"

/-- What is open at a place of a command. -/
inductive Quoting where
  /-- Nothing. -/
  | plain
  /-- A quote. -/
  | quoted (quote : Char)
  /-- A backslash, inside the quote given. -/
  | escaped (quote : Option Char)
  deriving DecidableEq, Repr

/-- The characters that separate words. -/
def isWordGap (c : Char) : Bool := c = ' ' || c = '\t' || c = '\r' || c = '\n'

/-- The word begun, with more characters. -/
def extend (word : Option Text) (more : Text) : Option Text := some (word.getD [] ++ more)

/-- The words of the rest of a command behind a word begun, if there is one. -/
def wordsFrom : Quoting → Option Text → Text → Except WordError (List Text)
  | .plain, word, [] => .ok word.toList
  | .quoted _, _, [] => .error .noClosingQuotation
  | .escaped _, _, [] => .error .noEscapedCharacter
  | .plain, word, c :: rest =>
      if isWordGap c then (wordsFrom .plain none rest).map (word.toList ++ ·)
      else if c = '\\' then wordsFrom (.escaped none) word rest
      else if c = '\'' ∨ c = '"' then wordsFrom (.quoted c) (extend word []) rest
      else wordsFrom .plain (extend word [c]) rest
  | .quoted q, word, c :: rest =>
      if c = q then wordsFrom .plain word rest
      else if c = '\\' ∧ q = '"' then wordsFrom (.escaped (some q)) word rest
      else wordsFrom (.quoted q) (extend word [c]) rest
  | .escaped none, word, c :: rest => wordsFrom .plain (extend word [c]) rest
  | .escaped (some q), word, c :: rest =>
      wordsFrom (.quoted q) (extend word (if c = '\\' ∨ c = q then [c] else ['\\', c])) rest

/-- The words of a command. -/
def words? (command : Text) : Except WordError (List Text) := wordsFrom .plain none command

end CallDiagram
