import CallDiagram.Statement.Basic
import CallDiagram.Text.Blank

/-!
# Reading a line

A line is its leading blanks, which give its indent, and a body.  The body is tried as a call, then
as the head of a loop, a condition and an alternative.  Blanks around comments and notes do not
count; comments and notes hold no line break, though the blanks around them may.

* `identifier?` — a name: a letter, `_` or `$`, then those and digits;
* `comments?` — the comments behind the parentheses of a call;
* `Statement.ofBody?`, `Statement.read?` — a body, and a whole line with its indent.
-/

namespace CallDiagram

/-! ## Names -/

/-- Whether a character may start a name. -/
def isNameStart (c : Char) : Bool := c.isAlpha || c == '_' || c == '$'

/-- Whether a character may continue a name. -/
def isNamePart (c : Char) : Bool := isNameStart c || c.isDigit

/-- The name at the start of a text, and what follows it. -/
def identifier? : Text → Option (Text × Text)
  | [] => none
  | c :: rest =>
      if isNameStart c then some (c :: rest.takeWhile isNamePart, rest.dropWhile isNamePart)
      else none

/-! ## Comments -/

/-- The text without blanks at its ends, unless a line break remains inside. -/
def note? (text : Text) : Option Text :=
  if '\n' ∈ Text.trim text then none else some (Text.trim text)

/-- How a comment can end: at blanks up to the end of the line (`some none`), or at a `<` with an
answer behind it. -/
def commentEnd? (text : Text) : Option (Option Text) :=
  match Text.trimStart text with
  | [] => some none
  | '<' :: answer => (note? answer).map some
  | _ => none

/-- A call comment, without blanks in front, and the answer behind it.  The comment ends at the
first place where it can and holds no line break. -/
def commentAndAnswer? : Text → Option (Text × Option Text)
  | [] => some ([], none)
  | c :: rest =>
      match commentEnd? (c :: rest) with
      | some answer => some ([], answer)
      | none =>
          if c = '\n' then none
          else (commentAndAnswer? rest).map fun r => (c :: r.1, r.2)

/-- The comment and the answer behind the parentheses of a call; empty ones are absent. -/
def comments? (tail : Text) : Option (Option Text × Option Text) :=
  match Text.trimStart tail with
  | [] => some (none, none)
  | ':' :: rest =>
      (commentAndAnswer? (Text.trimStart rest)).map fun r =>
        (Text.nonempty? (some r.1), Text.nonempty? r.2)
  | '<' :: answer => (note? answer).map fun t => (none, Text.nonempty? (some t))
  | _ => none

/-! ## Statements -/

/-- The call with a group and a method, given what follows the method. -/
def callWith? (group : Option Text) (method : Text) : Text → Option Call
  | '(' :: ')' :: tail =>
      (comments? tail).map fun r => { group, method, comment := r.1, answer := r.2 }
  | _ => none

/-- A body that is a call. -/
def callOf? (body : Text) : Option Call :=
  match identifier? body with
  | none => none
  | some (first, '#' :: rest) =>
      match identifier? rest with
      | some (method, rest) => callWith? (some first) method rest
      | none => none
  | some (method, rest) => callWith? none method rest

/-- The note behind a keyword and at least one blank. -/
def keyword? (word body : Text) : Option Text :=
  match Text.dropStem? word body with
  | some (c :: rest) => if isBlank c then note? (c :: rest) else none
  | _ => none

/-- The note behind `else`: absent at the end of the line or if only blanks follow. -/
def alternative? (body : Text) : Option (Option Text) :=
  if body = ['e', 'l', 's', 'e'] then some none
  else (keyword? ['e', 'l', 's', 'e'] body).map fun t => Text.nonempty? (some t)

/-- The statement of a body. -/
def Statement.ofBody? (body : Text) : Option Statement :=
  (callOf? body).map .call
    <|> (keyword? ['l', 'o', 'o', 'p'] body).map .loop
    <|> (keyword? ['i', 'f'] body).map .condition
    <|> (alternative? body).map .alternative

/-- The indent of a line: the number of its leading blanks. -/
def indentOf (line : Text) : Nat := (line.takeWhile isBlank).length

/-- The indent and the statement of a line. -/
def Statement.read? (line : Text) : Option (Nat × Statement) :=
  (Statement.ofBody? (Text.trimStart line)).map fun s => (indentOf line, s)

end CallDiagram
