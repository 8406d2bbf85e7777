import CallDiagram.Text.Basic

/-!
# UTF-16

Characters beyond the first plane are two units, a high and a low surrogate.  A surrogate without
its partner is no character.

* `Utf16.units` — the units of a character;
* `Utf16.join` — the characters of units, with the replacement character for lone surrogates;
* `Utf16.decode?` — the text of a byte string in either byte order, if it has one.
-/

namespace CallDiagram.Utf16

/-- Whether a unit is the first of a pair. -/
def isHigh (n : Nat) : Bool := 0xD800 ≤ n && n < 0xDC00

/-- Whether a unit is the second of a pair. -/
def isLow (n : Nat) : Bool := 0xDC00 ≤ n && n < 0xE000

/-- Whether a unit needs a partner. -/
def isSurrogate (n : Nat) : Bool := isHigh n || isLow n

/-- The units of a character. -/
def units (c : Char) : List Nat :=
  if c.toNat < 0x10000 then [c.toNat]
  else [0xD800 + (c.toNat - 0x10000) / 0x400, 0xDC00 + (c.toNat - 0x10000) % 0x400]

/-- The character of a pair. -/
def ofPair (high low : Nat) : Char :=
  Char.ofNat (0x10000 + (high - 0xD800) * 0x400 + (low - 0xDC00))

/-- The character of a unit without a partner. -/
def ofSingle (n : Nat) : Char := if isSurrogate n then '\uFFFD' else Char.ofNat n

/-- The characters of code points and units; a surrogate without its partner becomes the
replacement character. -/
def join : List Nat → Text
  | [] => []
  | [n] => [ofSingle n]
  | n :: m :: rest =>
      if isHigh n && isLow m then ofPair n m :: join rest else ofSingle n :: join (m :: rest)

/-- Whether every surrogate among some units has its partner. -/
def isPaired : List Nat → Bool
  | [] => true
  | [n] => !isSurrogate n
  | n :: m :: rest =>
      if isHigh n && isLow m then isPaired rest else !isSurrogate n && isPaired (m :: rest)

/-- The units of a byte string. -/
def unitsOfBytes? (bigEndian : Bool) : Bytes → Option (List Nat)
  | [] => some []
  | [_] => none
  | a :: b :: rest =>
      (unitsOfBytes? bigEndian rest).map
        ((if bigEndian then a.toNat * 0x100 + b.toNat else b.toNat * 0x100 + a.toNat) :: ·)

/-- The text of a byte string. -/
def decode? (bigEndian : Bool) (bytes : Bytes) : Option Text :=
  ((unitsOfBytes? bigEndian bytes).filter isPaired).map join

example : units '😀' = [0xD83D, 0xDE00] := by decide
example : join [0x61, 0xD83D, 0xDE00, 0xD83D] = ['a', '😀', '\uFFFD'] := by decide

end CallDiagram.Utf16
