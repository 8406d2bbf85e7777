import CallDiagram.Text.Basic

/-!
# UTF-8

Encoding, and one scanner for decoding: it cuts a byte string into *items*, each a character or a
damaged run of bytes.  A damaged run is as long as the beginning of a character it could have been.
Strict decoding refuses the first damaged item and says where and why; tolerant decoding puts the
replacement character in its place.

* `Utf8.encode` — the bytes of a text;
* `Utf8.items` — the scanner;
* `Utf8.decode`, `Utf8.decodeTolerant` — its two readings;
* `Utf8.Damage.message` — the wording of a refusal.
-/

namespace CallDiagram.Utf8

/-- The bytes of a text. -/
def encode (text : Text) : Bytes := text.flatMap String.utf8EncodeChar

/-- Why some bytes are no character. -/
inductive Flaw where
  /-- No character starts with this byte. -/
  | invalidStart
  /-- The next byte does not continue the character. -/
  | invalidContinuation
  /-- The bytes end inside a character. -/
  | unexpectedEnd
  deriving DecidableEq, Repr

/-- The wording of a flaw. -/
def Flaw.message : Flaw → Text
  | .invalidStart => "invalid start byte"
  | .invalidContinuation => "invalid continuation byte"
  | .unexpectedEnd => "unexpected end of data"

/-- A piece of a byte string: a character, or a damaged run given by its first byte and length. -/
inductive Item where
  /-- A well-formed character. -/
  | char (c : Char)
  /-- Bytes that are no character. -/
  | damaged (first : UInt8) (length : Nat) (flaw : Flaw)
  deriving DecidableEq, Repr

/-- The number of bytes of an item. -/
def Item.length : Item → Nat
  | .char c => c.utf8Size
  | .damaged _ n _ => n

/-- A character whose first bytes have been read. -/
structure Opened where
  /-- The first byte. -/
  first : UInt8
  /-- How many bytes have been read. -/
  read : Nat
  /-- How many continuation bytes are to come after the next one. -/
  beyond : Nat
  /-- The least next byte. -/
  low : UInt8
  /-- The greatest next byte. -/
  high : UInt8
  /-- The payload bits so far. -/
  bits : Nat
  deriving DecidableEq, Repr

/-- What a byte does at the start of a character: it is one, it opens one, or neither (`none`).
The bounds of the second byte exclude overlong forms, surrogates and code points beyond the last. -/
def start (b : UInt8) : Option (Char ⊕ Opened) :=
  let n := b.toNat
  if n < 0x80 then some (.inl (Char.ofNat n))
  else if n < 0xC2 then none
  else if n < 0xE0 then some (.inr ⟨b, 1, 0, 0x80, 0xBF, n % 0x20⟩)
  else if n < 0xF0 then
    some (.inr ⟨b, 1, 1, if n = 0xE0 then 0xA0 else 0x80, if n = 0xED then 0x9F else 0xBF,
      n % 0x10⟩)
  else if n < 0xF5 then
    some (.inr ⟨b, 1, 2, if n = 0xF0 then 0x90 else 0x80, if n = 0xF4 then 0x8F else 0xBF,
      n % 0x08⟩)
  else none

/-- The items of a byte string behind a character that may have been opened. -/
def itemsFrom : Option Opened → Bytes → List Item
  | none, [] => []
  | some o, [] => [.damaged o.first o.read .unexpectedEnd]
  | none, b :: rest =>
      match start b with
      | some (.inl c) => .char c :: itemsFrom none rest
      | some (.inr o) => itemsFrom (some o) rest
      | none => .damaged b 1 .invalidStart :: itemsFrom none rest
  | some o, b :: rest =>
      if o.low ≤ b ∧ b ≤ o.high then
        let bits := o.bits * 0x40 + b.toNat % 0x40
        match o.beyond with
        | 0 => .char (Char.ofNat bits) :: itemsFrom none rest
        | k + 1 => itemsFrom (some ⟨o.first, o.read + 1, k, 0x80, 0xBF, bits⟩) rest
      else
        .damaged o.first o.read .invalidContinuation ::
          match start b with
          | some (.inl c) => .char c :: itemsFrom none rest
          | some (.inr o) => itemsFrom (some o) rest
          | none => .damaged b 1 .invalidStart :: itemsFrom none rest

/-- The items of a byte string. -/
def items (bytes : Bytes) : List Item := itemsFrom none bytes

/-- The first damaged run of a byte string and its position. -/
structure Damage where
  /-- The number of bytes in front of the run. -/
  position : Nat
  /-- The first byte of the run. -/
  first : UInt8
  /-- The number of bytes of the run. -/
  length : Nat
  /-- What is wrong with it. -/
  flaw : Flaw
  deriving DecidableEq, Repr

/-- The wording of a refusal: one byte is shown with its value, several with their positions. -/
def Damage.message (d : Damage) : Text :=
  if d.length = 1 then
    "'utf-8' codec can't decode byte 0x" ++ Text.hex 2 d.first.toNat ++ " in position "
      ++ Text.natural d.position ++ ": " ++ d.flaw.message
  else
    "'utf-8' codec can't decode bytes in position " ++ Text.natural d.position ++ "-"
      ++ Text.natural (d.position + d.length - 1) ++ ": " ++ d.flaw.message

/-- The characters of items behind `position` bytes, or the first damaged one. -/
def collect (position : Nat) : List Item → Except Damage Text
  | [] => .ok []
  | .char c :: rest => (collect (position + c.utf8Size) rest).map (c :: ·)
  | .damaged first length flaw :: _ => .error ⟨position, first, length, flaw⟩

/-- Strict decoding. -/
def decode (bytes : Bytes) : Except Damage Text := collect 0 (items bytes)

/-- Decoding with the replacement character for every damaged run. -/
def decodeTolerant (bytes : Bytes) : Text :=
  (items bytes).map fun
    | .char c => c
    | .damaged .. => '\uFFFD'

end CallDiagram.Utf8
