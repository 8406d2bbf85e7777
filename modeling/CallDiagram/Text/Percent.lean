import CallDiagram.Text.Utf8

/-!
# Percent encoding

Links are written with ASCII letters, digits, `_`, `.`, `-`, `~` and the slash as they are, and with
every other character as the percent forms of its UTF-8 bytes.

* `Percent.isPlain` — the bytes that stand for themselves;
* `Percent.encode` — the encoded form of a text;
* `Percent.decode` — the bytes of an encoded text.
-/

namespace CallDiagram.Percent

/-- Whether a character stands for itself. -/
def isPlain (c : Char) : Bool :=
  c.isAlpha || c.isDigit || c == '_' || c == '.' || c == '-' || c == '~' || c == '/'

/-- The percent form of a byte. -/
def escape (b : UInt8) : Text := '%' :: (Text.hex 2 b.toNat).map Char.toUpper

/-- The encoded form of a character. -/
def encodeChar (c : Char) : Text :=
  if isPlain c then [c] else (String.utf8EncodeChar c).flatMap escape

/-- The encoded form of a text. -/
def encode (text : Text) : Text := text.flatMap encodeChar

/-- The bytes of an encoded text; a percent sign without two digits stands for itself. -/
def decode : Text → Bytes
  | [] => []
  | '%' :: a :: b :: rest =>
      match Text.hexValue? a, Text.hexValue? b with
      | some x, some y => UInt8.ofNat (x * 16 + y) :: decode rest
      | _, _ => String.utf8EncodeChar '%' ++ decode (a :: b :: rest)
  | c :: rest => String.utf8EncodeChar c ++ decode rest

end CallDiagram.Percent
