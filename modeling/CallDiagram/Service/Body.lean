import CallDiagram.Json.Room
import CallDiagram.Text.Utf16
import CallDiagram.Text.Utf32
import CallDiagram.Text.Utf8

/-!
# Request bodies

A request says what it wants in a JSON object.  The encoding of the body is told from its byte order
mark or, as JSON starts with an ASCII character, from the zeros among its first four bytes.

* `Encoding`, `Encoding.detect` — the encoding of a body, and the body without its mark;
* `BodyError`, `readBody` — the JSON value of a body.
-/

namespace CallDiagram

/-- An encoding of a body. -/
inductive Encoding where
  /-- UTF-8. -/
  | utf8
  /-- UTF-16. -/
  | utf16 (bigEndian : Bool)
  /-- UTF-32. -/
  | utf32 (bigEndian : Bool)
  deriving DecidableEq, Repr

namespace Encoding

/-- The encoding of a body without a mark. -/
def ofZeros : Bytes → Encoding
  | [a, b] => if a = 0 then .utf16 true else if b = 0 then .utf16 false else .utf8
  | a :: b :: c :: d :: _ =>
      if a = 0 then (if b ≠ 0 then .utf16 true else .utf32 true)
      else if b = 0 then (if c ≠ 0 || d ≠ 0 then .utf16 false else .utf32 false)
      else .utf8
  | _ => .utf8

/-- The encoding of a body, and the body without its mark. -/
def detect (body : Bytes) : Encoding × Bytes :=
  match body with
  | 0x00 :: 0x00 :: 0xFE :: 0xFF :: rest => (.utf32 true, rest)
  | 0xFF :: 0xFE :: 0x00 :: 0x00 :: rest => (.utf32 false, rest)
  | 0xFE :: 0xFF :: rest => (.utf16 true, rest)
  | 0xFF :: 0xFE :: rest => (.utf16 false, rest)
  | 0xEF :: 0xBB :: 0xBF :: rest => (.utf8, rest)
  | body => (ofZeros body, body)

/-- The text of bytes in an encoding. -/
def decode? : Encoding → Bytes → Option Text
  | .utf8, bytes => (Utf8.decode bytes).toOption
  | .utf16 bigEndian, bytes => Utf16.decode? bigEndian bytes
  | .utf32 bigEndian, bytes => Utf32.decode? bigEndian bytes

end Encoding

/-- Why a body has no value. -/
inductive BodyError where
  /-- It is not JSON. -/
  | notJson
  /-- There is no room for its levels. -/
  | tooDeep
  deriving DecidableEq, Repr

/-- The error for a body whose text has no value. -/
def BodyError.ofRead : Json.ReadError → BodyError
  | .refused _ => .notJson
  | .tooDeep _ => .tooDeep

/-- The JSON value of a body, as far as there is room for its levels. -/
def readBody (room : Option Nat) (body : Bytes) : Except BodyError Json :=
  let (encoding, bytes) := Encoding.detect body
  match encoding.decode? bytes with
  | some text => (Json.readWithin room text).mapError .ofRead
  | none => .error .notJson

end CallDiagram
