import CallDiagram.Text.Basic

/-!
# UTF-32

Every character is one number of four bytes, in either byte order.
-/

namespace CallDiagram.Utf32

/-- The character of a code point, if it is one. -/
def char? (n : Nat) : Option Char := if n.isValidChar then some (Char.ofNat n) else none

/-- The text of a byte string. -/
def decode? (bigEndian : Bool) : Bytes → Option Text
  | [] => some []
  | a :: b :: c :: d :: rest => do
      let n :=
        if bigEndian then ((a.toNat * 0x100 + b.toNat) * 0x100 + c.toNat) * 0x100 + d.toNat
        else ((d.toNat * 0x100 + c.toNat) * 0x100 + b.toNat) * 0x100 + a.toNat
      let first ← char? n
      (decode? bigEndian rest).map (first :: ·)
  | _ => none

end CallDiagram.Utf32
