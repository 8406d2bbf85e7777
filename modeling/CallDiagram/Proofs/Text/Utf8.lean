import CallDiagram.Text.Utf8
import Mathlib.Tactic.Common

/-!
# Decoding what was encoded

The bytes of a text are decoded to the text.

* `itemsFrom_encodeChar` — the scanner takes the bytes of a character for that character, in front
  of any others;
* `decode_encode`, `encode_injective` — whole texts.
-/

namespace CallDiagram.Utf8

theorem toNat_ofNat_of_lt {n : Nat} (h : n < 256) : (UInt8.ofNat n).toNat = n :=
  Nat.mod_eq_of_lt h

section Continue

variable {first low high : UInt8} {read beyond bits n : Nat}

theorem between_of_toNat (hlow : low.toNat ≤ n) (hhigh : n ≤ high.toNat) :
    low ≤ UInt8.ofNat n ∧ UInt8.ofNat n ≤ high := by
  have hbyte : n < 256 := Nat.lt_of_le_of_lt hhigh high.toNat_lt
  rw [UInt8.le_iff_toNat_le, UInt8.le_iff_toNat_le, toNat_ofNat_of_lt hbyte]
  exact ⟨hlow, hhigh⟩

/-- The last byte of a character. -/
theorem itemsFrom_last (hlow : low.toNat ≤ n) (hhigh : n ≤ high.toNat) (rest : Bytes) :
    itemsFrom (some ⟨first, read, 0, low, high, bits⟩) (UInt8.ofNat n :: rest)
      = .char (Char.ofNat (bits * 0x40 + n % 0x40)) :: itemsFrom none rest := by
  have hbyte : n < 256 := Nat.lt_of_le_of_lt hhigh high.toNat_lt
  rw [itemsFrom, if_pos (between_of_toNat hlow hhigh), toNat_ofNat_of_lt hbyte]

/-- A byte that continues a character, but does not end it. -/
theorem itemsFrom_next (hlow : low.toNat ≤ n) (hhigh : n ≤ high.toNat) (rest : Bytes) :
    itemsFrom (some ⟨first, read, beyond + 1, low, high, bits⟩) (UInt8.ofNat n :: rest)
      = itemsFrom (some ⟨first, read + 1, beyond, 0x80, 0xBF, bits * 0x40 + n % 0x40⟩) rest := by
  have hbyte : n < 256 := Nat.lt_of_le_of_lt hhigh high.toNat_lt
  rw [itemsFrom, if_pos (between_of_toNat hlow hhigh), toNat_ofNat_of_lt hbyte]

end Continue

/-- The first byte of a character that has others. -/
theorem itemsFrom_start {b : UInt8} {o : Opened} (h : start b = some (.inr o)) (rest : Bytes) :
    itemsFrom none (b :: rest) = itemsFrom (some o) rest := by
  rw [itemsFrom, h]

section Start

variable {n : Nat}

theorem start_of_two (hlow : 0xC2 ≤ n) (hhigh : n < 0xE0) :
    start (UInt8.ofNat n) = some (.inr ⟨UInt8.ofNat n, 1, 0, 0x80, 0xBF, n % 0x20⟩) := by
  rw [start, toNat_ofNat_of_lt (by omega)]
  simp only [if_neg (show ¬ n < 0x80 by omega), if_neg (show ¬ n < 0xC2 by omega), if_pos hhigh]

theorem start_of_three (hlow : 0xE0 ≤ n) (hhigh : n < 0xF0) :
    start (UInt8.ofNat n)
      = some (.inr ⟨UInt8.ofNat n, 1, 1, if n = 0xE0 then 0xA0 else 0x80,
          if n = 0xED then 0x9F else 0xBF, n % 0x10⟩) := by
  rw [start, toNat_ofNat_of_lt (by omega)]
  simp only [if_neg (show ¬ n < 0x80 by omega), if_neg (show ¬ n < 0xC2 by omega),
    if_neg (show ¬ n < 0xE0 by omega), if_pos hhigh]

theorem start_of_four (hlow : 0xF0 ≤ n) (hhigh : n < 0xF5) :
    start (UInt8.ofNat n)
      = some (.inr ⟨UInt8.ofNat n, 1, 2, if n = 0xF0 then 0x90 else 0x80,
          if n = 0xF4 then 0x8F else 0xBF, n % 0x08⟩) := by
  rw [start, toNat_ofNat_of_lt (by omega)]
  simp only [if_neg (show ¬ n < 0x80 by omega), if_neg (show ¬ n < 0xC2 by omega),
    if_neg (show ¬ n < 0xE0 by omega), if_neg (show ¬ n < 0xF0 by omega), if_pos hhigh]

end Start

/-- The bytes of a character are taken for it, in front of any others. -/
theorem itemsFrom_encodeChar (c : Char) (rest : Bytes) :
    itemsFrom none (String.utf8EncodeChar c ++ rest) = .char c :: itemsFrom none rest := by
  have hvalid : c.val.toNat < 0xD800 ∨ 0xDFFF < c.val.toNat ∧ c.val.toNat < 0x110000 := c.valid
  have hself : Char.ofNat c.val.toNat = c := Char.ofNat_toNat c
  unfold String.utf8EncodeChar
  revert hvalid hself
  generalize c.val.toNat = n
  intro hvalid hself
  by_cases h1 : n ≤ 127
  · have hstart : start (UInt8.ofNat n) = some (.inl (Char.ofNat n)) := by
      rw [start, toNat_ofNat_of_lt (by omega)]
      exact if_pos (by omega)
    simp only [if_pos h1, List.singleton_append]
    rw [itemsFrom, hstart, hself]
  · by_cases h2 : n ≤ 2047
    · simp only [if_neg h1, if_pos h2, List.cons_append, List.nil_append]
      rw [itemsFrom_start (start_of_two (by omega) (by omega)),
        itemsFrom_last (by simp) (by simp; omega)]
      have hbits : (n / 64 % 32 + 192) % 0x20 * 0x40 + (n % 64 + 128) % 0x40 = n := by omega
      rw [hbits, hself]
    · by_cases h3 : n ≤ 65535
      · simp only [if_neg h1, if_neg h2, if_pos h3, List.cons_append, List.nil_append]
        rw [itemsFrom_start (start_of_three (by omega) (by omega)),
          itemsFrom_next (by split <;> simp; omega)
            (by split <;> (simp; omega)),
          itemsFrom_last (by simp) (by simp; omega)]
        have hbits : ((n / 4096 % 16 + 224) % 0x10 * 0x40 + (n / 64 % 64 + 128) % 0x40) * 0x40
            + (n % 64 + 128) % 0x40 = n := by omega
        rw [hbits, hself]
      · simp only [if_neg h1, if_neg h2, if_neg h3, List.cons_append, List.nil_append]
        rw [itemsFrom_start (start_of_four (by omega) (by omega)),
          itemsFrom_next (by split <;> simp; omega)
            (by split <;> (simp; omega)),
          itemsFrom_next (by simp) (by simp; omega), itemsFrom_last (by simp) (by simp; omega)]
        have hbits : (((n / 262144 % 8 + 240) % 0x08 * 0x40 + (n / 4096 % 64 + 128) % 0x40) * 0x40
            + (n / 64 % 64 + 128) % 0x40) * 0x40 + (n % 64 + 128) % 0x40 = n := by omega
        rw [hbits, hself]

/-- The bytes of a text are decoded to the text. -/
theorem decode_encode (text : Text) : decode (encode text) = .ok text := by
  have hitems : items (encode text) = text.map .char := by
    induction text with
    | nil => rfl
    | cons c text ih =>
      have hcons : encode (c :: text) = String.utf8EncodeChar c ++ encode text := rfl
      rw [items, hcons, itemsFrom_encodeChar]
      exact congrArg (Item.char c :: ·) ih
  have hcollect : ∀ (text : Text) (position : Nat),
      collect position (text.map .char) = .ok text := by
    intro text
    induction text with
    | nil => exact fun _ => rfl
    | cons c text ih =>
      intro position
      rw [List.map_cons, collect, ih]
      rfl
  rw [decode, hitems, hcollect]

theorem encode_injective : Function.Injective encode := by
  intro s t h
  have hdecode := congrArg decode h
  rw [decode_encode, decode_encode] at hdecode
  exact Except.ok.inj hdecode

theorem encode_append (s t : Text) : encode (s ++ t) = encode s ++ encode t :=
  List.flatMap_append

end CallDiagram.Utf8
