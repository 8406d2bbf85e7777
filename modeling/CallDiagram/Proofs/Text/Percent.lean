import CallDiagram.Text.Percent
import CallDiagram.Proofs.Text.Utf8

/-!
# Percent forms are read back

* `decode_escape` — the percent form of a byte;
* `decode_encode`, `encode_eq_encode_iff` — an encoded text stands for the bytes of the text, and
  for no other text;
* `isPlain_of_mem_encode`, `not_mem_encode` — the characters that an encoded text holds.
-/

namespace CallDiagram.Percent

/-- The two digits of a percent form are those of its byte. -/
theorem exists_digits {n : Nat} (h : n < 256) :
    ∃ a b, (Text.hex 2 n).map Char.toUpper = [a, b] ∧ Text.hexValue? a = some (n / 16) ∧
      Text.hexValue? b = some (n % 16) := by
  have hall : ∀ d : Fin 16, Text.hexValue? (Nat.digitChar d).toUpper = some d.val := by decide
  have hdigit : ∀ d, d < 16 → Text.hexValue? (Nat.digitChar d).toUpper = some d :=
    fun d hd => hall ⟨d, hd⟩
  refine ⟨_, _, rfl, ?_, hdigit _ (Nat.mod_lt _ (by decide))⟩
  rw [Nat.mod_eq_of_lt (by omega : n / 16 < 16)]
  exact hdigit _ (by omega)

theorem decode_escape (b : UInt8) (rest : Text) : decode (escape b ++ rest) = b :: decode rest := by
  obtain ⟨high, low, hdigits, hhigh, hlow⟩ := exists_digits b.toNat_lt
  have hbyte : UInt8.ofNat (b.toNat / 16 * 16 + b.toNat % 16) = b := by
    rw [Nat.div_add_mod']
    exact UInt8.ofNat_toNat
  rw [escape, hdigits]
  show decode ('%' :: high :: low :: rest) = b :: decode rest
  simp only [decode, hhigh, hlow, hbyte]

theorem decode_flatMap_escape (bytes : List UInt8) (rest : Text) :
    decode (bytes.flatMap escape ++ rest) = bytes ++ decode rest := by
  induction bytes with
  | nil => rfl
  | cons b bytes ih =>
    rw [List.flatMap_cons, List.append_assoc, decode_escape, ih, List.cons_append]

/-- A character other than the percent sign stands for itself. -/
theorem decode_cons {c : Char} (h : c ≠ '%') (rest : Text) :
    decode (c :: rest) = String.utf8EncodeChar c ++ decode rest := by
  rw [decode]
  rintro a b rest rfl
  exact absurd rfl h

/-- An encoded text stands for the bytes of the text. -/
theorem decode_encode (text : Text) : decode (encode text) = Utf8.encode text := by
  induction text with
  | nil => rfl
  | cons c text ih =>
    have hencode : encode (c :: text) = encodeChar c ++ encode text := rfl
    have hbytes : Utf8.encode (c :: text) = String.utf8EncodeChar c ++ Utf8.encode text := rfl
    rw [hencode, hbytes, encodeChar]
    by_cases hc : isPlain c = true
    · have hpercent : c ≠ '%' := by
        rintro rfl
        exact absurd hc (by decide)
      rw [if_pos hc, List.singleton_append, decode_cons hpercent, ih]
    · rw [if_neg hc, decode_flatMap_escape, ih]

/-- Texts with one encoded form are the same. -/
theorem encode_eq_encode_iff {text other : Text} : encode text = encode other ↔ text = other := by
  refine ⟨fun h => Utf8.encode_injective ?_, congrArg encode⟩
  rw [← decode_encode, h, decode_encode]

theorem isPlain_of_mem_escape {b : UInt8} {c : Char} (h : c ∈ escape b) :
    c = '%' ∨ isPlain c = true := by
  have hdigit : ∀ d : Fin 16, isPlain (Nat.digitChar d).toUpper = true := by decide
  have hdigits : (Text.hex 2 b.toNat).map Char.toUpper
      = [(Nat.digitChar (b.toNat / 16 % 16)).toUpper, (Nat.digitChar (b.toNat % 16)).toUpper] := rfl
  rw [escape, hdigits] at h
  simp only [List.mem_cons, List.not_mem_nil, or_false] at h
  rcases h with rfl | rfl | rfl
  · exact Or.inl rfl
  · exact Or.inr (hdigit ⟨_, Nat.mod_lt _ (by decide)⟩)
  · exact Or.inr (hdigit ⟨_, Nat.mod_lt _ (by decide)⟩)

/-- An encoded text holds percent signs and characters that stand for themselves. -/
theorem isPlain_of_mem_encode {text : Text} {c : Char} (h : c ∈ encode text) :
    c = '%' ∨ isPlain c = true := by
  obtain ⟨d, -, h⟩ := List.mem_flatMap.1 h
  rw [encodeChar] at h
  split at h
  · obtain rfl := List.mem_singleton.1 h
    exact Or.inr (by assumption)
  · obtain ⟨b, -, h⟩ := List.mem_flatMap.1 h
    exact isPlain_of_mem_escape h

theorem not_mem_encode {c : Char} (hc : isPlain c = false) (hpercent : c ≠ '%') (text : Text) :
    c ∉ encode text := by
  intro hmem
  rcases isPlain_of_mem_encode hmem with rfl | hplain
  · exact hpercent rfl
  · simp [hc] at hplain

end CallDiagram.Percent
