import CallDiagram.Proofs.Json.Room
import CallDiagram.Proofs.Json.RoundTrip
import CallDiagram.Proofs.Text.Utf8
import CallDiagram.Service.Body

/-!
# Bodies of answers and of requests

An object that is sent in the compact layout and in UTF-8 is received as it was.  A body of open
brackets has a level for each of them.

* `detect_encode`, `readBody_compact` — the encoding and the value of an object;
* `readBody_brackets` — there is no room for enough open brackets.
-/

namespace CallDiagram

/-- No zero and no mark stands at the start of an object that is not empty. -/
theorem detect_encode (rest : Text) :
    Encoding.detect (Utf8.encode ('{' :: '"' :: rest))
      = (.utf8, Utf8.encode ('{' :: '"' :: rest)) := by
  have hstart : Utf8.encode ('{' :: '"' :: rest) = 0x7B :: 0x22 :: Utf8.encode rest := rfl
  rw [hstart]
  show (Encoding.ofZeros (0x7B :: 0x22 :: Utf8.encode rest), _) = _
  congr 1
  -- one, two, or at least four bytes are looked at
  match Utf8.encode rest with
  | [] => rfl
  | [_] => rfl
  | _ :: _ :: _ => rfl

/-- An object of whole numbers is received as it was, unless a number in it has too many digits. -/
theorem readBody_compact {fields : List (Text × Json)} (h : Json.Plain (.object fields))
    (hne : fields ≠ []) :
    (readBody none (Utf8.encode (Json.compact (.object fields)))).toOption
      = if Json.isWritable (.object fields) then some (.object fields) else none := by
  obtain ⟨rest, hrest⟩ : ∃ rest, Json.compact (.object fields) = '{' :: '"' :: rest := by
    cases fields with
    | nil => exact absurd rfl hne
    | cons f fields => exact ⟨_, rfl⟩
  have hread := Json.read_write Json.faithful_compact h (List.forall_mem_nil _)
  rw [List.append_nil, ← Json.compact, hrest] at hread
  have hdecode : Encoding.decode? .utf8 (Utf8.encode ('{' :: '"' :: rest))
      = some ('{' :: '"' :: rest) := by
    rw [Encoding.decode?, Utf8.decode_encode]
    rfl
  rw [readBody, hrest, detect_encode]
  simp only [hdecode, Json.readWithin, Option.bind_none]
  rw [← hread]
  cases Json.read ('{' :: '"' :: rest) <;> rfl

/-- However much room there is, a body of open brackets fills it. -/
theorem readBody_brackets {levels n : Nat} (h : levels < n) :
    readBody (some levels) (Utf8.encode (List.replicate n '[')) = .error .tooDeep := by
  have hdetect : Encoding.detect (Utf8.encode (List.replicate n '['))
      = (.utf8, Utf8.encode (List.replicate n '[')) := by
    match n with
    | 0 => rfl
    | 1 => rfl
    | 2 => rfl
    | 3 => rfl
    | _ + 4 => rfl
  have hdecode : Encoding.decode? .utf8 (Utf8.encode (List.replicate n '['))
      = some (List.replicate n '[') := by
    rw [Encoding.decode?, Utf8.decode_encode]
    rfl
  simp only [readBody, hdetect, hdecode, Json.readWithin_brackets h]
  rfl

end CallDiagram
