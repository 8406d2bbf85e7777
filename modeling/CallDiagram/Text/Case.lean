import CallDiagram.Text.CaseTable

/-!
# Letter case

Full lower-case and upper-case forms of a text.  ASCII letters are moved by a fixed distance;
beyond ASCII the tables of `CaseTable` decide.  The capital sigma is the one letter whose form
hangs on its neighbours: it is final behind a cased letter and in front of none.

* `Text.lower`, `Text.upper` — the two mappings;
* `lower_ascii`, `upper_ascii` — on ASCII they are core's mappings, character by character.
-/

namespace CallDiagram

/-- Whether a run covers a code point. -/
def CaseRun.covers (run : CaseRun) (n : Nat) : Bool :=
  run.first ≤ n && n ≤ run.last && (n - run.first) % run.step == 0

/-- The forms of a code point under a pair of case tables. -/
def caseForms (runs : List CaseRun) (expansions : List (Nat × List Nat)) (n : Nat) : List Nat :=
  match expansions.lookup n with
  | some forms => forms
  | none =>
      match runs.find? (·.covers n) with
      | some run => [(n + run.shift).toNat]
      | none => [n]

/-- The lower-case form of a character on its own. -/
def lowerForm (c : Char) : Text :=
  if c.toNat < 0x80 then [c.toLower]
  else (caseForms lowerRuns lowerExpansions c.toNat).map Char.ofNat

/-- The upper-case form of a character. -/
def upperForm (c : Char) : Text :=
  if c.toNat < 0x80 then [c.toUpper]
  else (caseForms upperRuns upperExpansions c.toNat).map Char.ofNat

/-- Whether the first character that case rules do not skip is a cased one. -/
def startsCased (text : Text) : Bool :=
  match text.dropWhile fun c => inRanges caseIgnorableRanges c.toNat with
  | [] => false
  | c :: _ => inRanges casedRanges c.toNat

namespace Text

/-- The lower-case form of a text, given the characters in front of it, nearest first. -/
def lowerAfter (before : Text) : Text → Text
  | [] => []
  | c :: rest =>
      (if c = 'Σ' then [if startsCased before && !startsCased rest then 'ς' else 'σ']
       else lowerForm c) ++ lowerAfter (c :: before) rest

/-- The lower-case form of a text. -/
def lower (text : Text) : Text := lowerAfter [] text

/-- The upper-case form of a text. -/
def upper (text : Text) : Text := text.flatMap upperForm

/-! ## ASCII texts -/

theorem lowerAfter_ascii {text : Text} (h : ∀ c ∈ text, c.toNat < 0x80) (before : Text) :
    lowerAfter before text = text.map Char.toLower := by
  induction text generalizing before with
  | nil => rfl
  | cons c rest ih =>
    have hc : c.toNat < 0x80 := h c (by simp)
    have hs : c ≠ 'Σ' := by rintro rfl; exact absurd hc (by decide)
    simp [lowerAfter, hs, lowerForm, hc, ih (fun d hd => h d (by simp [hd]))]

theorem lower_ascii {text : Text} (h : ∀ c ∈ text, c.toNat < 0x80) :
    lower text = text.map Char.toLower := lowerAfter_ascii h []

theorem upper_ascii {text : Text} (h : ∀ c ∈ text, c.toNat < 0x80) :
    upper text = text.map Char.toUpper := by
  induction text with
  | nil => rfl
  | cons c rest ih =>
    have hc : c.toNat < 0x80 := h c (by simp)
    have ih := ih (fun d hd => h d (by simp [hd]))
    simp only [upper] at ih
    simp [upper, upperForm, hc, ih]

end Text

end CallDiagram
