import CallDiagram.Document.Basic
import CallDiagram.Proofs.Statement.Grammar
import Mathlib

/-!
# Classifying one line

A line is classified by the grammar of lines, and takes an alias from a source if it is a call.

* `classify` — the node of a line, with an alias from any source, which may fail;
* `Classified` — the rules by which a line becomes a node, or nothing;
* `classify_eq_iff_classified` — the rules say exactly what becomes of a line without line breaks.
-/

namespace CallDiagram

variable {ε σ : Type}

/-- The node of a line with an index, if it says something known.  A call takes an alias from a
source, which may fail. -/
def classify (next : EStateM ε σ Text) (index : Nat) (line : Text) : EStateM ε σ (Option Node) :=
  match Statement.read? line with
  | none => pure none
  | some (indent, .call c) => do
      let name ← next
      pure (some ⟨index, line, indent, .call { c with aliasName := name }⟩)
  | some (indent, s) => pure (some ⟨index, line, indent, s⟩)

/-- The rules by which a line becomes a node.  A source of aliases in a state is asked once for a
call, and never for anything else. -/
inductive Classified (next : EStateM ε σ Text) (index : Nat) (line : Text) (st : σ) :
    EStateM.Result ε σ (Option Node) → Prop where
  /-- A call takes the alias that the source gives. -/
  | call {indent : Nat} {c : Call} {name : Text} {st' : σ} : SpellsLine line indent (.call c) →
      next st = .ok name st' →
      Classified next index line st
        (.ok (some ⟨index, line, indent, .call { c with aliasName := name }⟩) st')
  /-- A call for which the source fails. -/
  | fault {indent : Nat} {c : Call} {e : ε} {st' : σ} : SpellsLine line indent (.call c) →
      next st = .error e st' → Classified next index line st (.error e st')
  /-- A loop, a condition or an alternative. -/
  | block {indent : Nat} {s : Statement} : SpellsLine line indent s → s.call? = none →
      Classified next index line st (.ok (some ⟨index, line, indent, s⟩) st)
  /-- A line that spells nothing. -/
  | nothing : (∀ indent s, ¬ SpellsLine line indent s) → Classified next index line st (.ok none st)

theorem classify_of_read?_eq_none {line : Text} (h : Statement.read? line = none)
    (next : EStateM ε σ Text) (index : Nat) (st : σ) :
    classify next index line st = .ok none st := by
  rw [classify, h]
  rfl

theorem classify_of_call {line : Text} {indent : Nat} {c : Call}
    (h : Statement.read? line = some (indent, .call c)) (next : EStateM ε σ Text) (index : Nat)
    (st : σ) :
    classify next index line st =
      match next st with
      | .ok name st' => .ok (some ⟨index, line, indent, .call { c with aliasName := name }⟩) st'
      | .error e st' => .error e st' := by
  rw [classify, h]
  show EStateM.bind next _ st = _
  unfold EStateM.bind
  cases next st <;> rfl

theorem classify_of_no_call {line : Text} {indent : Nat} {s : Statement}
    (h : Statement.read? line = some (indent, s)) (hs : s.call? = none)
    (next : EStateM ε σ Text) (index : Nat) (st : σ) :
    classify next index line st = .ok (some ⟨index, line, indent, s⟩) st := by
  rw [classify, h]
  cases s with
  | call c => simp [Statement.call?] at hs
  | _ => rfl

/-- The rules hold of what becomes of a line without line breaks. -/
theorem classified_classify {line : Text} (h : '\n' ∉ line) (next : EStateM ε σ Text)
    (index : Nat) (st : σ) : Classified next index line st (classify next index line st) := by
  cases hr : Statement.read? line with
  | none =>
    rw [classify_of_read?_eq_none hr]
    exact .nothing ((read?_eq_none_iff h).1 hr)
  | some r =>
    obtain ⟨indent, s⟩ := r
    have hspells := (read?_eq_some_iff h).1 hr
    cases s with
    | call c =>
      rw [classify_of_call hr]
      cases hnext : next st with
      | ok name st' => exact .call hspells hnext
      | error e st' => exact .fault hspells hnext
    | _ =>
      rw [classify_of_no_call hr rfl]
      exact .block hspells rfl

/-- What becomes of a line without line breaks is exactly what the rules say, for every source of
aliases in every state. -/
theorem classify_eq_iff_classified {line : Text} (h : '\n' ∉ line) (next : EStateM ε σ Text)
    (index : Nat) (st : σ) (result : EStateM.Result ε σ (Option Node)) :
    classify next index line st = result ↔ Classified next index line st result := by
  constructor
  · rintro rfl
    exact classified_classify h next index st
  · intro hrule
    cases hrule with
    | call hspells hnext => rw [classify_of_call ((read?_eq_some_iff h).2 hspells), hnext]
    | fault hspells hnext => rw [classify_of_call ((read?_eq_some_iff h).2 hspells), hnext]
    | block hspells hs => exact classify_of_no_call ((read?_eq_some_iff h).2 hspells) hs next index st
    | nothing hnone => exact classify_of_read?_eq_none ((read?_eq_none_iff h).2 hnone) next index st

/-- A call between exotic blanks, with marks inside its comments: the call comment goes up to the
first `<`, and the answer is the rest. -/
theorem classified_marks :
    '\n' ∉ ("\t A#f$1() \u2003: x: y< p < q\r" : Text) ∧
      Classified (fun n : Nat => (.ok (Text.natural n) (n + 1) : EStateM.Result Unit Nat Text)) 3
        "\t A#f$1() \u2003: x: y< p < q\r" 7
        (.ok (some ⟨3, "\t A#f$1() \u2003: x: y< p < q\r", 2,
          .call { group := some "A", method := "f$1", comment := some "x: y", answer := some "p < q",
                  aliasName := "7" }⟩) 8) :=
  ⟨by decide, (classify_eq_iff_classified (by decide) _ _ _ _).1 (by cbv)⟩

end CallDiagram
