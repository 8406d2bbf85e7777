import CallDiagram.Proofs.Diagram.Links
import CallDiagram.Proofs.Document.Bounds
import CallDiagram.Proofs.Json.RoundTrip

/-!
# Call trees in JSON

The call tree of a document without links is a value of texts and whole numbers, and no number in it
is too long to be read back as long as the text of the document is shorter than that.

* `allFinite_of_plain` — values of whole numbers hold finite numbers only;
* `plain_toJson`, `isWritable_toJson` — the JSON form of a forest, from its links and numbers;
* `isWritable_of_natAbs_le`, `isWritable_toJson_of_parse` — short texts.
-/

namespace CallDiagram

namespace Json

mutual

theorem allFinite_of_plain {v : Json} (h : Plain v) : allFinite v = true := by
  cases v with
  | real x => exact absurd h id
  | list items =>
    rw [allFinite]
    exact allFiniteItems_of_plain h
  | object fields =>
    rw [allFinite]
    exact allFiniteFields_of_plain h.2
  | _ => rfl

theorem allFiniteItems_of_plain {items : List Json} (h : PlainItems items) :
    allFiniteItems items = true := by
  cases items with
  | nil => rfl
  | cons item items =>
    rw [allFiniteItems, allFinite_of_plain h.1, allFiniteItems_of_plain h.2]
    rfl

theorem allFiniteFields_of_plain {fields : List (Text × Json)} (h : PlainFields fields) :
    allFiniteFields fields = true := by
  cases fields with
  | nil => rfl
  | cons f fields =>
    rw [allFiniteFields, allFinite_of_plain h.1, allFiniteFields_of_plain h.2]
    rfl

end

end Json

/-! ## Forests -/

theorem plain_textOrNull (t : Option Text) : Json.Plain (textOrNull t) := by
  cases t <;> trivial

theorem isWritable_textOrNull (t : Option Text) : Json.isWritable (textOrNull t) = true := by
  cases t <;> rfl

/-- The JSON form of a forest is plain if its links are. -/
theorem plainItems_treesToJson {f : Forest Node}
    (h : ∀ n ∈ f.walk, ∀ c, n.call? = some c → Json.Plain c.link) :
    Json.PlainItems (treesToJson f) := by
  induction f with
  | nil => trivial
  | node n below after ihBelow ihAfter =>
    have hbelow := ihBelow fun m hm => h m (by simp [Forest.walk, hm])
    have hafter := ihAfter fun m hm => h m (by simp [Forest.walk, hm])
    have hlink := h n (by simp [Forest.walk])
    refine ⟨⟨?keys, ?fields⟩, hafter⟩
    case keys =>
      obtain ⟨index, source, indent, statement⟩ := n
      cases statement with
      | call c =>
        show (["kind", "line", "indent", "alias", "group", "method", "call_comment",
          "return_comment", "path", "children"] : List Text).Nodup
        decide
      | bare =>
        show (["kind", "line", "indent", "children"] : List Text).Nodup
        decide
      | _ =>
        show (["kind", "line", "indent", "note", "children"] : List Text).Nodup
        decide
    case fields =>
      obtain ⟨index, source, indent, statement⟩ := n
      cases statement <;>
        simp_all [Node.fields, Statement.fields, Json.PlainFields, Json.Plain, plain_textOrNull,
          Node.call?, Statement.call?]

theorem plain_toJson {f : Forest Node}
    (h : ∀ n ∈ f.walk, ∀ c, n.call? = some c → Json.Plain c.link) : Json.Plain (toJson f) :=
  plainItems_treesToJson h

/-- A number in the JSON form of a forest is that of a line, or an indent, or in a link. -/
theorem isWritable_toJson {f : Forest Node}
    (h : ∀ n ∈ f.walk, Number.isWritable n.lineNumber ∧ Number.isWritable n.indent ∧
      ∀ c, n.call? = some c → Json.isWritable c.link) : Json.isWritable (toJson f) = true := by
  show Json.isWritableItems (treesToJson f) = true
  induction f with
  | nil => rfl
  | node n below after ihBelow ihAfter =>
    have hbelow := ihBelow fun m hm => h m (by simp [Forest.walk, hm])
    have hafter := ihAfter fun m hm => h m (by simp [Forest.walk, hm])
    obtain ⟨hline, hindent, hlink⟩ := h n (by simp [Forest.walk])
    rw [treesToJson, Json.isWritableItems, hafter, Bool.and_true]
    obtain ⟨index, source, indent, statement⟩ := n
    cases statement <;>
      simp_all [Node.fields, Statement.fields, Json.isWritableFields, Json.isWritable,
        isWritable_textOrNull, Node.call?, Statement.call?]

/-! ## Documents without links -/

section Documents

variable {counter : Counter} {text : Text} {f : Forest Node}

theorem link_of_parseText (h : (parseText counter [] text).1 = .ok f) {n : Node} (hn : n ∈ f.walk)
    {c : Call} (hc : n.call? = some c) : c.link = .null :=
  linked_of_parse h (mem_callsOf_of_mem_walk hn hc)

theorem plain_toJson_of_parseText (h : (parseText counter [] text).1 = .ok f) :
    Json.Plain (toJson f) := by
  apply plain_toJson
  intro n hn c hc
  rw [link_of_parseText h hn hc]
  trivial

theorem isWritable_of_natAbs_le {n : Int} {k : Nat} (h : n.natAbs ≤ max 1 k)
    (hk : k < Nat.pow 10 Number.digitLimit) : Number.isWritable n = true := by
  rw [Number.isWritable_iff]
  have hone : ∀ m, m ≠ 0 → 1 < Nat.pow 10 m := fun m hm => Nat.one_lt_pow hm (by decide)
  exact lt_of_le_of_lt h (max_lt (hone _ (by simp [Number.digitLimit])) hk)

/-- No number in the call tree of a short text is too long to be read back. -/
theorem isWritable_toJson_of_parseText (h : (parseText counter [] text).1 = .ok f)
    (hshort : text.length < Nat.pow 10 Number.digitLimit) : Json.isWritable (toJson f) = true := by
  apply isWritable_toJson
  intro n hn
  obtain ⟨hindex, line, hline, hindent⟩ := place_of_mem_walk h hn
  have hlines := Text.length_lines_le text
  have hlength := Text.length_le_of_mem_lines hline
  refine ⟨isWritable_of_natAbs_le ?_ hshort, isWritable_of_natAbs_le ?_ hshort, fun c hc => ?_⟩
  · rw [Node.lineNumber]
    omega
  · omega
  · rw [link_of_parseText h hn hc]
    rfl

end Documents

end CallDiagram
