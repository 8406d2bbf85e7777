import CallDiagram.Text.Quoted
import CallDiagram.Number.Shortest

/-!
# JSON values

The values of the data format, with whole numbers of any size apart from double-precision ones and
with the fields of an object in the order in which their keys first came.

* `Json` — the type;
* `Json.put`, `Json.field?` — the fields of an object as a map: a later value of a key replaces the
  earlier one in its place (`field?_put`);
* `Json.isVoid` — the values that count as absent;
* `Json.display` — the plain text of a value, as messages and links show it;
* `Json.allFinite` — whether every number in a value is a finite one.
-/

namespace CallDiagram

/-- A JSON value. -/
inductive Json where
  /-- The absent value. -/
  | null
  /-- A truth value. -/
  | bool (b : Bool)
  /-- A whole number. -/
  | int (n : Int)
  /-- A double-precision number. -/
  | real (x : Binary64)
  /-- A text. -/
  | str (s : Text)
  /-- A list of values. -/
  | list (items : List Json)
  /-- Fields, each key once, in the order of their first appearance. -/
  | object (fields : List (Text × Json))

instance : Inhabited Json := ⟨.null⟩

namespace Json

/-- The fields with a key bound to a value, in the key's old place or at the end. -/
def put (key : Text) (value : Json) : List (Text × Json) → List (Text × Json)
  | [] => [(key, value)]
  | (k, v) :: rest => if k = key then (k, value) :: rest else (k, v) :: put key value rest

/-- The value bound to a key. -/
def field? (key : Text) : List (Text × Json) → Option Json
  | [] => none
  | (k, v) :: rest => if k = key then some v else field? key rest

theorem field?_put (key other : Text) (value : Json) (fields : List (Text × Json)) :
    field? other (put key value fields) =
      if key = other then some value else field? other fields := by
  induction fields with
  | nil => simp [put, field?]
  | cons f rest ih =>
    obtain ⟨k, v⟩ := f
    by_cases hk : k = key
    · subst hk
      by_cases ho : k = other <;> simp [put, field?, ho]
    · by_cases ho : k = other
      · subst ho
        have : ¬ key = k := fun e => hk e.symm
        simp [put, field?, hk, this]
      · simp [put, field?, hk, ho, ih]

/-- The value of a field of an object; other values have no fields. -/
def get? (value : Json) (key : Text) : Option Json :=
  match value with
  | .object fields => field? key fields
  | _ => none

/-- The values that count as absent: nothing, falsehood, the zeros and all that is empty. -/
def isVoid : Json → Bool
  | .null => true
  | .bool b => !b
  | .int n => n == 0
  | .real x => x.isZero
  | .str s => s.isEmpty
  | .list items => items.isEmpty
  | .object fields => fields.isEmpty

/-! ## Plain text -/

mutual

/-- The text of a value inside another one: texts are quoted. -/
def shown : Json → Text
  | .null => "None"
  | .bool true => "True"
  | .bool false => "False"
  | .int n => Text.integer n
  | .real x => x.full
  | .str s => s.quoted
  | .list items => '[' :: shownItems items
  | .object fields => '{' :: shownFields fields

/-- The items of a list, separated by commas, and the closing bracket. -/
def shownItems : List Json → Text
  | [] => [']']
  | [item] => shown item ++ [']']
  | item :: items => shown item ++ ',' :: ' ' :: shownItems items

/-- The fields of an object, separated by commas, and the closing brace. -/
def shownFields : List (Text × Json) → Text
  | [] => ['}']
  | [(key, value)] => key.quoted ++ ':' :: ' ' :: (shown value ++ ['}'])
  | (key, value) :: fields =>
      key.quoted ++ ':' :: ' ' :: (shown value ++ ',' :: ' ' :: shownFields fields)

end

/-- The plain text of a value: a text stands for itself. -/
def display : Json → Text
  | .str s => s
  | value => shown value

/-! ## Finite numbers -/

mutual

/-- Whether every number in a value is finite. -/
def allFinite : Json → Bool
  | .real x => x.isFinite
  | .list items => allFiniteItems items
  | .object fields => allFiniteFields fields
  | _ => true

/-- Whether every number in the items of a list is finite. -/
def allFiniteItems : List Json → Bool
  | [] => true
  | item :: items => allFinite item && allFiniteItems items

/-- Whether every number in the fields of an object is finite. -/
def allFiniteFields : List (Text × Json) → Bool
  | [] => true
  | (_, value) :: fields => allFinite value && allFiniteFields fields

end

end Json

end CallDiagram
