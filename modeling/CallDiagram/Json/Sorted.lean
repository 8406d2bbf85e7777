import CallDiagram.Json.Basic
import CallDiagram.Text.Order

/-!
# Objects with sorted fields

`Json.sorted` puts the fields of every object in a value into the order of their keys.
-/

namespace CallDiagram.Json

mutual

/-- The value with the fields of every object in ascending order of their keys. -/
def sorted : Json → Json
  | .list items => .list (sortedItems items)
  | .object fields => .object (Text.sortBy Prod.fst (sortedFields fields))
  | value => value

/-- The items of a list, each sorted. -/
def sortedItems : List Json → List Json
  | [] => []
  | item :: items => sorted item :: sortedItems items

/-- The fields of an object in their places, each sorted. -/
def sortedFields : List (Text × Json) → List (Text × Json)
  | [] => []
  | (key, value) :: fields => (key, sorted value) :: sortedFields fields

end

end CallDiagram.Json
