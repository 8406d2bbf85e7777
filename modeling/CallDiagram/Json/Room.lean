import CallDiagram.Json.Reader

/-!
# JSON within the room on the stack

Nested lists and objects are followed on the stack of whoever reads or writes them.  A reader gives
up at the first bracket that opens one level more than there is room for; what it refuses in front
of that bracket it has refused before.

* `Json.crowdedFrom?` — the bracket that opens one level too many;
* `Json.ReadError`, `Json.readWithin` — the value of a text, as far as there is room;
* `Json.depth`, `Json.fits` — the levels of a value, and whether there is room for them.
-/

namespace CallDiagram.Json

/-! ## Reading -/

/-- Whether a character opens a list or an object. -/
def isOpening (c : Char) : Bool := c = '[' || c = '{'

/-- Whether a character closes a list or an object. -/
def isClosing (c : Char) : Bool := c = ']' || c = '}'

/-- The place of the first bracket that opens one level too many, and the bracket.  Before the text
there were `place` characters and `level` open brackets, and perhaps an open string, in which no
bracket counts. -/
def crowdedFrom? (room : Nat) : Nat → Nat → Bool → Text → Option (Nat × Char)
  | _, _, _, [] => none
  | place, level, true, '\\' :: _ :: rest => crowdedFrom? room (place + 2) level true rest
  | place, level, true, c :: rest => crowdedFrom? room (place + 1) level (c ≠ '"') rest
  | place, level, false, c :: rest =>
      if isOpening c then
        if room ≤ level then some (place, c) else crowdedFrom? room (place + 1) (level + 1) false rest
      else if isClosing c then crowdedFrom? room (place + 1) (level - 1) false rest
      else crowdedFrom? room (place + 1) level (c = '"') rest

/-- Why there is no value. -/
inductive ReadError where
  /-- The text is refused. -/
  | refused (r : Refusal)
  /-- A bracket opens one level too many. -/
  | tooDeep (bracket : Char)
  deriving DecidableEq, Repr

/-- The wording of the error. -/
def ReadError.message : ReadError → Text
  | .refused r => r.message
  | .tooDeep bracket =>
      "maximum recursion depth exceeded while decoding a JSON "
        ++ (if bracket = '[' then ("array" : Text) else "object") ++ " from a unicode string"

/-- The value that a text writes, if there is room for its levels; without a bound there is.  Behind
the bracket that opens one level too many nothing is read. -/
def readWithin (room : Option Nat) (text : Text) : Except ReadError Json :=
  match room.bind fun room => crowdedFrom? room 0 0 false text with
  | none => (read text).mapError .refused
  | some (place, bracket) =>
      match read (text.take (place + 1)) with
      | .error r => if r.position ≤ place then .error (.refused r) else .error (.tooDeep bracket)
      | .ok _ => .error (.tooDeep bracket)

/-! ## Writing -/

mutual

/-- How many lists and objects are in one another at the deepest place of a value. -/
def depth : Json → Nat
  | .list items => depthItems items + 1
  | .object fields => depthFields fields + 1
  | _ => 0

/-- The greatest depth of some items. -/
def depthItems : List Json → Nat
  | [] => 0
  | item :: items => max (depth item) (depthItems items)

/-- The greatest depth of the values of some fields. -/
def depthFields : List (Text × Json) → Nat
  | [] => 0
  | (_, value) :: fields => max (depth value) (depthFields fields)

end

/-- Whether there is room for a number of levels; without a bound there is. -/
def fits (room : Option Nat) (levels : Nat) : Bool := room.all fun room => levels ≤ room

end CallDiagram.Json
