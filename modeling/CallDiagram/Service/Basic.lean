import CallDiagram.Diagram.Basic
import CallDiagram.Document.Basic
import CallDiagram.Json.Writer
import CallDiagram.Rendering.Basic
import CallDiagram.Service.Body
import CallDiagram.Service.Endpoint

/-!
# The preview service

An editor posts a document and gets its call tree, its diagram or its image.

* `Rejection`, `Rejection.response?` — why a request is not met, and the answer then;
* `Order`, `Order.read` — what the body of a request asks for;
* `Room` — how deep nested data may be;
* `Service.perform` — the result of a request at an endpoint, with the attempts to draw;
* `Service.respondWithin`, `Service.respond` — the answer to a request, with little or enough room.
-/

namespace CallDiagram

namespace Response

/-- An answer of some content. -/
def content (status : Nat) (type : Text) (body : Bytes) : Response := ⟨status, some type, body⟩

/-- An answer in JSON. -/
def json (status : Nat) (value : Json) : Response :=
  content status "application/json" (Utf8.encode (Json.compact value))

/-- An answer in JSON that says what is wrong. -/
def detail (status : Nat) (words : Text) : Response :=
  json status (.object [("detail", .str words)])

/-- An answer in plain text. -/
def plain (status : Nat) (text : Text) : Response :=
  content status "text/plain" (Utf8.encode text)

end Response

/-- How many levels of nested data there is room for on the stack; `none` if for all. -/
structure Room where
  /-- Levels of a JSON value that is read. -/
  read : Option Nat := none
  /-- Levels of a JSON value that is written. -/
  write : Option Nat := none
  /-- Levels of a document whose call tree is made. -/
  tree : Option Nat := none
  /-- Levels of a document whose diagram is made. -/
  diagram : Option Nat := none

/-! ## Rejections -/

/-- Why a request is not met. -/
inductive Rejection where
  /-- The body is not JSON. -/
  | notJson
  /-- The body is not an object. -/
  | notObject
  /-- There is no text. -/
  | noText
  /-- The links are not an object. -/
  | links
  /-- The format is not a text. -/
  | formatType
  /-- The format is unknown. -/
  | format (e : Format.Unsupported)
  /-- The document is refused. -/
  | document (e : ParseError)
  /-- The document is not rendered. -/
  | rendering (e : RenderFault)
  /-- The answer holds a number that JSON lacks. -/
  | number
  /-- There is no room for the levels of the body, of the document or of the answer. -/
  | tooDeep

/-- The answer to a request that is not met; `none` if the service does not deal with the reason. -/
def Rejection.response? : Rejection → Option Response
  | .notJson => some (.detail 400 "body must be JSON")
  | .notObject => some (.detail 400 "body must be a JSON object")
  | .noText => some (.detail 400 "text is required")
  | .links => some (.detail 400 "paths must be an object")
  | .formatType => some (.detail 400 "format must be a string")
  | .format e => some (.detail 400 e.message)
  | .document e =>
      some (.json 400 (.object [("detail", .str e.detail), ("line", .int e.lineNumber)]))
  | .rendering (.failed e) => some (.detail 502 e.message)
  | .rendering (.format _) | .rendering (.foreign _) | .number | .tooDeep => none

/-- The rejection of a request for its body. -/
def Rejection.ofBody : BodyError → Rejection
  | .notJson => .notJson
  | .tooDeep => .tooDeep

/-! ## Orders -/

/-- What a body asks for. -/
structure Order where
  /-- The document. -/
  text : Text
  /-- The links of components. -/
  links : Links
  /-- The body itself. -/
  fields : List (Text × Json)

namespace Order

/-- The value of a field, unless it counts as absent. -/
def given? (key : Text) (fields : List (Text × Json)) : Option Json :=
  (Json.field? key fields).filter fun value => !value.isVoid

/-- The links that a body gives. -/
def linksOf (fields : List (Text × Json)) : Except Rejection Links :=
  match given? "paths" fields with
  | none => .ok []
  | some (.object links) => .ok links
  | some _ => .error .links

/-- The order in the fields of a body. -/
def ofFields (fields : List (Text × Json)) : Except Rejection Order :=
  match Json.field? "text" fields with
  | some (.str text) => do .ok { text, links := ← linksOf fields, fields }
  | _ => .error .noText

/-- The order in a body, as far as there is room to read it. -/
def read (room : Room) (body : Bytes) : Except Rejection Order :=
  match readBody room.read body with
  | .error e => .error (.ofBody e)
  | .ok (.object fields) => ofFields fields
  | .ok _ => .error .notObject

/-- The format that is asked for, or the usual one. -/
def format (order : Order) (settings : Settings) : Except Rejection Format :=
  match given? "format" order.fields with
  | none => .ok settings.format
  | some (.str text) => (Format.read text).mapError .format
  | some _ => .error .formatType

/-- The forest of the document. -/
def forest (order : Order) : Except Rejection (Forest Node) :=
  (parseText {} order.links order.text).1.mapError .document

/-- The diagram of the document. -/
def diagram (room : Room) (order : Order) : Except Rejection Text := do
  let forest ← order.forest
  if Json.fits room.diagram forest.levels then (diagramText forest).mapError .document
  else .error .tooDeep

end Order

/-! ## Answers -/

namespace Service

/-- The version of the service. -/
def version : Text := "0.3.0"

/-- The call tree of an order, in JSON and as indented text. -/
def tree (room : Room) (order : Order) : Except Rejection Response := do
  let forest ← order.forest
  let value : Json := .object [("roots", toJson forest), ("tree", .str (outline forest))]
  if Json.fits room.tree forest.levels && Json.fits room.write value.depth then
    if value.allFinite then .ok (.json 200 value) else .error .number
  else .error .tooDeep

/-- The image of an order, with the attempts to draw it. -/
def image (settings : Settings) (renderer : Renderer) (room : Room) (order : Order) :
    List Attempt × Except Rejection Response :=
  match do .ok ((← order.format settings), (← order.diagram room)) with
  | .error e => ([], .error e)
  | .ok (format, diagram) =>
      let (attempts, result) := render settings renderer .single (some format.name) none diagram
      (attempts, (result.mapError .rendering).map (.content 200 format.mediaType))

/-- The result of a request at an endpoint, with the attempts to draw. -/
def perform (settings : Settings) (renderer : Renderer) (room : Room) (body : Bytes) :
    Endpoint → List Attempt × Except Rejection Response
  | .health =>
      ([], .ok (.json 200 (.object [("status", .str "ok"), ("version", .str version)])))
  | .parse => ([], do tree room (← Order.read room body))
  | .diagram => ([], do .ok (.plain 200 (← (← Order.read room body).diagram room)))
  | .image =>
      match Order.read room body with
      | .error e => ([], .error e)
      | .ok order => image settings renderer room order

/-- The answer that a framework sends for the result of an endpoint. -/
def answer (framework : Framework) : Except Rejection Response → Response
  | .ok response => framework.complete response
  | .error rejection =>
      (rejection.response?.map framework.complete).getD framework.failure

/-- The answer to a request, with the attempts to draw, as far as there is room for nested data. -/
def respondWithin (framework : Framework) (room : Room) (settings : Settings) (renderer : Renderer)
    (request : Request) : List Attempt × Response :=
  match framework.route request with
  | .inl endpoint =>
      let (attempts, result) := perform settings renderer room request.body endpoint
      (attempts, answer framework result)
  | .inr response => ([], response)

/-- The answer to a request, with the attempts to draw and with room for all nested data. -/
def respond (framework : Framework) (settings : Settings) (renderer : Renderer)
    (request : Request) : List Attempt × Response :=
  respondWithin framework {} settings renderer request

end Service

end CallDiagram
