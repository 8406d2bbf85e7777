import CallDiagram.Text.Basic

/-!
# Endpoints

What the preview service answers, each under its path and for its method, and the framework that
takes requests to them.  What else the framework answers, such as pages on the service, and how it
refuses a path or a method is its own matter.

* `Request`, `Response` — the types;
* `Endpoint`, `Endpoint.path`, `Endpoint.method` — the endpoints;
* `Framework` — what takes requests to the endpoints and completes their answers;
* `Framework.Documented` — what the service relies on.
-/

namespace CallDiagram

/-- A request. -/
structure Request where
  /-- The method. -/
  method : Text
  /-- The path. -/
  path : Text
  /-- The body. -/
  body : Bytes
  deriving DecidableEq, Repr

/-- An answer. -/
structure Response where
  /-- The status. -/
  status : Nat
  /-- The media type of the body. -/
  mediaType : Option Text
  /-- The body. -/
  body : Bytes
  deriving DecidableEq, Repr

/-- What the service does. -/
inductive Endpoint where
  /-- Tells that it is there. -/
  | health
  /-- Makes the call tree of a document. -/
  | parse
  /-- Makes the diagram of a document. -/
  | diagram
  /-- Draws the image of a document. -/
  | image
  deriving DecidableEq, Repr

namespace Endpoint

/-- All endpoints. -/
def all : List Endpoint := [.health, .parse, .diagram, .image]

/-- The path of an endpoint. -/
def path : Endpoint → Text
  | .health => "/api/health"
  | .parse => "/api/parse"
  | .diagram => "/api/plantuml"
  | .image => "/api/render"

/-- The method of an endpoint. -/
def method : Endpoint → Text
  | .health => "GET"
  | .parse | .diagram | .image => "POST"

end Endpoint

/-- What takes requests to the endpoints, and their answers back. -/
structure Framework where
  /-- Where a request leads: to an endpoint, or to an answer of the framework itself. -/
  route : Request → Endpoint ⊕ Response
  /-- The media type that is named for some content. -/
  header : Text → Text
  /-- The answer to a request whose endpoint ends with an error that it does not deal with. -/
  failure : Response

/-- An answer as it is sent, with its media type in full. -/
def Framework.complete (framework : Framework) (response : Response) : Response :=
  { response with mediaType := response.mediaType.map framework.header }

/-- What the service relies on in a framework. -/
structure Framework.Documented (framework : Framework) : Prop where
  /-- A request with the method and the path of an endpoint leads there, whatever its body. -/
  route : ∀ (e : Endpoint) (body : Bytes), framework.route ⟨e.method, e.path, body⟩ = .inl e
  /-- The media type of a text names its encoding, any other stands for itself. -/
  header : ∀ type : Text, framework.header type
    = if Text.startsWith type "text/" then type ++ "; charset=utf-8" else type
  /-- An error that an endpoint does not deal with is one of the server. -/
  failure : framework.failure.status = 500

end CallDiagram
