import CallDiagram.Proofs.Document.Json
import CallDiagram.Proofs.Index.File
import CallDiagram.Proofs.Service.Body
import CallDiagram.Service.Basic

/-!
# Answers of the service

What the service answers when a text is posted for its diagram or for its call tree.

* `Posts`, `read_of_posts` — requests that post a text, `posting`;
* `Response.Carries`, `carries_json` — answers that send an object;
* `complete_json`, `respondWithin_endpoint`, `respond_of_posts` — an answer from the result of its
  endpoint;
* `respond_diagram`, `respond_tree` — the answers to texts;
* `Framework.bare` — a framework that knows nothing but the endpoints.
-/

namespace CallDiagram

/-- A request that posts a text to a path, and perhaps links with it. -/
structure Posts (request : Request) (place text : Text) (links : Option Links) : Prop where
  method : request.method = "POST"
  path : request.path = place
  body : ∃ fields, readBody none request.body = .ok (.object fields) ∧
    Json.field? "text" fields = some (.str text) ∧
      Json.field? "paths" fields = links.map Json.object

/-- An answer that sends an object, which is received as it was unless a number in it has too many
digits. -/
structure Response.Carries (answer : Response) (status : Nat) (fields : List (Text × Json)) :
    Prop where
  sent : answer = .json status (.object fields)
  received : (readBody none answer.body).toOption
    = if Json.isWritable (.object fields) then some (.object fields) else none

theorem carries_json (status : Nat) {fields : List (Text × Json)}
    (h : Json.Plain (.object fields)) (hne : fields ≠ []) :
    (Response.json status (.object fields)).Carries status fields :=
  ⟨rfl, readBody_compact h hne⟩

/-- The fields of the answer that refuses a document. -/
def refusalFields (e : ParseError) : List (Text × Json) :=
  [("detail", .str e.detail), ("line", .int e.lineNumber)]

/-- The refusal of a document is sent with its line. -/
theorem carries_refusal (e : ParseError) :
    (Response.json 400 (.object (refusalFields e))).Carries 400 (refusalFields e) := by
  refine carries_json 400 ⟨?_, trivial, trivial, trivial⟩ (List.cons_ne_nil _ _)
  show (["detail", "line"] : List Text).Nodup
  decide

theorem plain_answer {text : Text} {f : Forest Node} (h : (parseText {} [] text).1 = .ok f) :
    Json.Plain (.object [("roots", toJson f), ("tree", .str (outline f))]) := by
  refine ⟨?_, plain_toJson_of_parseText h, trivial, trivial⟩
  show (["roots", "tree"] : List Text).Nodup
  decide

/-! ## Orders -/

/-- What a request posts is what is ordered.  Empty links are as good as none. -/
theorem read_of_posts {request : Request} {place text : Text} {links : Option Links}
    (h : Posts request place text links) :
    ∃ order, Order.read {} request.body = .ok order ∧ order.text = text ∧
      order.links = links.getD [] := by
  obtain ⟨fields, hbody, htext, hpaths⟩ := h.body
  have hlinks : Order.linksOf fields = .ok (links.getD []) := by
    rw [Order.linksOf, Order.given?, hpaths]
    cases links with
    | none => rfl
    | some links => cases links <;> rfl
  refine ⟨⟨text, links.getD [], fields⟩, ?_, rfl, rfl⟩
  simp only [Order.read, hbody, Order.ofFields, htext, hlinks]
  rfl

/-! ## Bodies that post -/

/-- The fields of a body that posts a text, perhaps with links. -/
def postedFields (text : Text) (links : Option Links) : List (Text × Json) :=
  ("text", .str text) :: (links.map fun l => (("paths" : Text), Json.object l)).toList

/-- A request with such a body. -/
def posting (place text : Text) (links : Option Links) : Request :=
  ⟨"POST", place, Utf8.encode (Json.compact (.object (postedFields text links)))⟩

theorem posts_posting (place text : Text) (links : Option Links)
    (h : ∀ l ∈ links, BindsTexts l) : Posts (posting place text links) place text links := by
  refine ⟨rfl, rfl, postedFields text links, ?_, rfl, ?_⟩
  · have hplain : Json.Plain (.object (postedFields text links)) := by
      cases links with
      | none => exact ⟨List.nodup_singleton _, trivial, trivial⟩
      | some l =>
        refine ⟨?_, trivial, (h l rfl).plain, trivial⟩
        show (["text", "paths"] : List Text).Nodup
        decide
    have hwritable : Json.isWritable (.object (postedFields text links)) = true := by
      cases links with
      | none => rfl
      | some l =>
        show (true && (Json.isWritable (.object l) && true)) = true
        rw [isWritable_of_texts (h l rfl).texts]
        rfl
    have hread := readBody_compact hplain (List.cons_ne_nil _ _)
    rw [if_pos hwritable] at hread
    exact Json.eq_ok_of_toOption hread
  · cases links <;> rfl

/-! ## Frameworks -/

/-- An answer in JSON is sent as it is. -/
theorem complete_json {framework : Framework} (h : framework.Documented) (status : Nat)
    (value : Json) : framework.complete (.json status value) = .json status value := by
  have hheader : framework.header "application/json" = "application/json" := by
    rw [h.header]
    decide
  rw [Framework.complete, Response.json, Response.content, Option.map_some, hheader]

/-- A framework that knows nothing but the endpoints. -/
def Framework.bare : Framework where
  route request :=
    match Endpoint.all.find? fun e => e.method = request.method ∧ e.path = request.path with
    | some endpoint => .inl endpoint
    | none => .inr (.detail 404 "Not Found")
  header type := if Text.startsWith type "text/" then type ++ "; charset=utf-8" else type
  failure := .content 500 "text/plain; charset=utf-8" (Utf8.encode "Internal Server Error")

theorem Framework.documented_bare : Framework.bare.Documented :=
  ⟨fun e _ => by cases e <;> rfl, fun _ => rfl, rfl⟩

/-! ## Endpoints -/

namespace Service

variable {framework : Framework} (hframework : framework.Documented) {settings : Settings}
  {renderer : Renderer} {request : Request} {text : Text}

include hframework

/-- A request for an endpoint is answered by it. -/
theorem respondWithin_endpoint (room : Room) (endpoint : Endpoint) (body : Bytes) :
    respondWithin framework room settings renderer ⟨endpoint.method, endpoint.path, body⟩
      = ((perform settings renderer room body endpoint).1,
        answer framework (perform settings renderer room body endpoint).2) := by
  rw [respondWithin, hframework.route]

/-- A request that posts a text is answered by the endpoint at its path. -/
theorem respond_of_posts (endpoint : Endpoint) {links : Option Links}
    (h : Posts request endpoint.path text links) (hmethod : endpoint.method = "POST") :
    (respond framework settings renderer request).2
      = answer framework (perform settings renderer {} request.body endpoint).2 := by
  have hrequest : request = ⟨endpoint.method, endpoint.path, request.body⟩ := by
    rw [hmethod, ← h.method, ← h.path]
  rw [hrequest, respond, respondWithin_endpoint hframework]

/-- The answer to a text that is posted for its diagram. -/
theorem respond_diagram {links : Option Links} (h : Posts request "/api/plantuml" text links) :
    (respond framework settings renderer request).2 =
      match drawing {} (links.getD []) text with
      | .ok diagram => framework.complete (.plain 200 diagram)
      | .error e => .json 400 (.object (refusalFields e)) := by
  obtain ⟨order, hread, rfl, hlinks⟩ := read_of_posts h
  have hdiagram : order.diagram {} = (drawing {} order.links order.text).mapError .document := by
    rw [Order.diagram, Order.forest, drawing]
    cases (parseText {} order.links order.text).1 <;> rfl
  have hperform : (perform settings renderer {} request.body .diagram).2
      = (drawing {} order.links order.text).mapError .document >>= fun diagram =>
          .ok (.plain 200 diagram) := by
    rw [perform, hread, ← hdiagram]
    rfl
  rw [respond_of_posts hframework .diagram h rfl, hperform, ← hlinks]
  cases drawing {} order.links order.text with
  | ok diagram => rfl
  | error e => exact complete_json hframework 400 (.object (refusalFields e))

/-- The answer to a text that is posted for its call tree. -/
theorem respond_tree (h : Posts request "/api/parse" text none) :
    (respond framework settings renderer request).2 =
      match (parseText {} [] text).1 with
      | .ok f => .json 200 (.object [("roots", toJson f), ("tree", .str (outline f))])
      | .error e => .json 400 (.object (refusalFields e)) := by
  obtain ⟨order, hread, rfl, hlinks⟩ := read_of_posts h
  have hforest : order.forest = (parseText {} [] order.text).1.mapError .document := by
    rw [Order.forest, hlinks, Option.getD_none]
  have hperform : (perform settings renderer {} request.body .parse).2
      = (parseText {} [] order.text).1.mapError .document >>= fun f =>
          if Json.allFinite (.object [("roots", toJson f), ("tree", .str (outline f))])
          then .ok (.json 200 (.object [("roots", toJson f), ("tree", .str (outline f))]))
          else .error .number := by
    rw [perform, hread, ← hforest]
    rfl
  rw [respond_of_posts hframework .parse h rfl, hperform]
  cases hparse : (parseText {} [] order.text).1 with
  | error e => exact complete_json hframework 400 (.object (refusalFields e))
  | ok f =>
    have hfinite : Json.allFinite (.object [("roots", toJson f), ("tree", .str (outline f))])
        = true :=
      Json.allFinite_of_plain (plain_answer hparse)
    show answer framework (if _ then _ else _) = _
    rw [if_pos hfinite]
    exact complete_json hframework 200 _

end Service

end CallDiagram
