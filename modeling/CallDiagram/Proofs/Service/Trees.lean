import CallDiagram.Proofs.Service.Images

/-!
# Call trees from the service

A body is answered with a call tree exactly if it orders a document that can be parsed, no call of it
is linked to a value with a number that is not finite, and there is room for its levels.  Where there
is such a number or too little room, the service fails; all other bodies are bad requests.

* `allFinite_toJson_iff` — the numbers in the JSON form of a forest;
* `Sendable`, `TreeLaw`, `treeLaw_of_body` — trees that can be sent, and the answers to any body;
* `Fails`, `status_eq_iff` — what the service does not deal with;
* `serviceLaw` — the answers to any request for an endpoint.
-/

namespace CallDiagram

/-! ## Numbers in call trees -/

theorem allFinite_textOrNull (t : Option Text) : Json.allFinite (textOrNull t) = true := by
  cases t <;> rfl

/-- Of the fields of a node only a link may hold a number that is not finite. -/
theorem allFiniteFields_node {n : Node} {items : List Json} :
    Json.allFiniteFields (n.fields ++ [(("children" : Text), Json.list items)]) = true ↔
      (∀ c, n.call? = some c → c.link.allFinite = true) ∧ Json.allFiniteItems items = true := by
  obtain ⟨index, source, indent, statement⟩ := n
  cases statement <;>
    simp [Node.fields, Statement.fields, Node.call?, Statement.call?, Json.allFiniteFields,
      Json.allFinite, allFinite_textOrNull]

/-- The numbers in the JSON form of a forest that may not be finite are those in its links. -/
theorem allFinite_toJson_iff {f : Forest Node} :
    Json.allFinite (toJson f) = true ↔ ∀ c ∈ callsOf f, c.link.allFinite = true := by
  show Json.allFiniteItems (treesToJson f) = true ↔ _
  induction f with
  | nil => simp [treesToJson, Json.allFiniteItems, callsOf, Forest.walk]
  | node n below after ihBelow ihAfter =>
    rw [treesToJson, Json.allFiniteItems, Json.allFinite, Bool.and_eq_true, allFiniteFields_node,
      ihBelow, ihAfter, callsOf_node]
    simp only [List.mem_append, Option.mem_toList]
    constructor
    · rintro ⟨⟨hself, hbelow⟩, hafter⟩ c (hc | hc | hc)
      · exact hself c hc
      · exact hbelow c hc
      · exact hafter c hc
    · intro h
      exact ⟨⟨fun c hc => h c (Or.inl hc), fun c hc => h c (Or.inr (Or.inl hc))⟩,
        fun c hc => h c (Or.inr (Or.inr hc))⟩

/-- The answer with a call tree. -/
def treeAnswer (f : Forest Node) : Json :=
  .object [("roots", toJson f), ("tree", .str (outline f))]

/-- A call tree can be sent: the numbers in the links of its calls are finite, and there is room for
its levels and for those of the links. -/
structure Sendable (room : Room) (links : Links) (f : Forest Node) : Prop where
  finite : ∀ c ∈ callsOf f, ∀ value, Json.field? c.identifier links = some value →
    value.allFinite = true
  made : Json.fits room.tree f.levels = true
  written : Json.fits room.write (treeAnswer f).depth = true

/-- The answer with a call tree holds finite numbers only exactly if the links of its calls do. -/
theorem allFinite_treeAnswer_iff {counter : Counter} {links : Links} {text : Text} {f : Forest Node}
    (h : (parseText counter links text).1 = .ok f) :
    (treeAnswer f).allFinite = true ↔ ∀ c ∈ callsOf f, ∀ value,
      Json.field? c.identifier links = some value → value.allFinite = true := by
  have hroots : (treeAnswer f).allFinite = Json.allFinite (toJson f) := by
    simp [treeAnswer, Json.allFinite, Json.allFiniteFields]
  rw [hroots, allFinite_toJson_iff]
  refine forall₂_congr fun c hc => ?_
  rw [linked_of_parse h hc]
  cases hfield : Json.field? c.identifier links <;> simp [Json.allFinite]

/-! ## Answers -/

/-- A body orders a document whose call tree cannot be sent. -/
def Unsendable (room : Room) (body : Bytes) : Prop :=
  ∃ text links f, Orders room body text links ∧ (parseText {} links text).1 = .ok f ∧
    ¬ Sendable room links f

/-- A body orders a document that can be parsed. -/
def OrdersTree (room : Room) (body : Bytes) : Prop :=
  ∃ text links f, Orders room body text links ∧ (parseText {} links text).1 = .ok f

/-- The answer to a body that is posted for a call tree. -/
structure TreeLaw (framework : Framework) (room : Room) (body : Bytes)
    (result : List Attempt × Response) : Prop where
  /-- Nothing is drawn. -/
  undrawn : result.1 = []
  /-- A document that can be parsed is answered with its tree. -/
  answered : ∀ text links f, Orders room body text links → (parseText {} links text).1 = .ok f →
    Sendable room links f →
      result.2 = .json 200 (.object [("roots", toJson f), ("tree", .str (outline f))])
  /-- The service fails if the tree cannot be sent, or the body is too deep. -/
  failed : BodyTooDeep room body ∨ Unsendable room body → result.2 = framework.failure
  /-- Every other body is a bad request. -/
  refused : ¬ BodyTooDeep room body → ¬ OrdersTree room body → result.2.status = 400

namespace Service

variable {framework : Framework} {room : Room} {body : Bytes} {order : Order}

/-- A body whose document is refused is a bad request, like one that orders nothing. -/
theorem treeLaw_of_isBad {e : Rejection} (hroom : ¬ BodyTooDeep room body)
    (hnone : ¬ OrdersTree room body) (he : e.IsBad) :
    TreeLaw framework room body ([], answer framework (.error e)) where
  undrawn := rfl
  answered text links f horders hparse _ := absurd ⟨text, links, f, horders, hparse⟩ hnone
  failed := by
    rintro (h | ⟨text, links, f, horders, hparse, -⟩)
    · exact absurd h hroom
    · exact absurd ⟨text, links, f, horders, hparse⟩ hnone
  refused _ _ := status_of_isBad framework he

/-- The document of an order is the only one that its body orders. -/
theorem ordersTree_iff (hread : Order.read room body = .ok order) :
    OrdersTree room body ↔ ∃ f, (parseText {} order.links order.text).1 = .ok f := by
  constructor
  · rintro ⟨text, links, f, horders, hparse⟩
    obtain ⟨rfl, rfl⟩ := Order.eq_of_orders horders hread
    exact ⟨f, hparse⟩
  · rintro ⟨f, hparse⟩
    exact ⟨order.text, order.links, f, Order.orders_of_read hread, hparse⟩

/-- A document that is refused has no call tree. -/
theorem tree_of_refusal {e : ParseError}
    (h : (parseText {} order.links order.text).1 = .error e) :
    tree room order = .error (.document e) := by
  rw [tree, Order.forest, h]
  rfl

/-- A call tree is sent if there is room for it and its numbers are finite. -/
theorem tree_of_parse {f : Forest Node} (h : (parseText {} order.links order.text).1 = .ok f) :
    tree room order
      = if Json.fits room.tree f.levels && Json.fits room.write (treeAnswer f).depth then
          if (treeAnswer f).allFinite then .ok (.json 200 (treeAnswer f)) else .error .number
        else .error .tooDeep := by
  rw [tree, Order.forest, h]
  rfl

/-- An order is answered with the tree of its document, unless it cannot be sent. -/
theorem treeLaw_of_read (hframework : framework.Documented)
    (hread : Order.read room body = .ok order) :
    TreeLaw framework room body ([], answer framework (tree room order)) := by
  have hbody := Order.not_tooDeep_of_read hread
  cases hparse : (parseText {} order.links order.text).1 with
  | error e =>
    rw [tree_of_refusal hparse]
    refine treeLaw_of_isBad hbody ?_ ⟨_, rfl, rfl⟩
    rw [ordersTree_iff hread, hparse]
    simp
  | ok f =>
    rw [tree_of_parse hparse]
    refine ⟨rfl, fun text links g horders hparse' hsendable => ?_, ?_, fun _ hnone => ?_⟩
    · obtain ⟨rfl, rfl⟩ := Order.eq_of_orders horders hread
      obtain rfl := Except.ok.inj (hparse.symm.trans hparse')
      rw [hsendable.made, hsendable.written,
        (allFinite_treeAnswer_iff hparse).2 hsendable.finite]
      exact complete_json hframework 200 (treeAnswer f)
    · rintro (h | ⟨text, links, g, horders, hparse', hunsendable⟩)
      · exact absurd h hbody
      · obtain ⟨rfl, rfl⟩ := Order.eq_of_orders horders hread
        obtain rfl := Except.ok.inj (hparse.symm.trans hparse')
        by_cases hroom : (Json.fits room.tree f.levels
            && Json.fits room.write (treeAnswer f).depth) = true
        · have hinfinite : ¬ (treeAnswer f).allFinite = true := by
            intro hfinite
            rw [Bool.and_eq_true] at hroom
            exact hunsendable ⟨(allFinite_treeAnswer_iff hparse).1 hfinite, hroom.1, hroom.2⟩
          rw [if_pos hroom, if_neg hinfinite]
          rfl
        · rw [if_neg hroom]
          rfl
    · exact absurd ((ordersTree_iff hread).2 ⟨f, hparse⟩) hnone

section Requests

variable (hframework : framework.Documented) (settings : Settings) (renderer : Renderer)

include hframework

/-- The answer to a body that is posted for a call tree. -/
theorem treeLaw_of_body (body : Bytes) :
    TreeLaw framework room body
      (respondWithin framework room settings renderer ⟨"POST", "/api/parse", body⟩) := by
  have hrespond : respondWithin framework room settings renderer ⟨"POST", "/api/parse", body⟩
      = ([], answer framework (Order.read room body >>= tree room)) :=
    respondWithin_endpoint hframework room .parse body
  rw [hrespond]
  cases hread : Order.read room body with
  | ok order => exact treeLaw_of_read hframework hread
  | error e =>
    have hnone : ∀ text links, ¬ Orders room body text links :=
      fun _ _ => Order.not_orders_of_read_error hread
    obtain ⟨hdeep, rfl⟩ | ⟨hroom, he⟩ := Order.read_eq_error hread
    · exact ⟨rfl, fun text links _ horders => absurd horders (hnone text links), fun _ => rfl,
        fun hroom => absurd hdeep hroom⟩
    · refine treeLaw_of_isBad hroom ?_ he
      rintro ⟨text, links, f, horders, -⟩
      exact hnone text links horders

end Requests

end Service

/-! ## Failures -/

/-- A body orders a document that has a diagram, and there is room for it. -/
def OrdersDiagram (room : Room) (body : Bytes) (document : Text) : Prop :=
  ∃ text links f, Orders room body text links ∧ (parseText {} links text).1 = .ok f ∧
    Json.fits room.diagram f.levels = true ∧ diagramText f = .ok document

/-- Whatever starts the drawing program raises an error of its own for the diagram of a body. -/
def DrawingRaises (room : Room) (settings : Settings) (renderer : Renderer) (body : Bytes)
    (format : Format) : Prop :=
  ∃ document respond e, OrdersDiagram room body document ∧ renderer = .present respond ∧
    respond .single settings.timeout (settings.drawing format) document = .failed e

/-- What the service does not deal with: too many levels, a tree that cannot be sent, and an error
from whatever starts the drawing program. -/
def Fails (room : Room) (settings : Settings) (renderer : Renderer) (body : Bytes) :
    Endpoint → Prop
  | .health => False
  | .parse => BodyTooDeep room body ∨ Unsendable room body
  | .diagram => BodyTooDeep room body ∨ DiagramTooDeep room body
  | .image =>
      BodyTooDeep room body ∨ ∃ format, AsksFor room settings body format ∧
        (DiagramTooDeep room body ∨ DrawingRaises room settings renderer body format)

/-- The diagram that a body orders is that of the order in it. -/
theorem ordersDiagram_iff {room : Room} {body : Bytes} {order : Order} {document : Text}
    (hread : Order.read room body = .ok order) :
    OrdersDiagram room body document ↔ order.diagram room = .ok document := by
  rw [Order.diagram_eq_ok_iff]
  constructor
  · rintro ⟨text, links, f, horders, hdiagram⟩
    obtain ⟨rfl, rfl⟩ := Order.eq_of_orders horders hread
    exact ⟨f, hdiagram⟩
  · rintro ⟨f, hdiagram⟩
    exact ⟨order.text, order.links, f, Order.orders_of_read hread, hdiagram⟩

section Failures

variable {framework : Framework} (hframework : framework.Documented) {room : Room}
  {settings : Settings} {renderer : Renderer} {body : Bytes} {order : Order}

include hframework

/-- The service fails at a body that is posted for a call tree only if it is too deep or its tree
cannot be sent. -/
theorem TreeLaw.failed_iff {result : List Attempt × Response}
    (h : TreeLaw framework room body result) :
    result.2.status = 500 ↔ BodyTooDeep room body ∨ Unsendable room body := by
  constructor
  · intro hstatus
    by_cases hdeep : BodyTooDeep room body
    · exact Or.inl hdeep
    · by_cases htree : OrdersTree room body
      · obtain ⟨text, links, f, horders, hparse⟩ := htree
        refine Or.inr ⟨text, links, f, horders, hparse, fun hsendable => ?_⟩
        rw [h.answered text links f horders hparse hsendable] at hstatus
        exact absurd (show 200 = 500 from hstatus) (by decide)
      · exact absurd ((h.refused hdeep htree).symm.trans hstatus) (by decide)
  · intro hfailed
    rw [h.failed hfailed]
    exact hframework.failure

/-- The drawing program is answered for, unless whatever starts it raises an error. -/
theorem ShownAs.status_eq_iff {format : Format} {document : Text} {answer : Response}
    (h : ShownAs framework settings renderer format document answer) :
    answer.status = 500 ↔ ∃ respond e, renderer = .present respond ∧
      respond .single settings.timeout (settings.drawing format) document = .failed e := by
  unfold ShownAs at h
  cases renderer with
  | missing => simp [h]
  | present respond =>
    cases hrun : respond .single settings.timeout (settings.drawing format) document with
    | timeout =>
      simp only [hrun] at h
      simp [h, hrun]
    | failed e =>
      simp only [hrun] at h
      simp [h, hrun, hframework.failure]
    | exited status image complaint =>
      simp only [hrun] at h
      split at h <;> simp [h, hrun]

namespace Service

theorem status_of_tooDeep : (answer framework (.error .tooDeep)).status = 500 := hframework.failure

/-- A body that makes no order is answered as a bad request, unless it is too deep. -/
theorem status_of_read_error {e : Rejection} (hread : Order.read room body = .error e) :
    (answer framework (.error e)).status = 500 ↔ BodyTooDeep room body := by
  obtain ⟨hdeep, rfl⟩ | ⟨hroom, he⟩ := Order.read_eq_error hread
  · exact iff_of_true (status_of_tooDeep hframework) hdeep
  · simp [status_of_isBad framework he, hroom]

/-- An order that has no diagram is answered as a bad request, unless its diagram is too deep. -/
theorem status_of_diagram_error {e : Rejection} (hread : Order.read room body = .ok order)
    (hdiagram : order.diagram room = .error e) :
    (answer framework (.error e)).status = 500 ↔ DiagramTooDeep room body := by
  obtain ⟨hdeep, rfl⟩ | ⟨hroom, he⟩ := Order.diagram_eq_error hread hdiagram
  · exact iff_of_true (status_of_tooDeep hframework) hdeep
  · simp [status_of_isBad framework he, hroom]

/-- The service fails at a body that is posted for its diagram only where there is no room. -/
theorem status_diagram_iff :
    (answer framework (perform settings renderer room body .diagram).2).status = 500 ↔
      Fails room settings renderer body .diagram := by
  have hresult : (perform settings renderer room body .diagram).2
      = Order.read room body >>= fun order =>
          order.diagram room >>= fun document => .ok (.plain 200 document) := rfl
  rw [hresult, Fails]
  cases hread : Order.read room body with
  | error e =>
    have hnone : ¬ DiagramTooDeep room body := by
      rintro ⟨text, links, f, horders, -⟩
      exact Order.not_orders_of_read_error hread horders
    show (answer framework (.error e)).status = 500 ↔ _
    simpa [hnone] using status_of_read_error hframework hread
  | ok order =>
    have hbody := Order.not_tooDeep_of_read hread
    show (answer framework (order.diagram room >>= _)).status = 500 ↔ _
    cases hdiagram : order.diagram room with
    | error e =>
      show (answer framework (.error e)).status = 500 ↔ _
      simpa [hbody] using status_of_diagram_error hframework hread hdiagram
    | ok document =>
      have hroom := Order.not_diagramTooDeep hread hdiagram
      show 200 = 500 ↔ _
      simp [hbody, hroom]

/-- The service fails at an order for an image only where there is no room or the drawing program
cannot be run. -/
theorem status_image_iff :
    (answer framework (perform settings renderer room body .image).2).status = 500 ↔
      Fails room settings renderer body .image := by
  rw [perform, Fails]
  cases hread : Order.read room body with
  | error e =>
    have hnone : ∀ format, ¬ (AsksFor room settings body format ∧
        (DiagramTooDeep room body ∨ DrawingRaises room settings renderer body format)) := by
      rintro format ⟨-, ⟨text, links, f, horders, -⟩ | ⟨_, _, _, ⟨text, links, f, horders, -⟩, -⟩⟩ <;>
        exact Order.not_orders_of_read_error hread horders
    simpa [hnone] using status_of_read_error hframework hread
  | ok order =>
    have hbody := Order.not_tooDeep_of_read hread
    simp only [hbody, false_or, Order.asksFor_iff hread]
    cases hformat : order.format settings with
    | error e =>
      rw [image_of_no_format hformat, status_of_isBad framework (Order.isBad_of_format hformat)]
      simp
    | ok format =>
      simp only [Except.ok.injEq, exists_eq_left']
      cases hdiagram : order.diagram room with
      | error e =>
        have hraises : ¬ DrawingRaises room settings renderer body format := by
          rintro ⟨document, -, -, hdocument, -⟩
          rw [ordersDiagram_iff hread, hdiagram] at hdocument
          cases hdocument
        rw [image_of_no_diagram hformat hdiagram]
        simpa [hraises] using status_of_diagram_error hframework hread hdiagram
      | ok document =>
        have hroom := Order.not_diagramTooDeep hread hdiagram
        obtain ⟨-, hshown⟩ := image_of_ok framework hformat hdiagram
        rw [hshown.status_eq_iff hframework]
        simp only [hroom, false_or, DrawingRaises, ordersDiagram_iff hread, hdiagram,
          Except.ok.injEq, exists_and_left, exists_eq_left']

/-- A request that comes to an endpoint fails only for what the service does not deal with. -/
theorem status_eq_iff (endpoint : Endpoint) :
    (answer framework (perform settings renderer room body endpoint).2).status = 500 ↔
      Fails room settings renderer body endpoint := by
  cases endpoint with
  | health => exact iff_of_false (fun h => absurd (show 200 = 500 from h) (by decide)) id
  | parse =>
    have hlaw : TreeLaw framework room body
        (respondWithin framework room settings renderer ⟨"POST", "/api/parse", body⟩) :=
      treeLaw_of_body hframework settings renderer body
    have hfailed := hlaw.failed_iff hframework
    rwa [show respondWithin framework room settings renderer ⟨"POST", "/api/parse", body⟩ = _ from
      respondWithin_endpoint hframework room .parse body] at hfailed
  | diagram => exact status_diagram_iff hframework
  | image => exact status_image_iff hframework

end Service

end Failures

/-- How requests are answered. -/
structure ServiceLaw (framework : Framework) (room : Room) (settings : Settings)
    (renderer : Renderer) : Prop where
  /-- A body that is posted for a call tree is answered with it, or is a bad request, or has a tree
  that cannot be sent. -/
  trees : ∀ body, TreeLaw framework room body
    (Service.respondWithin framework room settings renderer ⟨"POST", "/api/parse", body⟩)
  /-- A request that comes to an endpoint fails only for what the service does not deal with. -/
  failing : ∀ request endpoint, framework.route request = .inl endpoint →
    ((Service.respondWithin framework room settings renderer request).2.status = 500 ↔
      Fails room settings renderer request.body endpoint)

/-- Whatever the body, it is answered with the call tree if it orders a document that can be parsed
and whose tree can be sent, and as a bad request if it orders no such document.  No request for an
endpoint fails but for too many levels, for a call tree with a link that cannot be sent, or for an
error from whatever starts the drawing program. -/
theorem serviceLaw {framework : Framework} (hframework : framework.Documented) (room : Room)
    (settings : Settings) (renderer : Renderer) : ServiceLaw framework room settings renderer := by
  refine ⟨Service.treeLaw_of_body hframework settings renderer, fun request endpoint hroute => ?_⟩
  rw [Service.respondWithin, hroute]
  exact Service.status_eq_iff hframework endpoint

/-- A body that orders a call whose link is not a number that can be sent. -/
def unsendableBody : Bytes :=
  Utf8.encode "\x7b\"text\":\"A#f()\",\"paths\":\x7b\"A#f\":NaN\x7d\x7d"

/-- The service fails at such a body. -/
theorem serviceLaw_unsendableBody :
    Framework.bare.Documented ∧ ServiceLaw .bare {} {} .missing ∧
      (Service.respond .bare {} .missing ⟨"POST", "/api/parse", unsendableBody⟩).2.status = 500 :=
  ⟨Framework.documented_bare, serviceLaw Framework.documented_bare {} {} .missing,
    by decide +kernel⟩

theorem orders_unsendableBody : Orders {} unsendableBody "A#f()" [("A#f", .real .nan)] := by
  refine ⟨[("text", .str "A#f()"), ("paths", .object [("A#f", .real .nan)])], ?_, by cbv,
    Or.inr (by cbv)⟩
  cbv

/-- Not every body that orders a document which can be parsed is answered with a call tree. -/
theorem not_answered_unsendableBody :
    ¬ ∀ (framework : Framework), framework.Documented → ∀ (settings : Settings)
      (renderer : Renderer) (body : Bytes) (text : Text) (links : Links) (f : Forest Node),
        Orders {} body text links → (parseText {} links text).1 = .ok f →
          (Service.respond framework settings renderer ⟨"POST", "/api/parse", body⟩).2.status
            = 200 := by
  intro h
  obtain ⟨f, hparse⟩ : ∃ f, (parseText {} [("A#f", .real .nan)] "A#f()").1 = .ok f := ⟨_, by cbv⟩
  have hanswered := h .bare Framework.documented_bare {} .missing unsendableBody _ _ f
    orders_unsendableBody hparse
  have hstatus : (Service.respond .bare {} .missing
      ⟨"POST", "/api/parse", unsendableBody⟩).2.status = 500 := by decide +kernel
  exact absurd (hstatus.symm.trans hanswered) (by decide)

end CallDiagram
