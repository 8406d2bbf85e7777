import CallDiagram.Proofs.Service.Answers

/-!
# What bodies ask for

An order is told from the fields of a body: a text, links that are an object or count as absent, and
perhaps a format.  A body that makes no order is a bad request, unless there is no room to read it.

* `LinksIn`, `Orders`, `read_eq_ok_iff` — the text and the links;
* `AsksFor`, `asksFor_iff` — the format;
* `BodyTooDeep`, `DiagramTooDeep` — bodies and documents for which there is no room;
* `Rejection.IsBad`, `status_of_isBad` — bad requests;
* `read_eq_error`, `isBad_of_format`, `diagram_eq_error` — why an order cannot be met.
-/

namespace CallDiagram

/-- The links in the fields of a body: those of an object, or none if the field is absent or counts
as such. -/
def LinksIn (fields : List (Text × Json)) (links : Links) : Prop :=
  ((∀ value, Json.field? "paths" fields = some value → value.isVoid = true) ∧ links = []) ∨
    Json.field? "paths" fields = some (.object links)

/-- A body orders a text with links. -/
def Orders (room : Room) (body : Bytes) (text : Text) (links : Links) : Prop :=
  ∃ fields, readBody room.read body = .ok (.object fields) ∧
    Json.field? "text" fields = some (.str text) ∧ LinksIn fields links

/-- The format that a body asks for: the usual one if its field is absent or counts as such, or else
the one that a text names. -/
def AsksFor (room : Room) (settings : Settings) (body : Bytes) (format : Format) : Prop :=
  ∃ fields, readBody room.read body = .ok (.object fields) ∧
    (((∀ value, Json.field? "format" fields = some value → value.isVoid = true) ∧
        format = settings.format) ∨
      ∃ text, text ≠ [] ∧ Json.field? "format" fields = some (.str text) ∧
        Format.read text = .ok format)

/-! ## Too little room -/

/-- There is no room for the levels of a body. -/
def BodyTooDeep (room : Room) (body : Bytes) : Prop := readBody room.read body = .error .tooDeep

/-- A body orders a document for the levels of whose diagram there is no room. -/
def DiagramTooDeep (room : Room) (body : Bytes) : Prop :=
  ∃ text links f, Orders room body text links ∧ (parseText {} links text).1 = .ok f ∧
    Json.fits room.diagram f.levels = false

/-! ## Bad requests -/

/-- A request is bad, and the service says so. -/
def Rejection.IsBad (e : Rejection) : Prop := ∃ answer, e.response? = some answer ∧ answer.status = 400

theorem Service.status_of_isBad (framework : Framework) {e : Rejection} (h : e.IsBad) :
    (Service.answer framework (.error e)).status = 400 := by
  obtain ⟨answer, hanswer, hstatus⟩ := h
  rw [Service.answer, hanswer]
  exact hstatus

/-! ## Orders -/

namespace Order

variable {room : Room} {body : Bytes} {fields : List (Text × Json)} {order : Order} {e : Rejection}

/-! ## Fields -/

theorem given?_eq_none_iff {key : Text} :
    given? key fields = none ↔
      ∀ value, Json.field? key fields = some value → value.isVoid = true := by
  cases h : Json.field? key fields <;> simp [given?, h]

theorem given?_eq_some_iff {key : Text} {value : Json} :
    given? key fields = some value ↔
      Json.field? key fields = some value ∧ value.isVoid = false := by
  simp [given?, Option.filter_eq_some_iff]

/-- The links of a body are those in its fields. -/
theorem linksOf_eq_ok_iff {links : Links} : linksOf fields = .ok links ↔ LinksIn fields links := by
  unfold linksOf LinksIn
  cases hgiven : given? "paths" fields with
  | none =>
    have hvoid := given?_eq_none_iff.1 hgiven
    constructor
    · intro h
      exact Or.inl ⟨hvoid, (Except.ok.inj h).symm⟩
    · rintro (⟨-, rfl⟩ | hlinks)
      · rfl
      · have hempty := hvoid _ hlinks
        simp only [Json.isVoid, List.isEmpty_iff] at hempty
        rw [hempty]
  | some value =>
    obtain ⟨hfield, hsome⟩ := given?_eq_some_iff.1 hgiven
    rw [hfield]
    cases value <;> simp_all

theorem linksOf_eq_error (h : linksOf fields = .error e) : e = .links := by
  unfold linksOf at h
  split at h
  · cases h
  · cases h
  · exact (Except.error.inj h).symm

/-! ## Bodies -/

/-- An order is made of a text and of links. -/
theorem ofFields_eq_ok_iff :
    ofFields fields = .ok order ↔ Json.field? "text" fields = some (.str order.text) ∧
      linksOf fields = .ok order.links ∧ fields = order.fields := by
  constructor
  · intro h
    unfold ofFields at h
    split at h
    · rename_i text htext
      cases hlinks : linksOf fields with
      | error e =>
        rw [hlinks] at h
        cases h
      | ok links =>
        rw [hlinks] at h
        obtain rfl := Except.ok.inj h
        exact ⟨htext, rfl, rfl⟩
    · cases h
  · rintro ⟨htext, hlinks, rfl⟩
    simp only [ofFields, htext, hlinks]
    rfl

/-- Fields that make no order are a bad request. -/
theorem isBad_of_ofFields (h : ofFields fields = .error e) : e.IsBad := by
  unfold ofFields at h
  split at h
  · cases hlinks : linksOf fields with
    | ok links =>
      rw [hlinks] at h
      cases h
    | error e' =>
      rw [hlinks] at h
      rw [← Except.error.inj h, linksOf_eq_error hlinks]
      exact ⟨_, rfl, rfl⟩
  · rw [← Except.error.inj h]
    exact ⟨_, rfl, rfl⟩

/-- An order is made of the fields of its body. -/
theorem read_eq_ok_iff :
    read room body = .ok order ↔ readBody room.read body = .ok (.object order.fields) ∧
      Json.field? "text" order.fields = some (.str order.text) ∧
        linksOf order.fields = .ok order.links := by
  constructor
  · intro h
    unfold read at h
    split at h
    · cases h
    · rename_i fields hbody
      obtain ⟨htext, hlinks, rfl⟩ := ofFields_eq_ok_iff.1 h
      exact ⟨hbody, htext, hlinks⟩
    · cases h
  · rintro ⟨hbody, htext, hlinks⟩
    simp only [read, hbody]
    exact ofFields_eq_ok_iff.2 ⟨htext, hlinks, rfl⟩

theorem exists_read_iff {text : Text} {links : Links} :
    (∃ order, read room body = .ok order ∧ order.text = text ∧ order.links = links) ↔
      Orders room body text links := by
  constructor
  · rintro ⟨order, hread, rfl, rfl⟩
    obtain ⟨hbody, htext, hlinks⟩ := read_eq_ok_iff.1 hread
    exact ⟨order.fields, hbody, htext, linksOf_eq_ok_iff.1 hlinks⟩
  · rintro ⟨fields, hbody, htext, hlinks⟩
    exact ⟨⟨text, links, fields⟩, read_eq_ok_iff.2 ⟨hbody, htext, linksOf_eq_ok_iff.2 hlinks⟩,
      rfl, rfl⟩

theorem orders_of_read (h : read room body = .ok order) :
    Orders room body order.text order.links := exists_read_iff.1 ⟨order, h, rfl, rfl⟩

/-- A body makes one order. -/
theorem eq_of_orders {text : Text} {links : Links} (h : Orders room body text links)
    (hread : read room body = .ok order) : text = order.text ∧ links = order.links := by
  obtain ⟨order', hread', rfl, rfl⟩ := exists_read_iff.2 h
  rw [hread] at hread'
  obtain rfl := Except.ok.inj hread'
  exact ⟨rfl, rfl⟩

/-- A body that makes no order orders nothing. -/
theorem not_orders_of_read_error {text : Text} {links : Links} (h : read room body = .error e) :
    ¬ Orders room body text links := by
  intro horders
  obtain ⟨order, hread, -⟩ := exists_read_iff.2 horders
  rw [h] at hread
  cases hread

/-- A body that makes an order is not too deep. -/
theorem not_tooDeep_of_read (h : read room body = .ok order) : ¬ BodyTooDeep room body := by
  intro hdeep
  rw [BodyTooDeep, (read_eq_ok_iff.1 h).1] at hdeep
  cases hdeep

/-- A body that makes no order is a bad request, unless there is no room for it. -/
theorem read_eq_error (h : read room body = .error e) :
    (BodyTooDeep room body ∧ e = .tooDeep) ∨ (¬ BodyTooDeep room body ∧ e.IsBad) := by
  unfold BodyTooDeep
  unfold read at h
  split at h
  · rename_i refusal hbody
    rw [hbody, ← Except.error.inj h]
    cases refusal with
    | tooDeep => exact Or.inl ⟨rfl, rfl⟩
    | notJson => exact Or.inr ⟨by simp, _, rfl, rfl⟩
  · rename_i fields hbody
    rw [hbody]
    exact Or.inr ⟨by simp, isBad_of_ofFields h⟩
  · rename_i value _ hbody
    rw [hbody, ← Except.error.inj h]
    exact Or.inr ⟨by simp, _, rfl, rfl⟩

/-! ## Formats and diagrams -/

variable {settings : Settings}

/-- The format of an order is the one that its body asks for. -/
theorem asksFor_iff {format : Format} (h : read room body = .ok order) :
    AsksFor room settings body format ↔ order.format settings = .ok format := by
  obtain ⟨hbody, -, -⟩ := read_eq_ok_iff.1 h
  have hfields : AsksFor room settings body format ↔
      ((∀ value, Json.field? "format" order.fields = some value → value.isVoid = true) ∧
          format = settings.format) ∨
        ∃ text, text ≠ [] ∧ Json.field? "format" order.fields = some (.str text) ∧
          Format.read text = .ok format := by
    unfold AsksFor
    rw [hbody]
    simp
  rw [hfields, ← given?_eq_none_iff, Order.format]
  cases hgiven : given? "format" order.fields with
  | none =>
    have hnone := given?_eq_none_iff.1 hgiven
    constructor
    · rintro (⟨-, rfl⟩ | ⟨text, htext, hfield, -⟩)
      · rfl
      · have hvoid := hnone _ hfield
        simp [Json.isVoid, htext] at hvoid
    · intro h
      exact Or.inl ⟨rfl, (Except.ok.inj h).symm⟩
  | some value =>
    obtain ⟨hfield, hsome⟩ := given?_eq_some_iff.1 hgiven
    rw [hfield]
    cases value with
    | str text =>
      have htext : text ≠ [] := by simpa [Json.isVoid] using hsome
      simp [mapError_eq_ok_iff, htext]
    | _ => simp

/-- A format that is unknown, or no text, is a bad request. -/
theorem isBad_of_format (h : order.format settings = .error e) : e.IsBad := by
  unfold Order.format at h
  split at h
  · cases h
  · obtain ⟨unsupported, -, rfl⟩ := mapError_eq_error_iff.1 h
    exact ⟨_, rfl, rfl⟩
  · rw [← Except.error.inj h]
    exact ⟨_, rfl, rfl⟩

/-- A document that can be parsed has its diagram, if there is room for it. -/
theorem diagram_of_parse {f : Forest Node} (h : (parseText {} order.links order.text).1 = .ok f) :
    order.diagram room
      = if Json.fits room.diagram f.levels then (diagramText f).mapError .document
        else .error .tooDeep := by
  rw [Order.diagram, Order.forest, h]
  rfl

/-- A document that is refused has none. -/
theorem diagram_of_refusal {refusal : ParseError}
    (h : (parseText {} order.links order.text).1 = .error refusal) :
    order.diagram room = .error (.document refusal) := by
  rw [Order.diagram, Order.forest, h]
  rfl

/-- The diagram of an order is that of its document, if there is room for it. -/
theorem diagram_eq_ok_iff {document : Text} :
    order.diagram room = .ok document ↔
      ∃ f, (parseText {} order.links order.text).1 = .ok f ∧
        Json.fits room.diagram f.levels = true ∧ diagramText f = .ok document := by
  cases hparse : (parseText {} order.links order.text).1 with
  | error refusal => simp [diagram_of_refusal hparse]
  | ok f =>
    rw [diagram_of_parse hparse]
    cases hfits : Json.fits room.diagram f.levels <;> simp [hfits, mapError_eq_ok_iff]

/-- The diagram of the document that a body orders is too deep, or not. -/
theorem diagramTooDeep_iff (h : read room body = .ok order) :
    DiagramTooDeep room body ↔ ∃ f, (parseText {} order.links order.text).1 = .ok f ∧
      Json.fits room.diagram f.levels = false := by
  constructor
  · rintro ⟨text, links, f, horders, hparse, hfits⟩
    obtain ⟨rfl, rfl⟩ := eq_of_orders horders h
    exact ⟨f, hparse, hfits⟩
  · rintro ⟨f, hparse, hfits⟩
    exact ⟨order.text, order.links, f, orders_of_read h, hparse, hfits⟩

/-- The diagram of an order that has one is not too deep. -/
theorem not_diagramTooDeep {document : Text} (hread : read room body = .ok order)
    (hdiagram : order.diagram room = .ok document) : ¬ DiagramTooDeep room body := by
  rw [diagramTooDeep_iff hread]
  rintro ⟨f, hparse, hfits⟩
  rw [diagram_of_parse hparse, hfits] at hdiagram
  cases hdiagram

/-- A document that has no diagram is a bad request, unless there is no room for it. -/
theorem diagram_eq_error (hread : read room body = .ok order) (h : order.diagram room = .error e) :
    (DiagramTooDeep room body ∧ e = .tooDeep) ∨ (¬ DiagramTooDeep room body ∧ e.IsBad) := by
  rw [diagramTooDeep_iff hread]
  cases hparse : (parseText {} order.links order.text).1 with
  | error refusal =>
    rw [diagram_of_refusal hparse] at h
    rw [← Except.error.inj h]
    exact Or.inr ⟨by simp, _, rfl, rfl⟩
  | ok f =>
    rw [diagram_of_parse hparse] at h
    cases hfits : Json.fits room.diagram f.levels with
    | false =>
      rw [hfits] at h
      exact Or.inl ⟨⟨f, rfl, hfits⟩, (Except.error.inj h).symm⟩
    | true =>
      rw [hfits, if_pos rfl] at h
      obtain ⟨refusal, -, rfl⟩ := mapError_eq_error_iff.1 h
      exact Or.inr ⟨by simp [hfits], _, rfl, rfl⟩

end Order

/-! ## Failures -/

/-- There is no order in a body that is too deep. -/
theorem Order.read_of_tooDeep {room : Room} {body : Bytes} (h : BodyTooDeep room body) :
    Order.read room body = .error .tooDeep := by
  rw [Order.read, h]
  rfl

/-- The service fails at a body that is too deep, wherever it is posted. -/
theorem Service.perform_of_tooDeep {room : Room} {body : Bytes} (h : BodyTooDeep room body)
    (settings : Settings) (renderer : Renderer) {endpoint : Endpoint}
    (hendpoint : endpoint ≠ .health) :
    Service.perform settings renderer room body endpoint = ([], .error .tooDeep) := by
  cases endpoint with
  | health => exact absurd rfl hendpoint
  | image => rw [Service.perform, Order.read_of_tooDeep h]
  | _ =>
    rw [Service.perform, Order.read_of_tooDeep h]
    rfl

end CallDiagram
