import CallDiagram.Proofs.Conversion.Diagram
import CallDiagram.Proofs.Service.Orders

/-!
# Images from the service

An image is drawn exactly if the same body gets its diagram and asks for a format that there is.  The
drawing program is given this diagram, and what it writes is the answer.

* `ShownAs`, `image_of_ok` — the answer with the image that the drawing program writes;
* `ImageTooDeep` — bodies for whose image there is no room;
* `ImageLaw`, `imageLaw_of_body` — the answers to any body;
* `not_refused_brackets` — a body of open brackets, which is no bad request.
-/

namespace CallDiagram

/-! ## The drawing program -/

/-- The answer with the image of a document: what the drawing program writes if it ends in time and
reports no failure.  An error from whatever starts the program is not dealt with. -/
def ShownAs (framework : Framework) (settings : Settings) (renderer : Renderer) (format : Format)
    (document : Text) (answer : Response) : Prop :=
  match renderer with
  | .missing => answer.status = 502
  | .present respond =>
      match respond .single settings.timeout (settings.drawing format) document with
      | .timeout => answer.status = 502
      | .exited status image _ =>
          if status = 0 then answer = ⟨200, some (framework.header format.mediaType), image⟩
          else answer.status = 502
      | .failed _ => answer = framework.failure

/-- A document is drawn in a format by one run of the drawing program, which is offered all of it. -/
theorem render_named (settings : Settings) (renderer : Renderer) (format : Format)
    (document : Text) :
    render settings renderer .single (some format.name) none document
      = ([⟨settings.drawing format, some document⟩],
        (renderer.run .single settings.timeout (settings.drawing format) document).2.mapError
          (RunFault.forSource none)) := by
  have hcommand : settings.drawingAs ((Text.nonempty? (some format.name)).getD settings.format.name)
      = .ok (settings.drawing format) := by
    have hname : (Text.nonempty? (some format.name)).getD settings.format.name = format.name := by
      cases format <;> rfl
    rw [hname, Settings.drawingAs, Format.read_name]
    rfl
  rw [render, hcommand]
  cases renderer <;> rfl

/-! ## Answers -/

/-- There is no room for the levels of a body, or of the diagram that should be drawn. -/
def ImageTooDeep (room : Room) (settings : Settings) (body : Bytes) : Prop :=
  BodyTooDeep room body ∨
    (DiagramTooDeep room body ∧ ∃ format, AsksFor room settings body format)

/-- The answer to a body that is posted for an image, beside the one to the same body when it is
posted for the diagram. -/
structure ImageLaw (framework : Framework) (room : Room) (settings : Settings) (renderer : Renderer)
    (body : Bytes) (diagram : Response) (result : List Attempt × Response) : Prop where
  /-- The document of a diagram that is answered is drawn in the format that is asked for. -/
  drawn : ∀ format, diagram.status = 200 → AsksFor room settings body format →
    ∃ document, Utf8.encode document = diagram.body ∧
      result.1 = [⟨settings.drawing format, some document⟩] ∧
      ShownAs framework settings renderer format document result.2
  /-- Where there is no room, the service fails and nothing is drawn. -/
  crowded : ImageTooDeep room settings body → result = ([], framework.failure)
  /-- Every other body is a bad request, for which nothing is drawn. -/
  refused : ¬ (diagram.status = 200 ∧ ∃ format, AsksFor room settings body format) →
    ¬ ImageTooDeep room settings body → result.1 = [] ∧ result.2.status = 400

section Law

variable {framework : Framework} {room : Room} {settings : Settings} {renderer : Renderer}
  {body : Bytes} {diagram : Response}

/-- Where there is no room for an image, and no diagram either, the service should fail. -/
theorem imageLaw_of_tooDeep (hdiagram : diagram.status ≠ 200)
    (hdeep : ImageTooDeep room settings body) :
    ImageLaw framework room settings renderer body diagram ([], framework.failure) where
  drawn _ h _ := absurd h hdiagram
  crowded _ := rfl
  refused _ h := absurd hdeep h

/-- Where there is no diagram or no format, and yet room enough, the request should be bad. -/
theorem imageLaw_of_isBad {e : Rejection}
    (hnone : diagram.status = 200 → ∀ format, ¬ AsksFor room settings body format)
    (hroom : ¬ ImageTooDeep room settings body) (he : e.IsBad) :
    ImageLaw framework room settings renderer body diagram
      ([], Service.answer framework (.error e)) where
  drawn format h hasks := absurd hasks (hnone h format)
  crowded h := absurd h hroom
  refused _ _ := ⟨rfl, Service.status_of_isBad framework he⟩

end Law

namespace Service

variable {framework : Framework} {room : Room} {settings : Settings} {renderer : Renderer}
  {body : Bytes} {order : Order}

/-- The image of an order is what the drawing program makes of its diagram. -/
theorem image_of_ok (framework : Framework) {format : Format} {document : Text}
    (hformat : order.format settings = .ok format) (hdiagram : order.diagram room = .ok document) :
    (image settings renderer room order).1 = [⟨settings.drawing format, some document⟩] ∧
      ShownAs framework settings renderer format document
        (answer framework (image settings renderer room order).2) := by
  have himage : image settings renderer room order
      = ([⟨settings.drawing format, some document⟩],
        (((renderer.run .single settings.timeout (settings.drawing format) document).2.mapError
          (RunFault.forSource none)).mapError .rendering).map (.content 200 format.mediaType)) := by
    rw [image, hformat, hdiagram]
    simp only [bind, Except.bind, render_named]
  rw [himage]
  refine ⟨rfl, ?_⟩
  unfold ShownAs
  cases renderer with
  | missing => rfl
  | present respond =>
    simp only [Renderer.run]
    cases respond .single settings.timeout (settings.drawing format) document with
    | timeout => rfl
    | failed e => rfl
    | exited status image complaint =>
      simp only [Outcome.image]
      split <;> rfl

/-- An order without a format is a bad request. -/
theorem image_of_no_format {e : Rejection} (h : order.format settings = .error e) :
    image settings renderer room order = ([], .error e) := by
  rw [image, h]
  rfl

/-- An order with a format, but without a diagram, is not met. -/
theorem image_of_no_diagram {format : Format} {e : Rejection}
    (hformat : order.format settings = .ok format) (h : order.diagram room = .error e) :
    image settings renderer room order = ([], .error e) := by
  rw [image, hformat, h]
  rfl

/-- The answer to an order for an image, beside the one to the same order for the diagram. -/
theorem imageLaw_of_read (hframework : framework.Documented)
    (hread : Order.read room body = .ok order) :
    ImageLaw framework room settings renderer body
      (answer framework (order.diagram room >>= fun document => .ok (.plain 200 document)))
      ((image settings renderer room order).1,
        answer framework (image settings renderer room order).2) := by
  have hbody := Order.not_tooDeep_of_read hread
  cases hformat : order.format settings with
  | error e =>
    have hnone : ∀ format, ¬ AsksFor room settings body format := by
      intro format hasks
      rw [Order.asksFor_iff hread, hformat] at hasks
      cases hasks
    rw [image_of_no_format hformat]
    refine imageLaw_of_isBad (fun _ => hnone) ?_ (Order.isBad_of_format hformat)
    rintro (h | ⟨-, format, hasks⟩)
    · exact hbody h
    · exact hnone format hasks
  | ok format =>
    have hasks := (Order.asksFor_iff hread).2 hformat
    cases hdiagram : order.diagram room with
    | error e =>
      rw [image_of_no_diagram hformat hdiagram]
      obtain ⟨hdeep, rfl⟩ | ⟨hroom, he⟩ := Order.diagram_eq_error hread hdiagram
      · refine imageLaw_of_tooDeep (fun h => ?_) (Or.inr ⟨hdeep, format, hasks⟩)
        exact absurd (hframework.failure.symm.trans h) (by decide)
      · refine imageLaw_of_isBad (fun h => ?_) ?_ he
        · exact absurd ((status_of_isBad framework he).symm.trans h) (by decide)
        · rintro (h | ⟨h, -⟩)
          · exact hbody h
          · exact hroom h
    | ok document =>
      obtain ⟨hattempts, hshown⟩ := image_of_ok framework hformat hdiagram
      have hroom : ¬ ImageTooDeep room settings body := by
        rintro (h | ⟨h, -⟩)
        · exact hbody h
        · exact Order.not_diagramTooDeep hread hdiagram h
      constructor
      · intro format' _ hasks'
        rw [Order.asksFor_iff hread, hformat] at hasks'
        obtain rfl := Except.ok.inj hasks'
        exact ⟨document, rfl, hattempts, hshown⟩
      · exact fun h => absurd h hroom
      · exact fun h => absurd ⟨rfl, format, hasks⟩ h

/-- Whatever is posted for an image and for a diagram, and whatever the drawing program does with
it: the program is run at most once, for the diagram that is answered and in the format that is
asked for, and the answer is its image or its failure.  Any other body is a bad request, unless
there is no room for its levels. -/
theorem imageLaw_of_body (hframework : framework.Documented) (room : Room) (settings : Settings)
    (renderer : Renderer) (body : Bytes) :
    ImageLaw framework room settings renderer body
      (respondWithin framework room settings renderer ⟨"POST", "/api/plantuml", body⟩).2
      (respondWithin framework room settings renderer ⟨"POST", "/api/render", body⟩) := by
  have hdiagram : (respondWithin framework room settings renderer ⟨"POST", "/api/plantuml", body⟩).2
      = answer framework (Order.read room body >>= fun order =>
          order.diagram room >>= fun document => .ok (.plain 200 document)) :=
    congrArg Prod.snd (respondWithin_endpoint hframework room .diagram body)
  have himage : respondWithin framework room settings renderer ⟨"POST", "/api/render", body⟩
      = ((perform settings renderer room body .image).1,
        answer framework (perform settings renderer room body .image).2) :=
    respondWithin_endpoint hframework room .image body
  rw [hdiagram, himage, perform]
  cases hread : Order.read room body with
  | error e =>
    obtain ⟨hdeep, rfl⟩ | ⟨hroom, he⟩ := Order.read_eq_error hread
    · refine imageLaw_of_tooDeep (fun h => ?_) (Or.inl hdeep)
      exact absurd (hframework.failure.symm.trans h) (by decide)
    · refine imageLaw_of_isBad (fun h => ?_) ?_ he
      · exact absurd ((status_of_isBad framework he).symm.trans h) (by decide)
      · rintro (h | ⟨⟨text, links, f, horders, -⟩, -⟩)
        · exact hroom h
        · exact Order.not_orders_of_read_error hread horders
  | ok order => exact imageLaw_of_read hframework hread

/-- A document with a single call is drawn. -/
theorem imageLaw_call :
    Framework.bare.Documented ∧
      ImageLaw .bare {} {} (.present fun _ _ _ _ => .exited 0 [0x2A] [])
        (posting "/api/render" "A#f()" none).body
        (respondWithin .bare {} {} (.present fun _ _ _ _ => .exited 0 [0x2A] [])
          ⟨"POST", "/api/plantuml", (posting "/api/render" "A#f()" none).body⟩).2
        (respondWithin .bare {} {} (.present fun _ _ _ _ => .exited 0 [0x2A] [])
          ⟨"POST", "/api/render", (posting "/api/render" "A#f()" none).body⟩) ∧
      (respondWithin .bare {} {} (.present fun _ _ _ _ => .exited 0 [0x2A] [])
        ⟨"POST", "/api/render", (posting "/api/render" "A#f()" none).body⟩).2
          = ⟨200, some "image/svg+xml", [0x2A]⟩ :=
  ⟨Framework.documented_bare, imageLaw_of_body Framework.documented_bare {} {} _ _,
    by decide +kernel⟩

/-- Not every body that gets no diagram is a bad request for an image: the levels of open brackets
may be too many. -/
theorem not_refused_brackets :
    ¬ ∀ (framework : Framework), framework.Documented → ∀ (room : Room) (settings : Settings)
      (renderer : Renderer) (body : Bytes),
        (respondWithin framework room settings renderer ⟨"POST", "/api/plantuml", body⟩).2.status
          ≠ 200 →
        (respondWithin framework room settings renderer ⟨"POST", "/api/render", body⟩).2.status
          = 400 := by
  intro h
  have hdeep : BodyTooDeep { read := some 1000 } (Utf8.encode (List.replicate 5000 '[')) :=
    readBody_brackets (by decide)
  generalize Utf8.encode (List.replicate 5000 '[') = body at hdeep
  have hfails : ∀ endpoint : Endpoint, endpoint ≠ .health →
      (respondWithin .bare { read := some 1000 } {} .missing
        ⟨endpoint.method, endpoint.path, body⟩).2.status = 500 := by
    intro endpoint hendpoint
    rw [respondWithin_endpoint Framework.documented_bare,
      perform_of_tooDeep hdeep {} .missing hendpoint]
    rfl
  have hdiagram : (respondWithin .bare { read := some 1000 } {} .missing
      ⟨"POST", "/api/plantuml", body⟩).2.status = 500 := hfails .diagram (by decide)
  have himage : (respondWithin .bare { read := some 1000 } {} .missing
      ⟨"POST", "/api/render", body⟩).2.status = 500 := hfails .image (by decide)
  have hstatus := h .bare Framework.documented_bare { read := some 1000 } {} .missing body
    (by rw [hdiagram]; decide)
  exact absurd (himage.symm.trans hstatus) (by decide)

end Service

end CallDiagram
