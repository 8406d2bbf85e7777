import CallDiagram.Rendering.Renderer
import CallDiagram.Settings.Basic

/-!
# Rendering

Drawing a document with the command, the time limit and the format of some settings.

* `Settings.drawing` — the command for a format;
* `RunFault`, `Outcome.image` — the image of a run, or why there is none;
* `RenderFault` — why a document is not rendered;
* `render` — one document, with the attempts that it took.
-/

namespace CallDiagram

/-- The words that start the drawing program for a format. -/
def Settings.drawing (settings : Settings) (format : Format) : List Text :=
  settings.command ++ [("-t" : Text) ++ format.name, "-pipe", "-charset", "UTF-8"]

/-- The words that start the drawing program for the format that a text names. -/
def Settings.drawingAs (settings : Settings) (format : Text) :
    Except Format.Unsupported (List Text) :=
  (Format.read format).map settings.drawing

/-- Why a run has no image. -/
inductive RunFault where
  /-- The drawing program failed. -/
  | failed (failure : RenderFailure)
  /-- The drawing program could not be run to its end. -/
  | foreign (e : ForeignError)

/-- Why a document was not rendered. -/
inductive RenderFault where
  /-- The format is unknown. -/
  | format (e : Format.Unsupported)
  /-- The drawing program failed. -/
  | failed (e : RenderError)
  /-- The drawing program could not be run to its end. -/
  | foreign (e : ForeignError)

/-- The wording of a fault. -/
def RenderFault.message : RenderFault → Text
  | .format e => e.message
  | .failed e => e.message
  | .foreign e => e.words

/-- What the fault of a run is for a document.  Only failures of the drawing program name the source
of the document. -/
def RunFault.forSource (source : Option Text) : RunFault → RenderFault
  | .failed failure => .failed ⟨failure, source⟩
  | .foreign e => .foreign e

/-- The image of a run that ended well within the limit. -/
def Outcome.image (limit : Binary64) : Outcome → Except RunFault Bytes
  | .timeout => .error (.failed (.timedOut limit))
  | .exited status image complaint =>
      if status = 0 then .ok image
      else .error (.failed (.badStatus status (complaintText complaint)))
  | .failed e => .error (.foreign e)

/-- A run of the drawing program for a document. -/
def Renderer.run (renderer : Renderer) (launch : Launch) (limit : Binary64) (command : List Text)
    (document : Text) : Attempt × Except RunFault Bytes :=
  match renderer with
  | .missing =>
      (⟨command, match launch with | .single => some document | .concurrent => none⟩,
        .error (.failed (.notFound (command.headD []))))
  | .present respond =>
      (⟨command, some document⟩, (respond launch limit command document).image limit)

/-- The image of a document in the format requested, or the usual one, with the attempts to draw
it.  An unknown format is refused before any attempt. -/
def render (settings : Settings) (renderer : Renderer) (launch : Launch) (requested : Option Text)
    (source : Option Text) (document : Text) : List Attempt × Except RenderFault Bytes :=
  match settings.drawingAs ((Text.nonempty? requested).getD settings.format.name) with
  | .error e => ([], .error (.format e))
  | .ok command =>
      let (attempt, result) := renderer.run launch settings.timeout command document
      ([attempt], result.mapError (RunFault.forSource source))

end CallDiagram
