import CallDiagram.Number.Shortest
import CallDiagram.Text.Utf8
import CallDiagram.Text.Blank

/-!
# The drawing program

Images are drawn by an external program, which reads a document and writes an image or a complaint.
Here it is a function of the way in which it is started, the time limit, its command and the
document, or it is missing.  What starts it is no part of the program either: it may refuse a
program that it has found, or a time limit that it cannot wait for, and then it raises an error of
its own.

* `ForeignError` — an error of what the program rests on;
* `Launch`, `Renderer`, `Outcome` — the program, how it is started and what a run of it comes to;
* `Attempt` — a try to run it, as an observer sees it;
* `RenderError` — a failure for the source of a document, with `RenderError.message`.
-/

namespace CallDiagram

/-- An error that is raised by a library or by the machine, not by the program. -/
structure ForeignError where
  /-- The name of its kind. -/
  kind : Text
  /-- Whether it says that a value is not valid. -/
  isValue : Bool
  /-- Its wording. -/
  words : Text
  deriving DecidableEq, Repr

/-- How the drawing program is started. -/
inductive Launch where
  /-- By itself, and with the document at once. -/
  | single
  /-- Beside others: the document is offered only to a program that could be started. -/
  | concurrent
  deriving DecidableEq, Repr

/-- What a run of the drawing program comes to. -/
inductive Outcome where
  /-- It does not end in time. -/
  | timeout
  /-- It ends with a status, an image on one stream and a complaint on the other. -/
  | exited (status : Int) (image complaint : Bytes)
  /-- It cannot be started, or not be waited for. -/
  | failed (e : ForeignError)
  deriving DecidableEq, Repr

/-- The drawing program of a machine. -/
inductive Renderer where
  /-- The executable is not found. -/
  | missing
  /-- A run is determined by the way in which it is started, the time limit, the command and the
  document. -/
  | present (respond : Launch → Binary64 → List Text → Text → Outcome)

/-- A try to run the drawing program. -/
structure Attempt where
  /-- The words of the command. -/
  command : List Text
  /-- The document that was offered, if it came to that. -/
  input : Option Text
  deriving DecidableEq, Repr

/-- Why there is no image. -/
inductive RenderFailure where
  /-- The executable is not found. -/
  | notFound (executable : Text)
  /-- The program did not end within the limit. -/
  | timedOut (limit : Binary64)
  /-- The program ended with a status other than zero. -/
  | badStatus (status : Int) (complaint : Text)

/-- The wording of a failure. -/
def RenderFailure.detail : RenderFailure → Text
  | .notFound executable => "PlantUML executable not found: " ++ executable
  | .timedOut limit => "plantuml timed out after " ++ limit.brief ++ "s"
  | .badStatus status complaint =>
      "plantuml exited with status " ++ Text.integer status
        ++ (if complaint.isEmpty then [] else (": " : Text) ++ complaint)

/-- A failure for a document, with the name of its source if that is known. -/
structure RenderError where
  /-- What went wrong. -/
  failure : RenderFailure
  /-- Where the document came from. -/
  source : Option Text

/-- A wording behind the name of a source, if there is one. -/
def sourced (source : Option Text) (words : Text) : Text :=
  match Text.nonempty? source with
  | some source => source ++ ": " ++ words
  | none => words

/-- The wording of the failure behind the source. -/
def RenderError.message (e : RenderError) : Text := sourced e.source e.failure.detail

/-- The part of a complaint that is reported: up to 500 characters, without blanks around the
whole. -/
def complaintText (complaint : Bytes) : Text := (Text.trim (Utf8.decodeTolerant complaint)).take 500

end CallDiagram
