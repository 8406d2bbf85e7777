import CallDiagram.Conversion.Basic
import CallDiagram.Index.File

/-!
# Batches

All sources of a directory are converted together.  First every source is read, with one counter for
all aliases, and its diagram written; then every image is drawn.  A fault while reading ends the
batch; a fault while drawing spoils one image only, and the batch fails after the last of them.

* `Action.prepare` — the diagrams of some sources;
* `Action.drawAll` — the images of some conversions;
* `Action.convertDirectory` — a whole directory.
-/

namespace CallDiagram.Action

/-- Writes the diagram of a source in a batch. -/
def prepareOne (settings : Settings) (format : Text) (links : Links) (source : Path)
    (counter : Counter) : Action ((Conversion × Path) × Counter) := do
  let (diagram, next) ← diagramOf source links counter
  let stem ← ofExcept .name (outputStem source settings.suffix)
  let diagramPath ← ofExcept .name (diagramPathOf stem)
  writeText diagramPath.text (diagramFile diagram)
  let imagePath ← ofExcept .name (imagePathOf stem format)
  report batchLogger .debug ("Wrote " ++ diagramPath.text)
  pure (({ source, diagramPath, diagram, imagePath := none }, imagePath), next)

/-- Writes the diagrams of some sources.  Each conversion comes with the path for its image. -/
def prepare (settings : Settings) (format : Text) (links : Links) :
    Counter → List Path → Action (List (Conversion × Path))
  | _, [] => pure []
  | counter, source :: rest => do
      let (conversion, next) ← prepareOne settings format links source counter
      let others ← prepare settings format links next rest
      pure (conversion :: others)

/-- Draws and writes the image of a conversion. -/
def drawOne (settings : Settings) (format : Text) (conversion : Conversion) (imagePath : Path) :
    Action Unit := do
  let image ← draw settings .concurrent format conversion.source.text conversion.diagram
  writeBytes imagePath.text image
  reportImage conversion.source imagePath

/-- Draws and writes the images of some conversions, and returns the faults that spoiled some. -/
def drawEach (settings : Settings) (format : Text) :
    List (Conversion × Path) → Action (List Fault)
  | [] => pure []
  | (conversion, imagePath) :: rest => do
      let result ← outcome (drawOne settings format conversion imagePath)
      let others ← drawEach settings format rest
      match result with
      | .ok _ => pure others
      | .error fault => pure (fault :: others)

/-- Stops unless a drawing may be run.  Where none may, the drawings would wait for ever. -/
def requireJobs (settings : Settings) : Action Unit :=
  if settings.maxJobs = 0 then throw .noJobs else pure ()

/-- Reports some faults and raises the first of them. -/
def raiseFirst (faults : List Fault) : Action Unit := do
  faults.forM fun fault => report batchLogger .error fault.message
  match faults with
  | [] => pure ()
  | fault :: _ => throw fault

/-- Draws and writes the images of some conversions; if some are spoiled, the faults are reported
and the first of them is raised. -/
def drawAll (settings : Settings) (format : Text) (conversions : List (Conversion × Path)) :
    Action Unit := do
  requireJobs settings
  raiseFirst (← drawEach settings format conversions)

/-- Converts every source of a directory.  Participants link to the images of this batch, so there
are links only with images.  The index of the links is written to a file if one is given. -/
def convertDirectory (settings : Settings) (directory : Path) (requested : Option Text)
    (images : Bool) (indexPath : Option Path) : Action (List Conversion) := do
  let format := (Text.nonempty? requested).getD settings.format.name
  let links ←
    if images then ofExcept .file ((← get).files.index directory format settings.suffix)
    else pure []
  match indexPath with
  | some path => do
      saveIndex links path
      report batchLogger .info ("Wrote component index " ++ path.text)
  | none => pure ()
  let sources ← ofExcept .file ((← get).files.sources directory settings.suffix)
  let conversions ← prepare settings format links {} sources
  if conversions.isEmpty then
    report batchLogger .warning
      ("No " ++ settings.suffix ++ " sources found in " ++ directory.text)
    pure []
  else if images then
    drawAll settings format conversions
    pure (conversions.map fun (conversion, path) => { conversion with imagePath := some path })
  else
    pure (conversions.map Prod.fst)

end CallDiagram.Action
