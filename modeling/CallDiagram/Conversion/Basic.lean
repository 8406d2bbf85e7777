import CallDiagram.Diagram.Basic
import CallDiagram.Document.Basic
import CallDiagram.Files.Source
import CallDiagram.Action.Basic

/-!
# Conversions

A source file is converted into a diagram document beside it and an image of that.

* `Action.parseDocument` — the forest of a text, reported to the log;
* `Action.diagramOf` — the diagram of a source file, and the counter behind it;
* `Action.convertFile` — one source, its diagram and its image.
-/

namespace CallDiagram

/-- A source file and what was made from it. -/
structure Conversion where
  /-- The source. -/
  source : Path
  /-- Where the diagram was written. -/
  diagramPath : Path
  /-- The diagram, without the line break at the end of its file. -/
  diagram : Text
  /-- Where the image was written, if one was. -/
  imagePath : Option Path
  deriving DecidableEq, Repr

/-- The extension of diagram files. -/
def diagramExtension : Text := ".puml"

/-- The content of a file that holds a diagram. -/
def diagramFile (diagram : Text) : Text := diagram ++ ['\n']

/-- The path of the diagram of a source, given its path without extension. -/
def diagramPathOf (stem : Path) : Except NameError Path :=
  stem.withName (stem.name ++ diagramExtension)

/-- The path of the image of a source, given its path without extension. -/
def imagePathOf (stem : Path) (format : Text) : Except NameError Path :=
  stem.withName (stem.name ++ '.' :: format)

namespace Action

/-- The logger of the reading of documents. -/
def parseLogger : Text := "codesque.parser"

/-- The logger of conversions. -/
def batchLogger : Text := "codesque.batch"

/-- The forest of a text, and the counter behind it.  The sizes of a forest are reported. -/
def parseDocument (counter : Counter) (links : Links) (text : Text) :
    Action (Forest Node × Counter) := do
  let (result, next) := parseText counter links text
  let forest ← ofExcept .document result
  report parseLogger .debug
    ("Parsed " ++ Text.natural forest.walk.length ++ " node(s) into "
      ++ Text.natural forest.tops.length ++ " root(s)")
  pure (forest, next)

/-- The diagram of a text, and the counter behind it. -/
def diagramOfText (counter : Counter) (links : Links) (text : Text) : Action (Text × Counter) := do
  let (forest, next) ← parseDocument counter links text
  let diagram ← ofExcept .document (diagramText forest)
  pure (diagram, next)

/-- The diagram of a source file, and the counter behind it.  The refusal of its document is
reported. -/
def diagramOf (source : Path) (links : Links) (counter : Counter) : Action (Text × Counter) := do
  let text ← readText source.text
  match ← outcome (diagramOfText counter links text) with
  | .ok result => pure result
  | .error fault => do
      report batchLogger .error (source.text ++ ": " ++ fault.message)
      throw fault

/-- Reports that an image was written. -/
def reportImage (source image : Path) : Action Unit :=
  report batchLogger .info ("Rendered " ++ source.text ++ " -> " ++ image.text)

/-- Writes the diagram of a source and its image, in the format requested and to the path given, or
in the usual format and beside the source. -/
def convertFile (settings : Settings) (source : Path) (requested : Option Text)
    (output : Option Path) (links : Links) : Action Conversion := do
  let format := (Text.nonempty? requested).getD settings.format.name
  let stem ← ofExcept .name (outputStem source settings.suffix)
  let (diagram, _) ← diagramOf source links {}
  let diagramPath ← ofExcept .name (diagramPathOf stem)
  writeText diagramPath.text (diagramFile diagram)
  let imagePath ←
    match output with
    | some path => pure path
    | none => ofExcept .name (imagePathOf stem format)
  let image ← draw settings .single format source.text diagram
  writeBytes imagePath.text image
  reportImage source imagePath
  pure { source, diagramPath, diagram, imagePath := some imagePath }

end Action

end CallDiagram
