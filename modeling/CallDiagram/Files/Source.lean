import CallDiagram.Files.Tree
import CallDiagram.Statement.Reader
import CallDiagram.Text.Order
import CallDiagram.Text.Percent

/-!
# Source files

A source file is told by its extension.  Its name without the suffix names the files that are made
from it and, if it is the identifier of a component, the component that it documents.

* `componentName?` — the component that a source documents;
* `bareName`, `outputStem` — the name and the path of its products, without extension;
* `imageLink` — the link to its image;
* `FileTree.sources` — the sources of a directory, in ascending order.
-/

namespace CallDiagram

/-- Whether a text is the identifier of a component: two names around a number sign, and perhaps a
line break at the end. -/
def isIdentifier (text : Text) : Bool :=
  match identifier? text with
  | some (_, '#' :: rest) =>
      match identifier? rest with
      | some (_, rest) => rest = [] || rest = ['\n']
      | none => false
  | _ => false

/-- A name without the suffix it ends in.  The empty suffix takes the whole name. -/
def withoutSuffix? (suffix name : Text) : Option Text :=
  if suffix.isEmpty then some [] else Text.dropEnding? suffix name

/-- The component that a source documents. -/
def componentName? (source : Path) (suffix : Text) : Option Text :=
  if source.extension = suffix then (withoutSuffix? suffix source.name).filter isIdentifier
  else none

/-- The name of what is made from a source: its name without the suffix or, if it does not end so,
without its extension. -/
def bareName (source : Path) (suffix : Text) : Text :=
  (withoutSuffix? suffix source.name).getD source.stem

/-- The path of what is made from a source, without extension. -/
def outputStem (source : Path) (suffix : Text) : Except NameError Path :=
  source.withName (bareName source suffix)

/-- The link from one product to the image of a source beside it. -/
def imageLink (source : Path) (format suffix : Text) : Text :=
  Percent.encode (bareName source suffix ++ '.' :: format)

/-- The sources of a directory: its files with the suffix as their extension, by name. -/
def FileTree.sources (t : FileTree) (directory : Path) (suffix : Text) :
    Except FileError (List Path) := do
  let names ← t.names directory.text
  let found ← (names.map directory.child).filterM fun p => do
    .ok ((← t.isFile p.text) && p.extension == suffix)
  .ok (Text.sortBy Path.name found)

end CallDiagram
