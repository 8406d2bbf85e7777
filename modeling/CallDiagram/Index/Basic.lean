import CallDiagram.Document.Basic
import CallDiagram.Files.Source

/-!
# Component indexes

An index binds the identifiers of components to links.  Here it is made from the sources of a
directory: every source that documents a component binds it to the link to its image.
-/

namespace CallDiagram

/-- The binding that a source adds to an index, if it documents a component. -/
def indexBinding? (format suffix : Text) (source : Path) : Option (Text × Json) :=
  (componentName? source suffix).map fun name => (name, .str (imageLink source format suffix))

/-- The index of some sources; of two for one component the later counts. -/
def indexOf (format suffix : Text) (sources : List Path) : Links :=
  (sources.filterMap (indexBinding? format suffix)).foldl
    (fun index (k, v) => Json.put k v index) []

/-- The index of the sources of a directory. -/
def FileTree.index (t : FileTree) (directory : Path) (format suffix : Text) :
    Except FileError Links :=
  (t.sources directory suffix).map (indexOf format suffix)

end CallDiagram
