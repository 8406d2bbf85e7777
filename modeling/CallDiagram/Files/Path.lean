import CallDiagram.Text.Quoted

/-!
# Paths

A path is an anchor and a list of parts.  Its text is cut at slashes; empty parts and single dots
are dropped, double dots are kept.  The extension of a name starts at its last dot, unless that dot
is the first or the last character of the name.

* `Path`, `Path.ofText`, `Path.text` — paths and their texts (`ofText_parts`);
* `Path.name`, `Path.parent` — the last part and what is above it;
* `Path.stem`, `Path.extension` — the two halves of the name;
* `Path.withName` — the path beside it with another name, or a `NameError`.
-/

namespace CallDiagram

/-- Where a path starts. -/
inductive Anchor where
  /-- At the working directory. -/
  | here
  /-- At the root. -/
  | root
  /-- At the second root, which exactly two slashes name. -/
  | doubleRoot
  deriving DecidableEq, Repr

/-- The text of an anchor. -/
def Anchor.text : Anchor → Text
  | .here => []
  | .root => ['/']
  | .doubleRoot => ['/', '/']

/-- A path. -/
structure Path where
  /-- Where it starts. -/
  anchor : Anchor := .here
  /-- The names on the way. -/
  parts : List Text
  deriving DecidableEq, Repr

/-- Why a path does not take a name. -/
inductive NameError where
  /-- The path has no name that could be replaced. -/
  | noName (path : Text)
  /-- The name is not that of a single file. -/
  | invalid (name : Text)
  deriving DecidableEq, Repr

/-- The wording of the refusal of a name. -/
def NameError.message : NameError → Text
  | .noName path => "PosixPath(" ++ path.quoted ++ ") has an empty name"
  | .invalid name => "Invalid name " ++ name.quoted

namespace Path

/-! ## Texts of paths -/

/-- Whether a part between slashes stays where it is. -/
def isStill (part : Text) : Bool := part.isEmpty || part = ['.']

/-- The parts of a text. -/
def partsOf (text : Text) : List Text := (Text.pieces '/' text).filter fun part => !isStill part

/-- The anchor of a text. -/
def anchorOf : Text → Anchor
  | '/' :: '/' :: '/' :: _ => .root
  | '/' :: '/' :: _ => .doubleRoot
  | '/' :: _ => .root
  | _ => .here

/-- The path that a text names. -/
def ofText (text : Text) : Path := ⟨anchorOf text, partsOf text⟩

/-- Parts with slashes between. -/
def join : List Text → Text
  | [] => []
  | [part] => part
  | part :: parts => part ++ '/' :: join parts

/-- The text of a path; the path of the working directory is a dot. -/
def text (p : Path) : Text :=
  match p.anchor, p.parts with
  | .here, [] => ['.']
  | anchor, parts => anchor.text ++ join parts

/-! ## Names -/

/-- The last part. -/
def name (p : Path) : Text := p.parts.getLast?.getD []

/-- The path without its last part. -/
def parent (p : Path) : Path := { p with parts := p.parts.dropLast }

/-- The path of something in the directory that the path names. -/
def child (p : Path) (name : Text) : Path := { p with parts := p.parts ++ [name] }

/-- The halves of a name around the dot of its extension. -/
def cutExtension? (name : Text) : Option (Text × Text) :=
  (Text.cutLast? '.' name).filter fun r => !r.1.isEmpty && !r.2.isEmpty

/-- The extension of the name with its dot; empty if there is none. -/
def extension (p : Path) : Text :=
  match cutExtension? p.name with
  | some (_, back) => '.' :: back
  | none => []

/-- The name without its extension. -/
def stem (p : Path) : Text := ((cutExtension? p.name).map Prod.fst).getD p.name

/-- Whether a text names a single file beside others. -/
def isFileName (name : Text) : Bool :=
  name.getLast? != some '/' && anchorOf name == .here && (partsOf name).length == 1

/-- The path with another name in the same place. -/
def withName (p : Path) (name : Text) : Except NameError Path :=
  if p.name.isEmpty then .error (.noName p.text)
  else if isFileName name then .ok (p.parent.child name)
  else .error (.invalid name)

/-! ## Parts -/

theorem mem_partsOf {part text : Text} :
    part ∈ partsOf text ↔ part ∈ Text.pieces '/' text ∧ isStill part = false := by
  simp [partsOf]

theorem ofText_parts {part text : Text} (h : part ∈ (ofText text).parts) :
    part ≠ [] ∧ part ≠ ['.'] := by
  have h := (mem_partsOf.1 h).2
  simpa [isStill] using h

end Path

end CallDiagram
