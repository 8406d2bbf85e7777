import CallDiagram.Files.Path
import CallDiagram.Text.Utf8

/-!
# File trees

The working directory and what is below it, as a map from addresses to files and directories.  A
path leads to an address, part by part, through directories that must exist.  Above the working
directory there are directories of which nothing else is known, and a path from the root leads
nowhere: a tree that is named by such a path is described from a working directory inside it.
Neither a part nor a whole path may be too long.  Whatever is there may be read and written; access
rights are not described.

* `FileTree`, `FileTree.get?`, `FileTree.put` — the map (`get?_put`);
* `FileTree.locate` — the address that a path leads to;
* `FileTree.read`, `FileTree.write`, `FileTree.makeDirectory`, `FileTree.names` — access by path
  text, or a `FileError`;
* `FileTree.ensureDirectory` — a directory with all directories above it.
-/

namespace CallDiagram

/-- The names on the way from the working directory.  Double dots lead up and stand in front of the
names that lead down. -/
abbrev Address := List Text

/-- What stands at an address. -/
inductive Entry where
  /-- A file. -/
  | file (content : Bytes)
  /-- A directory. -/
  | directory
  deriving DecidableEq, Repr

/-- A tree of files below a working directory: what stands at each address that leads down.  At the
others there are directories. -/
structure FileTree where
  /-- The addresses in use, each once. -/
  entries : List (Address × Entry) := []
  deriving DecidableEq, Repr

/-- Why a path could not be used. -/
inductive FileError where
  /-- The path holds a null character. -/
  | nullCharacter
  /-- Nothing is there. -/
  | missing (path : Text)
  /-- Something is there already. -/
  | present (path : Text)
  /-- A file is where a directory should be. -/
  | notDirectory (path : Text)
  /-- A directory is where a file should be. -/
  | isDirectory (path : Text)
  /-- The path, or a part of it, is too long. -/
  | tooLong (path : Text)
  deriving DecidableEq, Repr

/-- The wording of the error. -/
def FileError.message : FileError → Text
  | .nullCharacter => "embedded null byte"
  | .missing path => "[Errno 2] No such file or directory: " ++ path.quoted
  | .present path => "[Errno 17] File exists: " ++ path.quoted
  | .notDirectory path => "[Errno 20] Not a directory: " ++ path.quoted
  | .isDirectory path => "[Errno 21] Is a directory: " ++ path.quoted
  | .tooLong path => "[Errno 36] File name too long: " ++ path.quoted

namespace FileTree

/-! ## The map -/

/-- What a list of bindings holds at an address. -/
def find? (a : Address) : List (Address × Entry) → Option Entry
  | [] => none
  | (b, e) :: rest => if b = a then some e else find? a rest

/-- Bindings with a new one, in the place of the old one of its address. -/
def bind (a : Address) (entry : Entry) : List (Address × Entry) → List (Address × Entry)
  | [] => [(a, entry)]
  | (b, e) :: rest => if b = a then (b, entry) :: rest else (b, e) :: bind a entry rest

/-- Whether an address is that of the working directory or of one above it. -/
def isAbove (a : Address) : Bool := a.all fun part => part = ['.', '.']

/-- What stands at an address. -/
def get? (t : FileTree) (a : Address) : Option Entry :=
  if isAbove a then some .directory else find? a t.entries

/-- The tree with something new at an address. -/
def put (t : FileTree) (a : Address) (entry : Entry) : FileTree := ⟨bind a entry t.entries⟩

theorem find?_bind (a b : Address) (entry : Entry) (entries : List (Address × Entry)) :
    find? b (bind a entry entries) = if a = b then some entry else find? b entries := by
  induction entries with
  | nil => simp [bind, find?]
  | cons x rest ih =>
    obtain ⟨c, e⟩ := x
    by_cases hc : c = a
    · subst hc
      by_cases hb : c = b <;> simp [bind, find?, hb]
    · by_cases hb : c = b
      · subst hb
        have : ¬ a = c := fun h => hc h.symm
        simp [bind, find?, hc, this]
      · simp [bind, find?, hc, hb, ih]

theorem get?_put (t : FileTree) {a : Address} (h : isAbove a = false) (b : Address)
    (entry : Entry) : (t.put a entry).get? b = if a = b then some entry else t.get? b := by
  by_cases hb : isAbove b = true
  · have : ¬ a = b := fun e => by rw [e, hb] at h; cases h
    simp [get?, hb, this]
  · simp [get?, put, hb, find?_bind]

/-! ## Following a path -/

/-- The address one part further on. -/
def step (a : Address) (part : Text) : Address :=
  if Path.isStill part then a
  else if part = ['.', '.'] ∧ isAbove a = false then a.dropLast
  else a ++ [part]

/-- The number of bytes in a text. -/
def byteCount (text : Text) : Nat := (Utf8.encode text).length

/-- The most bytes that a part may have. -/
def partLimit : Nat := 255

/-- The most bytes that a path may have. -/
def pathLimit : Nat := 4095

/-- The address that parts lead to from a given one.  Every address that is left behind must be a
directory; an error is put into words for `path`. -/
def follow (t : FileTree) (path : Text) (a : Address) : List Text → Except FileError Address
  | [] => .ok a
  | part :: rest =>
      match t.get? a with
      | none => .error (.missing path)
      | some (.file _) => .error (.notDirectory path)
      | some .directory =>
          if partLimit < byteCount part then .error (.tooLong path)
          else follow t path (step a part) rest

/-- The address that a path leads to from the working directory.  Nothing may stand there, but what
is above is a directory.  A path from the root leads nowhere. -/
def locate (t : FileTree) (path : Text) : Except FileError Address :=
  if '\x00' ∈ path then .error .nullCharacter
  else if pathLimit < byteCount path then .error (.tooLong path)
  else if path.isEmpty || Path.anchorOf path ≠ .here then .error (.missing path)
  else follow t path [] (Text.pieces '/' path)

/-- What stands where a path leads.  If it leads nowhere, nothing does; but a path that is too long
is refused. -/
def look (t : FileTree) (path : Text) : Except FileError (Option Entry) :=
  match t.locate path with
  | .ok a => .ok (t.get? a)
  | .error (.tooLong path) => .error (.tooLong path)
  | .error _ => .ok none

/-- Whether a path leads to something. -/
def holds (t : FileTree) (path : Text) : Except FileError Bool := (t.look path).map Option.isSome

/-- Whether a path leads to a directory. -/
def isDirectory (t : FileTree) (path : Text) : Except FileError Bool :=
  (t.look path).map (· == some .directory)

/-- Whether a path leads to a file. -/
def isFile (t : FileTree) (path : Text) : Except FileError Bool :=
  (t.look path).map (· matches some (.file _))

/-! ## Access -/

/-- The content of a file. -/
def read (t : FileTree) (path : Text) : Except FileError Bytes := do
  match t.get? (← t.locate path) with
  | none => .error (.missing path)
  | some .directory => .error (.isDirectory path)
  | some (.file content) => .ok content

/-- The tree with a file of a new content. -/
def write (t : FileTree) (path : Text) (content : Bytes) : Except FileError FileTree := do
  let a ← t.locate path
  match t.get? a with
  | some .directory => .error (.isDirectory path)
  | _ => .ok (t.put a (.file content))

/-- The tree with a new directory. -/
def makeDirectory (t : FileTree) (path : Text) : Except FileError FileTree := do
  let a ← t.locate path
  match t.get? a with
  | some _ => .error (.present path)
  | none => .ok (t.put a .directory)

/-- The names of what stands in a directory. -/
def names (t : FileTree) (path : Text) : Except FileError (List Text) := do
  let a ← t.locate path
  match t.get? a with
  | none => .error (.missing path)
  | some (.file _) => .error (.notDirectory path)
  | some .directory =>
      .ok (t.entries.filterMap fun (b, _) =>
        match b.getLast? with
        | some name => if b.dropLast = a then some name else none
        | none => none)

/-! ## Directories with those above them -/

/-- Makes a directory where a path leads; one that is there already will do. -/
def makeMissing (t : FileTree) (path : Text) : Except FileError Unit × FileTree :=
  match t.makeDirectory path with
  | .ok t => (.ok (), t)
  | .error e => (do if ← t.isDirectory path then .ok () else .error e, t)

/-- Makes a directory at a path and at every path above it, as far as they are missing.  The fuel
bounds the number of parts. -/
def ensure : Nat → FileTree → Path → Except FileError Unit × FileTree
  | 0, t, p => t.makeMissing p.text
  | fuel + 1, t, p =>
      match t.makeDirectory p.text with
      | .error (.missing path) =>
          if p.parts.isEmpty then (.error (.missing path), t)
          else
            match ensure fuel t p.parent with
            | (.ok _, t) => t.makeMissing p.text
            | (.error e, t) => (.error e, t)
      | _ => t.makeMissing p.text

/-- Makes a directory at a path and at every path above it, as far as they are missing.  Those made
before an error stay. -/
def ensureDirectory (t : FileTree) (p : Path) : Except FileError Unit × FileTree :=
  ensure p.parts.length t p

end FileTree

end CallDiagram
