import CallDiagram.Text.Case

/-!
# Image formats

The formats in which the drawing program can write a diagram.  A format is named in letters of any
case, with or without dots in front.

* `Format`, `Format.name`, `Format.mediaType` — the six formats;
* `Format.read` — the format that a text names, or the normalised text that names none.
-/

namespace CallDiagram

/-- An image format. -/
inductive Format where
  /-- Scalable vector graphics. -/
  | svg
  /-- Portable network graphics. -/
  | png
  /-- Encapsulated PostScript. -/
  | eps
  /-- Portable document format. -/
  | pdf
  /-- ASCII art. -/
  | txt
  /-- Text art with box characters. -/
  | utxt
  deriving DecidableEq, Repr

namespace Format

/-- All formats. -/
def all : List Format := [.svg, .png, .eps, .pdf, .txt, .utxt]

/-- The name of a format, which is also the extension of its files. -/
def name : Format → Text
  | .svg => "svg"
  | .png => "png"
  | .eps => "eps"
  | .pdf => "pdf"
  | .txt => "txt"
  | .utxt => "utxt"

/-- The media type of a format. -/
def mediaType : Format → Text
  | .svg => "image/svg+xml"
  | .png => "image/png"
  | .eps => "application/postscript"
  | .pdf => "application/pdf"
  | .txt => "text/plain"
  | .utxt => "text/plain"

/-- A text in lower case and without the dots in front. -/
def normalise (text : Text) : Text := (Text.lower text).dropWhile (· = '.')

/-- A text that names no format, normalised. -/
structure Unsupported where
  /-- The text. -/
  given : Text
  deriving DecidableEq, Repr

/-- The refusal of a format, with all formats in alphabetical order. -/
def Unsupported.message (e : Unsupported) : Text :=
  "Unsupported output format '" ++ e.given
    ++ "' (expected one of: eps, pdf, png, svg, txt, utxt)"

/-- The format that a text names. -/
def read (text : Text) : Except Unsupported Format :=
  match all.find? fun f => f.name = normalise text with
  | some f => .ok f
  | none => .error ⟨normalise text⟩

theorem read_name (f : Format) : read f.name = .ok f := by cases f <;> rfl

/-- A text that names a format is its name, normalised. -/
theorem name_of_read {text : Text} {f : Format} (h : read text = .ok f) :
    f.name = normalise text := by
  unfold read at h
  split at h
  · rename_i found hfound
    obtain rfl := Except.ok.inj h
    simpa using List.find?_some hfound
  · simp at h

end Format

end CallDiagram
