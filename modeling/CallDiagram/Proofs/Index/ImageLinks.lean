import CallDiagram.Proofs.Conversion.Alone
import CallDiagram.Proofs.Conversion.Places
import CallDiagram.Proofs.Index.Lookup

/-!
# Links and the names of images

The link to the image of a source is made from the name of the source, and the path where the image
is written is made from its output stem.  The two agree for every name that a file can have: the
link, which holds nothing that could end it early, stands for the name of the image and for no
other.

* `imageName`, `imageLink_eq_encode` — the name of an image, and its link;
* `imagePath_of_startConversion`, `read_of_drawAs` — where the image is written;
* `ImageLinkLaw`, `imageLinkLaw` — a link and the image that it leads to.
-/

namespace CallDiagram

open CallDiagram.Action

/-- The name of an image, given the path of the products of its source. -/
def imageName (stem : Path) (format : Text) : Text := stem.name ++ '.' :: format

/-- The characters that a link is written with: ASCII letters and digits, and six others. -/
def IsLinkChar (c : Char) : Prop := c.isAlphanum = true ∨ c ∈ ['_', '.', '-', '~', '/', '%']

/-- Characters that would end a link early, or the brackets, the quotes or the line around it. -/
def breakers : Text :=
  ['#', '[', ']', '(', ')', '<', '>', '\x7b', '\x7d', '\x22', '\x27', ' ', '\t', '\r', '\n']

/-! ## Links -/

theorem isLinkChar_of_mem_encode {text : Text} {c : Char} (h : c ∈ Percent.encode text) :
    IsLinkChar c := by
  rcases Percent.isPlain_of_mem_encode h with rfl | hplain
  · exact Or.inr (by decide)
  · simp only [Percent.isPlain, Bool.or_eq_true, beq_iff_eq] at hplain
    rw [IsLinkChar, Char.isAlphanum, Bool.or_eq_true]
    rcases hplain with (((((h | h) | rfl) | rfl) | rfl) | rfl) | rfl
    · exact Or.inl (Or.inl h)
    · exact Or.inl (Or.inr h)
    all_goals exact Or.inr (by decide)

theorem not_isLinkChar_of_mem_breakers : ∀ c ∈ breakers, ¬ IsLinkChar c := by
  simp [breakers, IsLinkChar]

/-! ## The output stem and the link -/

section Stem

variable {source stem path : Path} {suffix format : Text}

theorem outputStem_name (h : outputStem source suffix = .ok stem) :
    stem.name = bareName source suffix := by
  rw [(Path.withName_eq_ok h).1, Path.name_child]

theorem outputStem_parent (h : outputStem source suffix = .ok stem) :
    stem.parent = source.parent := by
  rw [(Path.withName_eq_ok h).1, Path.parent_child]

/-- The link, though made without the output stem, is made of the name of the image. -/
theorem imageLink_eq_encode (h : outputStem source suffix = .ok stem) (format : Text) :
    imageLink source format suffix = Percent.encode (imageName stem format) := by
  rw [imageLink, imageName, outputStem_name h]

/-- The image is written beside the source. -/
theorem imagePath_eq (h : outputStem source suffix = .ok stem)
    (hpath : imagePathOf stem format = .ok path) :
    path = source.parent.child (imageName stem format) := by
  rw [(Path.withName_eq_ok hpath).1, outputStem_parent h, imageName]

end Stem

/-! ## The image that is written -/

section Written

variable {settings : Settings} {launch : Launch} {format : Text} {w w' : World}

theorem imagePath_of_startConversion {links : Links} {source stem : Path} {counter : Counter}
    {r : (Conversion × Path) × Counter}
    (h : startConversion format links source stem counter w = .ok r w') :
    imagePathOf stem format = .ok r.1.2 := by
  obtain ⟨diagram, w₁, -, h⟩ := bind_eq_ok_iff.1 h
  obtain ⟨diagramPath, w₂, -, h⟩ := bind_eq_ok_iff.1 h
  obtain ⟨u, w₃, -, h⟩ := bind_eq_ok_iff.1 h
  obtain ⟨imagePath, w₄, himage, h⟩ := bind_eq_ok_iff.1 h
  obtain rfl := (EStateM.Result.ok.inj h).1
  exact (ofExcept_eq_ok_iff.1 himage).1

/-- An image that is drawn stands at its path. -/
theorem read_of_drawAs {c : Conversion} {imagePath : Path}
    (h : drawAs settings launch format c imagePath w = .ok () w') :
    ∃ image, w'.files.read imagePath.text = .ok image := by
  obtain ⟨image, w₁, -, h⟩ := bind_eq_ok_iff.1 h
  obtain ⟨lines, hwritten⟩ := writeImage_run c.source imagePath image w₁
  rw [h] at hwritten
  cases hwrite : w₁.files.write imagePath.text image with
  | error e => simp [hwrite] at hwritten
  | ok files =>
    simp only [hwrite, EStateM.Result.ok.injEq, true_and] at hwritten
    subst hwritten
    exact ⟨image, FileTree.read_of_write hwrite⟩

end Written

/-! ## The law -/

/-- How the link to the image of a source agrees with the image. -/
structure ImageLinkLaw (source : Path) (suffix : Text) (stem : Path) (format : Text) : Prop where
  /-- A link is spelled in letters, digits and a few marks. -/
  spelled : ∀ c ∈ imageLink source format suffix, IsLinkChar c
  /-- No character in it ends a link or a line. -/
  unbroken : ∀ c ∈ breakers, c ∉ imageLink source format suffix
  /-- The link stands for the name of the image. -/
  decoded : Utf8.decode (Percent.decode (imageLink source format suffix))
    = .ok (imageName stem format)
  /-- The image of a source that is converted by itself is written under this name, beside the
  source. -/
  written : ∀ {settings : Settings} {requested : Option Text} {links : Links} {c : Conversion}
    {w w' : World}, settings.suffix = suffix →
    (Text.nonempty? requested).getD settings.format.name = format →
    convertFile settings source requested none links w = .ok c w' →
    c.imagePath = some (source.parent.child (imageName stem format)) ∧
      ∃ image, w'.files.read (source.parent.child (imageName stem format)).text = .ok image
  /-- A batch draws it to the same place. -/
  prepared : ∀ {settings : Settings} {links : Links} {counter : Counter}
    {r : (Conversion × Path) × Counter} {w w' : World}, settings.suffix = suffix →
    prepareOne settings format links source counter w = .ok r w' →
    r.1.2 = source.parent.child (imageName stem format)
  /-- There is such a path for every format without a slash; the names that a text gives to paths
  hold none. -/
  placed : '/' ∉ source.name → '/' ∉ format →
    imagePathOf stem format = .ok (source.parent.child (imageName stem format))
  /-- Images with different names have different links, also if the suffixes differ. -/
  distinct : ∀ {other otherStem : Path} {otherSuffix otherFormat : Text},
    outputStem other otherSuffix = .ok otherStem →
    imageName stem format ≠ imageName otherStem otherFormat →
    imageLink source format suffix ≠ imageLink other otherFormat otherSuffix

theorem imageLinkLaw {source stem : Path} {suffix : Text} (h : outputStem source suffix = .ok stem)
    (format : Text) : ImageLinkLaw source suffix stem format := by
  have hlink := imageLink_eq_encode h format
  have hspelled : ∀ c ∈ imageLink source format suffix, IsLinkChar c := by
    rw [hlink]
    exact fun c hc => isLinkChar_of_mem_encode hc
  refine ⟨hspelled, ?unbroken, ?decoded, ?written, ?prepared, ?placed, ?distinct⟩
  case unbroken => exact fun c hc hmem => not_isLinkChar_of_mem_breakers c hc (hspelled c hmem)
  case decoded => rw [hlink, decode_link]
  case written =>
    rintro settings requested links c w w' rfl rfl hrun
    rw [convertFile_eq h] at hrun
    obtain ⟨r, w₁, hstart, hrun⟩ := bind_eq_ok_iff.1 hrun
    obtain ⟨u, w₂, hdraw, hrun⟩ := bind_eq_ok_iff.1 hrun
    obtain ⟨rfl, rfl⟩ := EStateM.Result.ok.inj hrun
    have hpath := imagePath_eq h (imagePath_of_startConversion hstart)
    rw [← hpath]
    exact ⟨rfl, read_of_drawAs hdraw⟩
  case prepared =>
    rintro settings links counter r w w' rfl hrun
    rw [prepareOne_eq h] at hrun
    obtain ⟨r', w₁, hstart, hrun⟩ := bind_eq_ok_iff.1 hrun
    obtain ⟨u, w₂, -, hrun⟩ := bind_eq_ok_iff.1 hrun
    obtain rfl := (EStateM.Result.ok.inj hrun).1
    exact imagePath_eq h (imagePath_of_startConversion hstart)
  case placed =>
    exact fun hslash hformat => withName_product h hslash (by simp) (by simpa using hformat)
  case distinct =>
    intro other otherStem otherSuffix otherFormat hother hne heq
    rw [hlink, imageLink_eq_encode hother, Percent.encode_eq_encode_iff] at heq
    exact hne heq

/-- A name that looks encoded, with brackets, spaces, letters beyond ASCII and the suffix twice. -/
theorem imageLinkLaw_escaped :
    outputStem ⟨.here, ["d", "Maß [#1] %41.code.code"]⟩ ".code"
        = .ok ⟨.here, ["d", "Maß [#1] %41.code"]⟩ ∧
      imageLink ⟨.here, ["d", "Maß [#1] %41.code.code"]⟩ "svg" ".code"
        = "Ma%C3%9F%20%5B%231%5D%20%2541.code.svg" ∧
      ImageLinkLaw ⟨.here, ["d", "Maß [#1] %41.code.code"]⟩ ".code"
        ⟨.here, ["d", "Maß [#1] %41.code"]⟩ "svg" := by
  have hstem : outputStem ⟨.here, ["d", "Maß [#1] %41.code.code"]⟩ ".code"
      = .ok ⟨.here, ["d", "Maß [#1] %41.code"]⟩ := by rfl
  exact ⟨hstem, by decide, imageLinkLaw hstem "svg"⟩

end CallDiagram
