import CallDiagram.Index.Basic
import CallDiagram.Proofs.Conversion.Products
import CallDiagram.Proofs.Json.Fields
import CallDiagram.Proofs.Statement.Reader
import CallDiagram.Proofs.Text.Percent

/-!
# What an index binds

The index of the sources of a directory binds a component exactly if the source of its name is one
of them, and to the link to the image of this source.

* `componentName?_eq_some_iff`, `isIdentifier_of_isName` — the component that a source documents;
* `field?_indexOf` — what a component is bound to;
* `not_mem_break_indexOf` — links are written on one line each;
* `decode_link` — the file name that a link stands for.
-/

namespace CallDiagram

/-- A group and a method with a number sign between make an identifier. -/
theorem isIdentifier_of_isName {group method : Text} (hgroup : IsName group)
    (hmethod : IsName method) : isIdentifier (group ++ '#' :: method) = true := by
  have hfirst : identifier? (group ++ '#' :: method) = some (group, '#' :: method) :=
    identifier?_eq_some_iff.2 ⟨hgroup, rfl, by simp; decide⟩
  have hsecond : identifier? method = some (method, []) :=
    identifier?_eq_some_iff.2 ⟨hmethod, (List.append_nil _).symm, by simp⟩
  rw [isIdentifier, hfirst]
  simp [hsecond]

section Sources

variable {format suffix : Text} (hsuffix : suffix ≠ [])

include hsuffix

theorem withoutSuffix?_eq_some_iff {name front : Text} :
    withoutSuffix? suffix name = some front ↔ name = front ++ suffix := by
  rw [withoutSuffix?, if_neg (by simpa using hsuffix), Text.dropEnding?_eq_some]

/-- A source documents the component that its name tells in front of the suffix. -/
theorem componentName?_eq_some_iff {p : Path} {component : Text} :
    componentName? p suffix = some component ↔
      p.extension = suffix ∧ p.name = component ++ suffix ∧ isIdentifier component = true := by
  rw [componentName?]
  split
  · rename_i hextension
    rw [Option.filter_eq_some_iff, withoutSuffix?_eq_some_iff hsuffix]
    simp [hextension]
  · rename_i hextension
    simp [hextension]

theorem imageLink_eq {p : Path} {front : Text} (h : p.name = front ++ suffix) :
    imageLink p format suffix = Percent.encode (front ++ '.' :: format) := by
  rw [imageLink, bareName, (withoutSuffix?_eq_some_iff hsuffix).2 h, Option.getD_some]

/-- A component is bound to the link to the image of the source with its name. -/
theorem field?_indexOf {directory : Path} {sources : List Path}
    (hsources : ∀ p ∈ sources, p = directory.child p.name ∧ p.extension = suffix)
    {component : Text} (hcomponent : isIdentifier component = true) :
    Json.field? component (indexOf format suffix sources)
      = if directory.child (component ++ suffix) ∈ sources then
          some (.str (Percent.encode (component ++ '.' :: format)))
        else none := by
  have hentry : ∀ e, e ∈ sources.filterMap (indexBinding? format suffix) ↔
      ∃ p ∈ sources, componentName? p suffix = some e.1 ∧
        e.2 = .str (Percent.encode (e.1 ++ '.' :: format)) := by
    intro e
    rw [List.mem_filterMap]
    refine exists_congr fun p => and_congr_right fun _ => ?_
    rw [indexBinding?, Option.map_eq_some_iff]
    constructor
    · rintro ⟨name, hname, rfl⟩
      obtain ⟨-, hp, -⟩ := (componentName?_eq_some_iff hsuffix).1 hname
      exact ⟨hname, congrArg Json.str (imageLink_eq hsuffix hp)⟩
    · rintro ⟨hname, hlink⟩
      obtain ⟨-, hp, -⟩ := (componentName?_eq_some_iff hsuffix).1 hname
      exact ⟨e.1, hname, by rw [imageLink_eq hsuffix hp, ← hlink]⟩
  have hkey : component ∈ (sources.filterMap (indexBinding? format suffix)).map Prod.fst ↔
      directory.child (component ++ suffix) ∈ sources := by
    rw [List.mem_map]
    constructor
    · rintro ⟨e, he, rfl⟩
      obtain ⟨p, hp, hname, -⟩ := (hentry e).1 he
      obtain ⟨-, hname, -⟩ := (componentName?_eq_some_iff hsuffix).1 hname
      rwa [← hname, ← (hsources p hp).1]
    · intro hp
      refine ⟨(component, .str (Percent.encode (component ++ '.' :: format))),
        (hentry _).2 ⟨_, hp, ?_, rfl⟩, rfl⟩
      exact (componentName?_eq_some_iff hsuffix).2
        ⟨(hsources _ hp).2, Path.name_child _ _, hcomponent⟩
  have hvalue : ∀ e ∈ sources.filterMap (indexBinding? format suffix), e.1 = component →
      e.2 = .str (Percent.encode (component ++ '.' :: format)) := by
    rintro e he rfl
    obtain ⟨p, -, -, hlink⟩ := (hentry e).1 he
    exact hlink
  rw [indexOf, Json.field?_foldl_put hvalue]
  simp only [hkey]
  rfl

end Sources

/-- No link of an index holds a line break. -/
theorem not_mem_break_indexOf {format suffix : Text} {sources : List Path} {e : Text × Json}
    (he : e ∈ indexOf format suffix sources) : '\n' ∉ e.2.display := by
  have hbinding := (Json.mem_foldl_put he).resolve_right List.not_mem_nil
  obtain ⟨p, -, hbinding⟩ := List.mem_filterMap.1 hbinding
  obtain ⟨name, -, rfl⟩ := Option.map_eq_some_iff.1 hbinding
  exact Percent.not_mem_encode (by decide) (by decide) _

/-- A link stands for the file name that it was made from. -/
theorem decode_link (name : Text) :
    Utf8.decode (Percent.decode (Percent.encode name)) = .ok name := by
  rw [Percent.decode_encode, Utf8.decode_encode]

theorem encode_ne_nil {name : Text} (h : name ≠ []) : Percent.encode name ≠ [] := by
  intro hnil
  have hdecode := decode_link name
  rw [hnil] at hdecode
  exact h (Except.ok.inj hdecode).symm

end CallDiagram
