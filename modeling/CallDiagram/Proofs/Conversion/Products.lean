import CallDiagram.Conversion.Basic
import CallDiagram.Proofs.Files.Sources

/-!
# Where products stand

What is made from a source stands beside it: the names of a source and of its products are one
beginning with different extensions.

* `outputStem_eq_ok`, `diagramPathOf_eq_ok`, `imagePathOf_eq_ok` — the paths of products;
* `append_extension_inj` — names with the same extension;
* `exists_name_of_read` — a text that names a format.
-/

namespace CallDiagram

/-! ## Names with an extension -/

theorem Text.cutLast?_eq_none_iff {c : Char} {text : Text} :
    cutLast? c text = none ↔ c ∉ text := by
  induction text with
  | nil => simp [cutLast?]
  | cons d rest ih => grind [cutLast?]

theorem Text.cutLast?_eq_some {c : Char} {text front back : Text}
    (h : cutLast? c text = some (front, back)) : text = front ++ c :: back ∧ c ∉ back := by
  induction text generalizing front back with
  | nil => simp [cutLast?] at h
  | cons d rest ih =>
    cases hrest : cutLast? c rest with
    | none =>
      by_cases hd : d = c
      · simp only [cutLast?, hrest, if_pos hd, Option.some.injEq, Prod.mk.injEq] at h
        obtain ⟨rfl, rfl⟩ := h
        exact ⟨by simp [hd], cutLast?_eq_none_iff.1 hrest⟩
      · simp [cutLast?, hrest, hd] at h
    | some cut =>
      obtain ⟨front', back'⟩ := cut
      simp only [cutLast?, hrest, Option.some.injEq, Prod.mk.injEq] at h
      obtain ⟨rfl, rfl⟩ := h
      obtain ⟨rfl, hback⟩ := ih hrest
      exact ⟨rfl, hback⟩

theorem Text.cutLast?_append {c : Char} {back : Text} (h : c ∉ back) (front : Text) :
    cutLast? c (front ++ c :: back) = some (front, back) := by
  induction front with
  | nil => rw [List.nil_append, cutLast?, cutLast?_eq_none_iff.2 h, if_pos rfl]
  | cons d front ih => rw [List.cons_append, cutLast?, ih]

/-- A name has one extension behind its last dot. -/
theorem append_extension_inj {front front' back back' : Text} (hback : '.' ∉ back)
    (hback' : '.' ∉ back') (h : front ++ '.' :: back = front' ++ '.' :: back') :
    front = front' ∧ back = back' := by
  induction front generalizing front' with
  | nil =>
    cases front' with
    | nil => simpa using h
    | cons c front' =>
      obtain ⟨-, rfl⟩ := List.cons.inj h
      simp at hback
  | cons c front ih =>
    cases front' with
    | nil =>
      obtain ⟨-, rfl⟩ := List.cons.inj h
      simp at hback'
    | cons d front' =>
      obtain ⟨rfl, hrest⟩ := List.cons.inj h
      obtain ⟨rfl, rfl⟩ := ih hrest
      exact ⟨rfl, rfl⟩

/-! ## Paths of products -/

/-- An extension stands behind a name and starts with its only dot. -/
theorem Path.extension_eq_cons {p : Path} {suffix : Text} (h : p.extension = suffix)
    (hne : suffix ≠ []) :
    ∃ front back, p.name = front ++ suffix ∧ front ≠ [] ∧ suffix = '.' :: back ∧ '.' ∉ back := by
  unfold Path.extension at h
  split at h
  · rename_i cut back hcut
    obtain ⟨hcut, hboth⟩ := Option.filter_eq_some_iff.1 hcut
    obtain ⟨hname, hback⟩ := Text.cutLast?_eq_some hcut
    subst h
    exact ⟨cut, back, hname, by rintro rfl; simp at hboth, rfl, hback⟩
  · exact absurd h.symm hne

theorem Path.withName_eq_ok {p q : Path} {name : Text} (h : p.withName name = .ok q) :
    q = p.parent.child name ∧ isFileName name = true := by
  unfold Path.withName at h
  split at h
  · simp at h
  · split at h
    · exact ⟨(Except.ok.inj h).symm, by assumption⟩
    · simp at h

section Products

variable {directory : Path}

/-- The name of a source is that of its products in front of the suffix. -/
theorem outputStem_eq_ok {name suffix : Text} {stem : Path}
    (hextension : (directory.child name).extension = suffix)
    (h : outputStem (directory.child name) suffix = .ok stem) :
    ∃ front back, name = front ++ suffix ∧ front ≠ [] ∧ suffix = '.' :: back ∧ '.' ∉ back ∧
      stem = directory.child front := by
  obtain ⟨hstem, hfile⟩ := Path.withName_eq_ok h
  rw [Path.parent_child] at hstem
  by_cases hne : suffix = []
  · -- the empty suffix leaves nothing of a name
    subst hne
    have hbare : bareName (directory.child name) [] = [] := rfl
    rw [hbare] at hfile
    exact absurd hfile (by decide)
  · obtain ⟨front, back, hname, hfront, hsuffix, hback⟩ := Path.extension_eq_cons hextension hne
    rw [Path.name_child] at hname
    have hbare : bareName (directory.child name) suffix = front := by
      rw [bareName, withoutSuffix?, Path.name_child, if_neg (by simpa using hne),
        Text.dropEnding?_eq_some.2 hname, Option.getD_some]
    exact ⟨front, back, hname, hfront, hsuffix, hback, by rw [hstem, hbare]⟩

theorem diagramPathOf_eq_ok {front : Text} {p : Path}
    (h : diagramPathOf (directory.child front) = .ok p) :
    p = directory.child (front ++ diagramExtension) := by
  have hpath := (Path.withName_eq_ok h).1
  rwa [Path.parent_child, Path.name_child] at hpath

theorem imagePathOf_eq_ok {front format : Text} {p : Path}
    (h : imagePathOf (directory.child front) format = .ok p) :
    p = directory.child (front ++ '.' :: format) := by
  have hpath := (Path.withName_eq_ok h).1
  rwa [Path.parent_child, Path.name_child] at hpath

end Products

/-! ## Texts that name a format -/

/-- A character that is its own lower-case form stays where it is, and so does the end of a
text. -/
theorem Text.exists_lowerAfter_append {c : Char} (hc : lowerForm c = [c]) (hsigma : c ≠ 'Σ')
    (before text rest : Text) :
    ∃ front back, lowerAfter before (text ++ c :: rest) = front ++ c :: back ∧
      (rest = [] → back = []) := by
  induction text generalizing before with
  | nil =>
    refine ⟨[], lowerAfter (c :: before) rest, by simp [lowerAfter, hsigma, hc], ?_⟩
    rintro rfl
    rfl
  | cons d text ih =>
    obtain ⟨front, back, hlower, hend⟩ := ih (d :: before)
    rw [List.cons_append, lowerAfter, hlower, ← List.append_assoc]
    exact ⟨_, back, rfl, hend⟩

/-- A character that is its own lower-case form, and no dot, is kept when a format is read. -/
theorem Format.exists_name_of_read {c : Char} (hc : lowerForm c = [c]) (hsigma : c ≠ 'Σ')
    (hdot : c ≠ '.') {text rest : Text} {f : Format}
    (h : Format.read (text ++ c :: rest) = .ok f) :
    ∃ front back, f.name = front ++ c :: back ∧ (rest = [] → back = []) := by
  have hname : f.name = normalise (text ++ c :: rest) := name_of_read h
  obtain ⟨front, back, hlower, hend⟩ := Text.exists_lowerAfter_append hc hsigma [] text rest
  refine ⟨front.dropWhile (· = '.'), back, ?_, hend⟩
  rw [hname, normalise, Text.lower, hlower, List.dropWhile_append]
  split
  · rename_i hempty
    rw [List.isEmpty_iff.1 hempty]
    simp [hdot]
  · rfl

/-- A text that names a format is not empty, holds neither a slash nor a null character, and does
not end like the extension of diagrams. -/
theorem Format.plain_of_read {text : Text} {f : Format} (h : Format.read text = .ok f) :
    text ≠ [] ∧ '/' ∉ text ∧ '\x00' ∉ text ∧ text.getLast? ≠ some 'l' := by
  have habsent : ∀ c, lowerForm c = [c] → c ≠ 'Σ' → c ≠ '.' → c ∉ f.name → c ∉ text := by
    intro c hc hsigma hdot hname hmem
    obtain ⟨front, rest, rfl⟩ := List.append_of_mem hmem
    obtain ⟨front', back, heq, -⟩ := exists_name_of_read hc hsigma hdot h
    exact hname (by simp [heq])
  refine ⟨?_, ?_, ?_, fun hlast => ?_⟩
  · rintro rfl
    have hnone : Format.read [] = .error ⟨[]⟩ := rfl
    simp [hnone] at h
  · exact habsent '/' (by decide) (by decide) (by decide) (by cases f <;> decide)
  · exact habsent '\x00' (by decide) (by decide) (by decide) (by cases f <;> decide)
  · obtain ⟨front, rfl⟩ := List.getLast?_eq_some_iff.1 hlast
    obtain ⟨front', back, hname, hend⟩ := exists_name_of_read (by decide) (by decide) (by decide) h
    obtain rfl := hend rfl
    have hend : f.name.getLast? ≠ some 'l' := by cases f <;> decide
    simp [hname] at hend

/-! ## Products beside their source -/

theorem isEntryName_diagram {front suffix : Text} (h : FileTree.IsEntryName (front ++ suffix)) :
    FileTree.IsEntryName (front ++ diagramExtension) := by
  have hlong : 2 < (front ++ diagramExtension).length := by simp [diagramExtension]
  obtain ⟨-, -, hslash, hnull⟩ := h
  refine ⟨?_, ?_, ?_, ?_⟩
  · unfold Path.isStill
    grind
  · grind
  · simp_all [diagramExtension]
  · simp_all [diagramExtension]

/-- The image of a source is an entry of the directory, too, and not its diagram. -/
theorem isEntryName_image {front suffix format : Text} {f : Format}
    (h : FileTree.IsEntryName (front ++ suffix)) (hfront : front ≠ [])
    (hread : Format.read format = .ok f) : FileTree.IsEntryName (front ++ '.' :: format) := by
  obtain ⟨hne, hslash', hnull', -⟩ := Format.plain_of_read hread
  have hlong : 2 < (front ++ '.' :: format).length := by
    have := List.length_pos_iff.2 hfront
    have := List.length_pos_iff.2 hne
    simp only [List.length_append, List.length_cons]
    omega
  obtain ⟨-, -, hslash, hnull⟩ := h
  refine ⟨?_, ?_, ?_, ?_⟩
  · unfold Path.isStill
    grind
  · grind
  · simp_all
  · simp_all

/-- No image stands where a diagram stands. -/
theorem image_ne_diagram {format : Text} {f : Format} (hread : Format.read format = .ok f)
    (front front' : Text) : front ++ '.' :: format ≠ front' ++ diagramExtension := by
  obtain ⟨hne, -, -, hlast⟩ := Format.plain_of_read hread
  intro heq
  have hends := congrArg List.getLast? heq
  rw [List.getLast?_append, List.getLast?_append] at hends
  apply hlast
  cases format with
  | nil => exact absurd rfl hne
  | cons c rest => simpa [diagramExtension, List.getLast?_cons_cons] using hends

end CallDiagram
