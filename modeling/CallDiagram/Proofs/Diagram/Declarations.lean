import CallDiagram.Proofs.Diagram.Links

/-!
# Declarations in the order of first calls

The declarations of a section are those that its calls ask for: a box for each group, in the order
of the first calls of groups, and in the box a participant for each method, in the order of the
first calls of methods.

* `methodsOf`, `filter_firstsBy_identifier` — what some calls ask for in a group;
* `declaringLine`, `boxLines` — how that is written;
* `DeclarationLaw`, `declarationLaw_of_parseLimited` — the sections of documents.
-/

namespace CallDiagram

/-! ## Methods of a group -/

/-- The first calls of the methods of a group, in their order. -/
def methodsOf (calls : List Call) (group : Option Text) : List Call :=
  firstsBy Call.method (calls.filter fun c => c.group = group)

/-- Among calls with names, the first calls of a group are those of its methods. -/
theorem filter_firstsBy_identifier {calls : List Call} (h : ∀ c ∈ calls, c.Named) (group : Option Text) :
    (firstsBy Call.identifier calls).filter (fun c => c.group = group)
      = methodsOf calls group := by
  have hcomponent : ∀ c ∈ calls, ∀ d ∈ calls,
      c.identifier = d.identifier ↔ c.group = d.group ∧ c.method = d.method := by
    intro c hc d hd
    rw [identifier_eq_iff (h c hc) (h d hd), Call.component, Call.component, Prod.mk.injEq]
  rw [filter_firstsBy, methodsOf]
  · refine firstsBy_congr fun c hc d hd => ?_
    obtain ⟨hc, hgroup⟩ := List.mem_filter.1 hc
    obtain ⟨hd, hgroup'⟩ := List.mem_filter.1 hd
    have hsame : c.group = d.group := by simp_all
    rw [hcomponent c hc d hd]
    exact and_iff_right hsame
  · intro c hc d hd hidentifier
    rw [((hcomponent c hc d hd).1 hidentifier).1]

/-! ## Sections -/

/-- The line that declares a component as one of its calls is: with the method as its label, the
alias of the call and, unless the value of that is void, the link of the call. -/
def declaringLine (c : Call) : Text :=
  participantText (c.method ++ "()") c.aliasName
    ++ if c.link.isVoid then [] else hyperlink c.link.display

/-- The lines of the box of a group, in which some calls are declared. -/
def boxLines (group : Option Text) (calls : List Call) : List Text :=
  ("box \"" ++ Call.groupText group ++ "\"") :: (calls.map declaringLine ++ [("end box" : Text)])

/-- What is written for the declaration of a call. -/
theorem text_declaration (c : Call) : (Participants.declaration c).text = declaringLine c := by
  unfold Participants.declaration Participants.linkText? declaringLine
  cases c.link.isVoid <;> rfl

/-- The declarations for some calls. -/
structure DeclarationLaw (calls : List Call) (p : Participants) : Prop where
  /-- Each group has a box, each of its methods a line in it, with the alias and the link of the
  first call; both stand in the order of first calls. -/
  boxes : p.lines.map Line.text
    = (groupsOf calls).flatMap fun g => boxLines g (methodsOf calls g)
  /-- Every box has a participant. -/
  filled : ∀ box ∈ p.groups, box.2 ≠ []
  /-- No group has two boxes. -/
  apart : (p.groups.map Prod.fst).Nodup
  /-- The component of every call is declared once, as its first call is. -/
  once : ∀ c ∈ calls, ∃ e, (calls.find? fun d => d.component = c.component) = some e ∧
    e ∈ methodsOf calls c.group ∧
    (declarationsIn none p.lines).filter (fun d => (d.group, d.label) = (c.group, c.label))
      = [⟨e.aliasName, c.group, c.method ++ "()"⟩]

/-- However calls with names interleave, they are declared group by group and method by method. -/
theorem declarationLaw_ofCalls {calls : List Call} (h : Distinct calls) :
    DeclarationLaw calls (Participants.ofCalls calls) := by
  have hgroups : (Participants.ofCalls calls).groups
      = (groupsOf calls).map fun g => (g, methodsOf calls g) := by
    rw [Participants.groups_ofCalls]
    exact List.map_congr_left fun g _ => by rw [filter_firstsBy_identifier h.named]
  refine ⟨?boxes, fun box hbox => ?filled, ?apart, fun c hc => ?once⟩
  case boxes =>
    rw [Participants.lines, hgroups, List.flatMap_map, List.map_flatMap]
    refine congrArg (List.flatMap · (groupsOf calls)) (funext fun g => ?_)
    have hmethods : (methodsOf calls g).map (Line.text ∘ Participants.declaration)
        = (methodsOf calls g).map declaringLine :=
      List.map_congr_left fun c _ => text_declaration c
    rw [List.map_cons, List.map_append, List.map_map, hmethods]
    rfl
  case filled =>
    rw [hgroups] at hbox
    obtain ⟨g, hg, rfl⟩ := List.mem_map.1 hbox
    obtain ⟨c, hc, hgroup⟩ := mem_groupsOf.1 hg
    rw [Ne, methodsOf, firstsBy_eq_nil_iff, List.filter_eq_nil_iff]
    exact fun hnone => hnone c hc (by simpa using hgroup)
  case apart =>
    rw [Participants.map_fst_groups_ofCalls]
    exact nodup_groupsOf calls
  case once =>
    obtain ⟨e, hfirst, -, he⟩ := exists_first h hc
    have hcomponent : e.component = c.component := by simpa using List.find?_some hfirst
    obtain ⟨hgroup, hmethod⟩ := Prod.mk.inj hcomponent
    refine ⟨e, hfirst, ?_, ?_⟩
    · rw [methodsOf, mem_firstsBy, List.find?_filter, ← hfirst]
      refine congrArg (List.find? · calls) (funext fun d => ?_)
      rw [← hcomponent]
      simp [Call.component, hgroup]
    · rw [declarationsIn_lines_filter h he hcomponent, Call.declared, Call.label, hgroup, hmethod]
      rfl

/-- In the section of every tree that a document makes, the participants are declared as the calls
of the tree ask for. -/
theorem declarationLaw_of_parseLimited {counter : Counter} {links : Links} {document : List Text}
    {f : Forest Node} (h : (parseLimited counter links document).1 = .ok f) :
    ∀ t ∈ f.trees, DeclarationLaw (callsOf (Forest.single t))
      (Participants.ofForest (Forest.single t)) := by
  obtain ⟨-, hparse⟩ := parseLimited_eq_ok_iff.1 h
  intro t ht
  exact declarationLaw_ofCalls (distinct_of_mem_trees (distinct_of_parse hparse) ht)

/-- Calls of three groups that interleave, two of them with the same method, one of them linked. -/
theorem declarationLaw_interleaved :
    ∃ f, (parseLimited {} [(['Z', '#', 'x'], .str ['u'])]
      ["A#f()", "  Z#x()", "  B#x()", "    Z#y()", "  f()", "  Z#x(): again", "    B#f()",
        "B#g()"]).1 = .ok f ∧
      ∀ t ∈ f.trees, DeclarationLaw (callsOf (Forest.single t))
        (Participants.ofForest (Forest.single t)) := by
  obtain ⟨f, hf⟩ : ∃ f, (parseLimited {} [(['Z', '#', 'x'], .str ['u'])]
      ["A#f()", "  Z#x()", "  B#x()", "    Z#y()", "  f()", "  Z#x(): again", "    B#f()",
        "B#g()"]).1 = .ok f :=
    ⟨_, by cbv⟩
  exact ⟨f, hf, declarationLaw_of_parseLimited hf⟩

end CallDiagram
