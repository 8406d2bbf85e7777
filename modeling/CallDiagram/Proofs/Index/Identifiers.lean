import CallDiagram.Proofs.Conversion.Places
import CallDiagram.Proofs.Document.Classification
import CallDiagram.Proofs.Diagram.Sections
import CallDiagram.Proofs.Document.Statements
import CallDiagram.Proofs.Index.Lookup

/-!
# One grammar of identifiers

The names of files and the calls of documents spell the identifiers of components alike, but for a
line break that may end the name of a file in front of its suffix.

* `IsExtension`, `extension_of_isExtension`, `isExtension_of_extension` — the suffixes that are the
  extension of a name;
* `isIdentifier_iff` — the identifiers of files;
* `read?_identifier`, `read?_identifier_break` — what a line says that calls one;
* `componentName?_ofText` — the file that a call asks for;
* `parse_call` — the document of one call;
* `IdentifierLaw`, `identifierLaw_of_isExtension` — files and calls.
-/

namespace CallDiagram

/-! ## Extensions -/

/-- A dot and characters behind it, none of them a dot or a slash. -/
def IsExtension (suffix : Text) : Prop :=
  ∃ back, suffix = '.' :: back ∧ back ≠ [] ∧ '.' ∉ back ∧ '/' ∉ back

theorem IsExtension.ne_nil {suffix : Text} (h : IsExtension suffix) : suffix ≠ [] := by
  obtain ⟨back, rfl, -⟩ := h
  simp

/-- A suffix in front of which something stands is an extension if it looks like one. -/
theorem extension_of_isExtension {suffix : Text} (h : IsExtension suffix) {p : Path} {front : Text}
    (hname : p.name = front ++ suffix) (hfront : front ≠ []) : p.extension = suffix := by
  obtain ⟨back, rfl, hback, hdot, -⟩ := h
  have hcut : Path.cutExtension? p.name = some (front, back) := by
    rw [hname, Path.cutExtension?, Text.cutLast?_append hdot]
    simp [hfront, hback]
  rw [Path.extension, hcut]

/-- A text that is the extension of some name looks like one, if no slash is in it. -/
theorem isExtension_of_extension {p : Path} {suffix : Text} (h : p.extension = suffix)
    (hne : suffix ≠ []) (hslash : '/' ∉ suffix) : IsExtension suffix := by
  unfold Path.extension at h
  split at h
  · rename_i front back hcut
    obtain ⟨hcut, hboth⟩ := Option.filter_eq_some_iff.1 hcut
    obtain ⟨-, hdot⟩ := Text.cutLast?_eq_some hcut
    subst h
    refine ⟨back, rfl, ?_, hdot, by simpa using hslash⟩
    rintro rfl
    simp at hboth
  · exact absurd h.symm hne

/-! ## Identifiers of files -/

/-- An identifier is two names around a number sign, and perhaps a line break behind them. -/
theorem isIdentifier_iff {text : Text} :
    isIdentifier text = true ↔ ∃ group method stop, IsName group ∧ IsName method ∧
      text = group ++ '#' :: (method ++ stop) ∧ (stop = [] ∨ stop = ['\n']) := by
  constructor
  · intro h
    unfold isIdentifier at h
    split at h
    · rename_i group rest hfirst
      obtain ⟨hgroup, htext, -⟩ := identifier?_eq_some_iff.1 hfirst
      split at h
      · rename_i method stop hsecond
        obtain ⟨hmethod, hrest, -⟩ := identifier?_eq_some_iff.1 hsecond
        refine ⟨group, method, stop, hgroup, hmethod, ?_, by simpa using h⟩
        rw [htext, hrest]
      · simp at h
    · simp at h
  · rintro ⟨group, method, stop, hgroup, hmethod, rfl, hstop⟩
    have hfirst : identifier? (group ++ '#' :: (method ++ stop))
        = some (group, '#' :: (method ++ stop)) :=
      identifier?_eq_some_iff.2 ⟨hgroup, rfl, by simp; decide⟩
    have hsecond : identifier? (method ++ stop) = some (method, stop) := by
      refine identifier?_eq_some_iff.2 ⟨hmethod, rfl, ?_⟩
      rcases hstop with rfl | rfl
      · simp
      · simp
        decide
    rw [isIdentifier, hfirst]
    simpa [hsecond] using hstop

/-- The call that an identifier spells. -/
def identifierCall (group method : Text) : Call := { group := some group, method }

theorem identifier_identifierCall (group method : Text) :
    (identifierCall group method).identifier = group ++ '#' :: method := rfl

/-- An identifier with parentheses behind it is a call. -/
theorem read?_identifier {group method : Text} (hgroup : IsName group) (hmethod : IsName method) :
    Statement.read? (group ++ '#' :: method ++ ['(', ')'])
      = some (0, .call (identifierCall group method)) := by
  have hcanonical : (Statement.call (identifierCall group method)).Canonical := by
    refine ⟨?_, hmethod, by simp [identifierCall], by simp [identifierCall]⟩
    simpa [identifierCall] using hgroup
  have hread := read?_replicate_append_text hcanonical 0
  have htext : (Statement.call (identifierCall group method)).text
      = group ++ '#' :: method ++ ['(', ')'] := by
    obtain ⟨c, rest, rfl⟩ := List.exists_cons_of_ne_nil hgroup.ne_nil
    simp [Statement.text, Call.text, Call.label, identifierCall, Text.nonempty?]
  rw [htext] at hread
  exact hread

/-- No keyword is followed by a number sign. -/
theorem keyword?_sign {word group : Text} (hword : IsName word) (hgroup : IsName group)
    (rest : Text) : keyword? word (group ++ '#' :: rest) = none := by
  cases hkeyword : keyword? word (group ++ '#' :: rest) with
  | none => rfl
  | some note =>
    obtain ⟨c, tail, hbody, hc, -⟩ := keyword?_eq_some_iff.1 hkeyword
    have hpart : isNamePart c = false := by
      by_contra hpart
      rw [isBlank_of_isNamePart (by simpa using hpart)] at hc
      exact Bool.noConfusion hc
    -- both are read as a name and what follows it
    have hfirst : identifier? (group ++ '#' :: rest) = some (group, '#' :: rest) :=
      identifier?_eq_some_iff.2 ⟨hgroup, rfl, by simp; decide⟩
    have hsecond : identifier? (word ++ c :: tail) = some (word, c :: tail) :=
      identifier?_eq_some_iff.2 ⟨hword, rfl, by simpa using hpart⟩
    rw [hbody, hsecond] at hfirst
    obtain ⟨-, htail⟩ := Prod.mk.inj (Option.some.inj hfirst)
    obtain ⟨rfl, -⟩ := List.cons.inj htail
    exact absurd hc (by decide)

/-- A name with a number sign behind it starts a call or nothing. -/
theorem read?_sign_eq_none {group rest : Text} (hgroup : IsName group)
    (hcall : callOf? (group ++ '#' :: rest) = none) :
    Statement.read? (group ++ '#' :: rest) = none := by
  have htrim : Text.trimStart (group ++ '#' :: rest) = group ++ '#' :: rest := by
    obtain ⟨c, more, rfl⟩ := List.exists_cons_of_ne_nil hgroup.ne_nil
    exact Text.trimStart_cons_of_not_blank
      (isBlank_of_isNamePart (isNamePart_of_mem hgroup List.mem_cons_self)) _
  have helse : group ++ '#' :: rest ≠ ['e', 'l', 's', 'e'] := by
    intro heq
    have hsign : '#' ∈ group ++ '#' :: rest := List.mem_append_right _ List.mem_cons_self
    rw [heq] at hsign
    exact absurd hsign (by decide)
  rw [Statement.read?, htrim, Statement.ofBody?, hcall, keyword?_sign (by decide) hgroup,
    keyword?_sign (by decide) hgroup, alternative?, if_neg helse, keyword?_sign (by decide) hgroup]
  rfl

/-- With a line break behind the identifier it says nothing. -/
theorem read?_identifier_break {group method : Text} (hgroup : IsName group)
    (hmethod : IsName method) :
    Statement.read? (group ++ '#' :: (method ++ ['\n']) ++ ['(', ')']) = none := by
  have hcall : callOf? (group ++ '#' :: (method ++ ['\n', '(', ')'])) = none := by
    rw [callOf?_group hgroup hmethod (by simp; decide)]
    rfl
  have hread := read?_sign_eq_none hgroup hcall
  simpa using hread

/-! ## Calls of documents -/

/-- An identifier holds the characters of names and its sign. -/
theorem not_mem_identifier {c : Char} (hc : isNamePart c = false) (hsign : c ≠ '#')
    {group method : Text} (hgroup : IsName group) (hmethod : IsName method) :
    c ∉ group ++ '#' :: method := by
  simp [not_mem_of_isName hgroup hc, not_mem_of_isName hmethod hc, hsign]

/-- The file that a call asks for documents what it calls. -/
theorem componentName?_ofText {suffix : Text} (h : IsExtension suffix) {group method : Text}
    (hgroup : IsName group) (hmethod : IsName method) :
    componentName? (.ofText (group ++ '#' :: method ++ suffix)) suffix
      = some (group ++ '#' :: method) := by
  have hne : group ++ '#' :: method ≠ [] := by simp
  have hpath : Path.ofText (group ++ '#' :: method ++ suffix)
      = ⟨.here, [group ++ '#' :: method ++ suffix]⟩ := by
    apply ofText_of_no_slash
    · obtain ⟨back, rfl, -, -, hslash⟩ := h
      have hname : '/' ∉ group ++ '#' :: method :=
        not_mem_identifier (by decide) (by decide) hgroup hmethod
      rw [List.mem_append, not_or]
      exact ⟨hname, by simpa using hslash⟩
    · obtain ⟨c, rest, rfl⟩ := List.exists_cons_of_ne_nil hgroup.ne_nil
      simp [Path.isStill]
  have hname : (Path.ofText (group ++ '#' :: method ++ suffix)).name
      = group ++ '#' :: method ++ suffix := by rw [hpath]; rfl
  refine (componentName?_eq_some_iff h.ne_nil).2 ⟨?_, hname, isIdentifier_of_isName hgroup hmethod⟩
  exact extension_of_isExtension h hname hne

/-- A document that calls one identifier makes one node, linked to what the identifier is bound
to. -/
theorem parse_call {group method : Text} (hgroup : IsName group) (hmethod : IsName method)
    {links : Links} {link : Json}
    (hlink : Json.field? (group ++ '#' :: method) links = some link) (counter : Counter) :
    (parse counter links [group ++ '#' :: method ++ ['(', ')']]).1
      = .ok (.node ⟨0, group ++ '#' :: method ++ ['(', ')'], 0,
          .call { identifierCall group method with aliasName := counter.aliasName, link }⟩
            .nil .nil) := by
  have hread := read?_identifier hgroup hmethod
  have hblank : Text.isBlank (group ++ '#' :: method ++ ['(', ')']) = false := by
    by_contra hblank
    rw [read?_of_isBlank (by simpa using hblank)] at hread
    simp at hread
  have hscan : scan 0 [group ++ '#' :: method ++ ['(', ')']] = _ := scan_of_read hblank hread []
  have hlinks : links.isEmpty = false := by
    cases links with
    | nil => simp [Json.field?] at hlink
    | cons e rest => rfl
  have hbound : (Json.field? (identifierCall group method).identifier links).getD .null = link := by
    rw [identifier_identifierCall, hlink, Option.getD_some]
  refine parse_eq_ok_iff.2 ⟨by rw [hscan]; rfl,
    .node ⟨0, group ++ '#' :: method ++ ['(', ')'], 0,
      .call { identifierCall group method with aliasName := counter.aliasName }⟩ .nil .nil,
    ?arranged, ?linked⟩
  case arranged =>
    rw [hscan]
    -- the group holds a character, so the node is in order and keeps it
    obtain ⟨c, rest, rfl⟩ := List.exists_cons_of_ne_nil hgroup.ne_nil
    exact arrange_eq_ok_iff.2 ⟨rfl, rfl⟩
  case linked =>
    rw [resolve, if_neg (by simp [hlinks]), ← hbound]
    rfl

/-! ## The law -/

/-- The identifiers of the files with a suffix, and those of calls. -/
structure IdentifierLaw (suffix : Text) : Prop where
  /-- A file is named for what it documents. -/
  named : ∀ {source : Path} {component : Text}, componentName? source suffix = some component →
    source.name = component ++ suffix
  /-- What a file documents can be called, by its identifier with parentheses behind it, unless the
  identifier ends with a line break. -/
  called : ∀ {source : Path} {component : Text}, componentName? source suffix = some component →
    component.getLast? ≠ some '\n' →
    ∃ c : Call, c.group ≠ none ∧ c.identifier = component ∧
      ∀ {ε σ : Type} (next : EStateM ε σ Text) (index : Nat),
        classify next index (component ++ ['(', ')'])
          = (fun name => some ⟨index, component ++ ['(', ')'], 0,
              .call { c with aliasName := name }⟩) <$> next
  /-- An identifier that ends so spells no call, and no call of a document has it. -/
  broken : ∀ {source : Path} {component : Text}, componentName? source suffix = some component →
    component.getLast? = some '\n' →
    (∀ {ε σ : Type} (next : EStateM ε σ Text) (index : Nat),
      classify next index (component ++ ['(', ')']) = pure none) ∧
    ∀ {counter : Counter} {links : Links} {document : List Text} {f : Forest Node},
      (parseLimited counter links document).1 = .ok f →
        ∀ n ∈ f.walk, ∀ c, n.call? = some c → c.identifier ≠ component
  /-- What a document calls can be documented, by the file with its identifier for a name. -/
  documented : ∀ {counter : Counter} {links : Links} {document : List Text} {f : Forest Node},
    (parseLimited counter links document).1 = .ok f →
      ∀ n ∈ f.walk, ∀ c, n.call? = some c →
        componentName? (.ofText (c.identifier ++ suffix)) suffix = some c.identifier
  /-- What the index of a directory binds can be called and is linked then, with the same
  exception. -/
  matched : ∀ {t : FileTree} {directory : Path} {format : Text} {links : Links},
    t.index directory format suffix = .ok links →
      ∀ {component : Text} {link : Json}, Json.field? component links = some link →
        component.getLast? ≠ some '\n' → ∀ counter : Counter, ∃ n c,
          (parse counter links [component ++ ['(', ')']]).1 = .ok (.node n .nil .nil) ∧
            n.call? = some c ∧ c.identifier = component ∧ c.link = link

/-- What an index binds is documented by a file. -/
theorem exists_componentName?_of_index {t : FileTree} {directory : Path} {format suffix : Text}
    {links : Links} (h : t.index directory format suffix = .ok links) {component : Text}
    {link : Json} (hlink : Json.field? component links = some link) :
    ∃ source, componentName? source suffix = some component := by
  cases hsources : t.sources directory suffix with
  | error e => simp [FileTree.index, hsources, Except.map] at h
  | ok sources =>
    rw [FileTree.index, hsources] at h
    obtain rfl := Except.ok.inj h
    have hbinding := (Json.mem_foldl_put (Json.mem_of_field? hlink)).resolve_right List.not_mem_nil
    obtain ⟨source, -, hsource⟩ := List.mem_filterMap.1 hbinding
    obtain ⟨name, hname, heq⟩ := Option.map_eq_some_iff.1 hsource
    obtain ⟨rfl, -⟩ := Prod.mk.inj heq
    exact ⟨source, hname⟩

/-- An identifier that ends with no line break is two names around a number sign. -/
theorem exists_names_of_isIdentifier {component : Text} (h : isIdentifier component = true)
    (hlast : component.getLast? ≠ some '\n') :
    ∃ group method, IsName group ∧ IsName method ∧ component = group ++ '#' :: method := by
  obtain ⟨group, method, stop, hgroup, hmethod, rfl, rfl | rfl⟩ := isIdentifier_iff.1 h
  · exact ⟨group, method, hgroup, hmethod, by rw [List.append_nil]⟩
  · rw [← List.cons_append, ← List.append_assoc, List.getLast?_concat] at hlast
    exact absurd rfl hlast

/-- The others have it behind the names. -/
theorem exists_names_of_isIdentifier_break {component : Text} (h : isIdentifier component = true)
    (hlast : component.getLast? = some '\n') :
    ∃ group method, IsName group ∧ IsName method ∧
      component = group ++ '#' :: (method ++ ['\n']) := by
  obtain ⟨group, method, stop, hgroup, hmethod, rfl, rfl | rfl⟩ := isIdentifier_iff.1 h
  · rw [List.append_nil] at hlast
    have hbreak : '\n' ∉ group ++ '#' :: method :=
      not_mem_identifier (by decide) (by decide) hgroup hmethod
    exact absurd (List.mem_of_getLast? hlast) hbreak
  · exact ⟨group, method, hgroup, hmethod, rfl⟩

/-- What a document calls is two names around a number sign, because a call without a group takes
that of the call around it. -/
theorem exists_names_of_parseLimited {counter : Counter} {links : Links} {document : List Text}
    {f : Forest Node} (h : (parseLimited counter links document).1 = .ok f) {n : Node}
    (hn : n ∈ f.walk) {c : Call} (hc : n.call? = some c) :
    ∃ group, IsName group ∧ IsName c.method ∧ c.identifier = group ++ '#' :: c.method := by
  obtain ⟨group, hgroup, hname, hnamed⟩ :=
    exists_group_of_parse (parseLimited_eq_ok_iff.1 h).2 hn hc
  exact ⟨group, hname, hnamed, by rw [Call.identifier, hgroup]; rfl⟩

theorem identifierLaw_of_isExtension {suffix : Text} (h : IsExtension suffix) :
    IdentifierLaw suffix := by
  refine ⟨?named, ?called, ?broken, ?documented, ?matched⟩
  case named =>
    intro source component hcomponent
    exact ((componentName?_eq_some_iff h.ne_nil).1 hcomponent).2.1
  case called =>
    intro source component hcomponent hlast
    obtain ⟨-, -, hidentifier⟩ := (componentName?_eq_some_iff h.ne_nil).1 hcomponent
    obtain ⟨group, method, hgroup, hmethod, rfl⟩ := exists_names_of_isIdentifier hidentifier hlast
    refine ⟨identifierCall group method, by simp [identifierCall], rfl, ?_⟩
    intro ε σ next index
    rw [classify, read?_identifier hgroup hmethod]
    rfl
  case broken =>
    intro source component hcomponent hlast
    obtain ⟨-, -, hidentifier⟩ := (componentName?_eq_some_iff h.ne_nil).1 hcomponent
    obtain ⟨group, method, hgroup, hmethod, rfl⟩ :=
      exists_names_of_isIdentifier_break hidentifier hlast
    constructor
    · intro ε σ next index
      rw [classify, read?_identifier_break hgroup hmethod]
    · intro counter links document f hparse n hn c hc hsame
      obtain ⟨group', hgroup', hmethod', hcalled⟩ := exists_names_of_parseLimited hparse hn hc
      -- no line break is in what a document calls
      have hbreak : '\n' ∉ c.identifier := by
        rw [hcalled]
        exact not_mem_identifier (by decide) (by decide) hgroup' hmethod'
      rw [hsame] at hbreak
      exact hbreak (by simp)
  case documented =>
    intro counter links document f hparse n hn c hc
    obtain ⟨group, hgroup, hmethod, hcalled⟩ := exists_names_of_parseLimited hparse hn hc
    rw [hcalled]
    exact componentName?_ofText h hgroup hmethod
  case matched =>
    intro t directory format links hindex component link hlink hlast counter
    obtain ⟨source, hcomponent⟩ := exists_componentName?_of_index hindex hlink
    obtain ⟨-, -, hidentifier⟩ := (componentName?_eq_some_iff h.ne_nil).1 hcomponent
    obtain ⟨group, method, hgroup, hmethod, rfl⟩ := exists_names_of_isIdentifier hidentifier hlast
    exact ⟨_, _, parse_call hgroup hmethod hlink counter, rfl, rfl, rfl⟩

/-- Names that hold digits and dollar signs. -/
theorem identifierLaw_dollars :
    IsExtension ".code" ∧ IdentifierLaw ".code" ∧
      componentName? ⟨.here, ["d", "$B_1#g$2.code"]⟩ ".code" = some "$B_1#g$2" ∧
      componentName? (.ofText "d/$B_1#g$2.code") ".code" = some "$B_1#g$2" := by
  have hsuffix : IsExtension ".code" := ⟨"code", rfl, by decide, by decide, by decide⟩
  exact ⟨hsuffix, identifierLaw_of_isExtension hsuffix, by decide, by decide⟩

/-- A line break in front of the suffix is taken for a part of an identifier, which spells no
call. -/
theorem not_called_brokenName :
    componentName? ⟨.here, ["A#f\n.code"]⟩ ".code" = some "A#f\n" ∧
      Statement.read? "A#f\n()" = none ∧
      ¬ ∀ {source : Path} {component : Text}, componentName? source ".code" = some component →
        ∃ c, Statement.read? (component ++ ['(', ')']) = some (0, .call c) ∧
          c.identifier = component := by
  have hname : componentName? ⟨.here, ["A#f\n.code"]⟩ ".code" = some "A#f\n" := by decide
  have hread : Statement.read? "A#f\n()" = none := by cbv
  refine ⟨hname, hread, ?_⟩
  intro h
  obtain ⟨c, hc, -⟩ := h hname
  have hnone : Statement.read? (("A#f\n" : Text) ++ ['(', ')']) = none := hread
  rw [hnone] at hc
  simp at hc

end CallDiagram
