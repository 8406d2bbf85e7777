import CallDiagram.Proofs.CommandLine.Endings
import CallDiagram.Proofs.CommandLine.Words
import CallDiagram.Proofs.Index.File
import CallDiagram.Proofs.Service.Answers

/-!
# Agreement of the front ends

A text is answered by the service and by the command line alike, although the one gets it in the
body of a request and splits it as it is, and the other gets it from a file whose line breaks are
unified before.

* `Stored` — a text and an index in the files of a world;
* `DiagramsAgree`, `TreesAgree` — command lines beside an answer;
* `frontEnds_agree` — the agreement.
-/

namespace CallDiagram

open CallDiagram.Action CallDiagram.CommandLine

/-- A world with a text in one file and the index of some links in another one. -/
structure Stored (w : World) (file index text : Text) (links : Links) : Prop where
  source : w.files.read (Path.ofText file).text = .ok (Utf8.encode text)
  binds : BindsTexts links
  /-- The index holds what was saved there in some world. -/
  saved : ∃ before behind, saveIndex links (.ofText index) before = .ok () behind ∧
    w.files.read index = behind.files.read (Path.ofText index).text

/-! ## Diagrams -/

/-- The command lines for the diagram of a file beside the answer to its text. -/
structure DiagramsAgree (env : Environment) (w : World) (file index text : Text)
    (answer : Response) : Prop where
  status : answer.status = 200 ∨ answer.status = 400
  /-- A diagram is printed with a line break behind it. -/
  printed : answer.status = 200 → ∃ diagram,
    Printed w (run env ["puml", file, "--index", index] w) diagram ∧
      Utf8.encode diagram = answer.body ++ [10]
  /-- It is written so to any path where there may be a file. -/
  written : answer.status = 200 → ∀ output, IsOperand output → ∀ a,
    w.files.locate (Path.ofText output).text = .ok a → w.files.get? a ≠ some .directory →
      Wrote w (run env ["puml", file, "--index", index, "-o", output] w)
        (Path.ofText output).text (answer.body ++ [10])
  /-- A refusal is reported in its own words, whether or not something would have been written.  Its
  line number is received if the text is not longer than any number may be. -/
  refused : answer.status = 400 → ∃ detail line,
    answer.Carries 400 [("detail", .str detail), ("line", .int line)] ∧
      (text.length < Nat.pow 10 Number.digitLimit → Number.isWritable line = true) ∧
      Refused w (run env ["puml", file, "--index", index] w) detail line ∧
      ∀ output, IsOperand output →
        Refused w (run env ["puml", file, "--index", index, "-o", output] w) detail line

theorem diagramsAgree {framework : Framework} (hframework : framework.Documented) {w : World}
    {file index text : Text} {links : Links} {env : Environment} (hstored : Stored w file index text links) (hfile : IsOperand file) (hindex : IsOperand index)
    (henv : ∃ settings w', loadSettings env w = .ok settings w') {request : Request}
    (hposts : Posts request "/api/plantuml" text (some links)) (settings : Settings)
    (renderer : Renderer) :
    DiagramsAgree env w file index text
      (Service.respond framework settings renderer request).2 := by
  obtain ⟨loaded, w', hloaded⟩ := henv
  obtain ⟨before, behind, hsaved, hcontent⟩ := hstored.saved
  have hread : (opened loaded w).files.read (Path.ofText file).text = .ok (Utf8.encode text) :=
    hstored.source
  have hlinks : linksOf none (Text.nonempty? (some index)) (opened loaded w)
      = .ok (Text.sortBy Prod.fst links) (opened loaded w) := by
    obtain ⟨c, rest, rfl⟩ := List.exists_cons_of_ne_nil (ne_nil_of_saveIndex hsaved)
    exact loadIndex_run hstored.binds (hcontent.trans (read_of_saveIndex hsaved))
  have hsame : drawing {} (Text.sortBy Prod.fst links) text = drawing {} links text := by
    rw [drawing, drawing, parseText_sortBy hstored.binds]
  rw [Service.respond_diagram hframework hposts, Option.getD_some]
  cases hdrawing : drawing {} links text with
  | ok diagram =>
    have hdrawn := hsame.trans hdrawing
    have hbytes : Utf8.encode (diagramFile diagram) = Utf8.encode diagram ++ [10] :=
      Utf8.encode_append diagram ['\n']
    refine ⟨Or.inl rfl, fun _ => ?printed, fun _ output houtput a hlocate ha => ?written,
      fun h => absurd (show 200 = 400 from h) (by decide)⟩
    case printed =>
      obtain ⟨w', hlogged, hrun⟩ := runDiagram_prints hread hlinks hdrawn
      exact ⟨diagramFile diagram,
        printed_of_run (read_diagram hfile hindex) hloaded hlogged hrun, hbytes⟩
    case written =>
      obtain ⟨c, rest, rfl⟩ := List.exists_cons_of_ne_nil (FileTree.ne_nil_of_locate hlocate ha)
      have hwrite : w.files.write (Path.ofText (c :: rest)).text (Utf8.encode (diagramFile diagram))
          = .ok (w.files.put a (.file (Utf8.encode (diagramFile diagram)))) :=
        FileTree.write_eq_ok_iff.2 ⟨a, hlocate, ha, rfl⟩
      obtain ⟨w', note, hlogged, hrun⟩ := runDiagram_writes hread hlinks hdrawn hwrite
      have hwrote := wrote_of_run (read_diagram_output hfile hindex houtput) hloaded hwrite
        hlogged hrun
      rwa [hbytes] at hwrote
  | error e =>
    have hdrawn := hsame.trans hdrawing
    have hwithin := within_of_drawing_error hdrawing
    have hno : (Response.json 400 (.object (refusalFields e))).status ≠ 200 := fun h =>
      absurd (show 400 = 200 from h) (by decide)
    refine ⟨Or.inr rfl, fun h => absurd h hno, fun h => absurd h hno, fun _ => ⟨e.detail,
      e.lineNumber, carries_refusal e, ?short, ?printing, fun output houtput => ?writing⟩⟩
    case short => exact isWritable_of_natAbs_le hwithin.lineNumber_le
    case printing =>
      obtain ⟨w', hlogged, hrun⟩ := runDiagram_refuses hread hlinks hdrawn none
      exact refused_of_run (read_diagram hfile hindex) hloaded hwithin hlogged hrun
    case writing =>
      obtain ⟨w', hlogged, hrun⟩ := runDiagram_refuses hread hlinks hdrawn _
      exact refused_of_run (read_diagram_output hfile hindex houtput) hloaded hwithin hlogged hrun

/-! ## Call trees -/

/-- The command lines for the call tree of a file beside the answer to its text. -/
structure TreesAgree (env : Environment) (w : World) (file text : Text) (answer : Response) :
    Prop where
  status : answer.status = 200 ∨ answer.status = 400
  accepted : answer.status = 200 ↔ (run env ["tree", file] w).1 = .exit 0
  /-- The tree is printed as the text that is answered, and in JSON as the value that is answered,
  both of which are received if the text is not longer than any number may be. -/
  printed : answer.status = 200 → ∃ roots tree json,
    answer.Carries 200 [("roots", roots), ("tree", .str tree)] ∧
      (text.length < Nat.pow 10 Number.digitLimit → Json.isWritable roots = true) ∧
      Printed w (run env ["tree", file] w) tree ∧
      Printed w (run env ["tree", file, "--json"] w) json ∧
      (Json.read json).toOption = if Json.isWritable roots then some roots else none
  /-- A refusal is reported in its own words. -/
  refused : answer.status = 400 → ∃ detail line,
    answer.Carries 400 [("detail", .str detail), ("line", .int line)] ∧
      (text.length < Nat.pow 10 Number.digitLimit → Number.isWritable line = true) ∧
      Refused w (run env ["tree", file] w) detail line ∧
      Refused w (run env ["tree", file, "--json"] w) detail line

theorem treesAgree {framework : Framework} (hframework : framework.Documented) {w : World}
    {file text : Text} {env : Environment}
    (hsource : w.files.read (Path.ofText file).text = .ok (Utf8.encode text))
    (hfile : IsOperand file) (henv : ∃ settings w', loadSettings env w = .ok settings w')
    {request : Request} (hposts : Posts request "/api/parse" text none) (settings : Settings)
    (renderer : Renderer) :
    TreesAgree env w file text (Service.respond framework settings renderer request).2 := by
  obtain ⟨loaded, w', hloaded⟩ := henv
  have hread : (opened loaded w).files.read (Path.ofText file).text = .ok (Utf8.encode text) :=
    hsource
  rw [Service.respond_tree hframework hposts]
  cases hparse : (parseText {} [] text).1 with
  | ok f =>
    obtain ⟨w₁, hlogged, hrun⟩ := runTree_of_ok hread hparse false
    obtain ⟨w₂, hloggedJson, hrunJson⟩ := runTree_of_ok hread hparse true
    have htree := printed_of_run (read_tree hfile) hloaded hlogged hrun
    have hjson := printed_of_run (read_tree_json hfile) hloaded hloggedJson hrunJson
    refine ⟨Or.inl rfl, iff_of_true rfl htree.ending, fun _ => ⟨toJson f, outline f, _, ?carries,
      isWritable_toJson_of_parseText hparse, htree, hjson, ?json⟩,
      fun h => absurd (show 200 = 400 from h) (by decide)⟩
    case carries => exact carries_json 200 (plain_answer hparse) (List.cons_ne_nil _ _)
    case json =>
      exact Json.read_write Json.faithful_indented (plain_toJson_of_parseText hparse)
        (by simp [Json.isSpace])
  | error e =>
    have hwithin := within_of_parse_error hparse
    obtain ⟨w₁, hlogged, hrun⟩ := runTree_of_error hread hparse false
    obtain ⟨w₂, hloggedJson, hrunJson⟩ := runTree_of_error hread hparse true
    have htree := refused_of_run (read_tree hfile) hloaded hwithin hlogged hrun
    have hjson := refused_of_run (read_tree_json hfile) hloaded hwithin hloggedJson hrunJson
    have hno : (Response.json 400 (.object (refusalFields e))).status ≠ 200 := fun h =>
      absurd (show 400 = 200 from h) (by decide)
    refine ⟨Or.inr rfl, iff_of_false hno ?ending, fun h => absurd h hno, fun _ =>
      ⟨e.detail, e.lineNumber, carries_refusal e,
        isWritable_of_natAbs_le hwithin.lineNumber_le, htree, hjson⟩⟩
    case ending =>
      rw [htree.ending]
      simp

/-! ## Both -/

/-- The front ends agree on every text and on all links that bind identifiers to texts, whatever the
line breaks of the text. -/
theorem frontEnds_agree {framework : Framework} (hframework : framework.Documented) {w : World}
    {file index text : Text} {links : Links} {env : Environment}
    (hstored : Stored w file index text links) (hfile : IsOperand file) (hindex : IsOperand index)
    (henv : ∃ settings w', loadSettings env w = .ok settings w') {request request' : Request}
    (hdiagram : Posts request "/api/plantuml" text (some links))
    (htree : Posts request' "/api/parse" text none) (settings : Settings) (renderer : Renderer) :
    DiagramsAgree env w file index text
        (Service.respond framework settings renderer request).2 ∧
      TreesAgree env w file text (Service.respond framework settings renderer request').2 :=
  ⟨diagramsAgree hframework hstored hfile hindex henv hdiagram settings renderer,
    treesAgree hframework hstored.source hfile henv htree settings renderer⟩

/-! ## A text with three kinds of line breaks -/

/-- A text whose lines end in three ways. -/
def mixedBreaks : Text := "A#f()\r\n  g()\r\rB#h()\n"

/-- Links of its components, in descending order. -/
def descendingLinks : Links := [("B#h", .str "h\r.svg"), ("A#f", .str "ü.svg")]

theorem bindsTexts_descendingLinks : BindsTexts descendingLinks := by
  refine ⟨by decide, fun e he => ?_⟩
  rcases List.mem_cons.1 he with rfl | he
  · exact ⟨_, rfl⟩
  · obtain rfl := List.mem_singleton.1 he
    exact ⟨_, rfl⟩

/-- A world with the text in a file. -/
def mixedSource : World where
  files := ⟨[(["a.code"], .file (Utf8.encode mixedBreaks))]⟩
  renderer := .missing

/-- Whether a save has gone well and left a world with the text in its file, and with settings. -/
def savedBesideText (saved : EStateM.Result Fault World Unit) : Bool :=
  match saved with
  | .ok _ w =>
      w.files.read "a.code" == .ok (Utf8.encode mixedBreaks) && endsWell (loadSettings [] w)
  | .error _ _ => false

/-- The text and the index can stand in one world, in which there are settings. -/
theorem exists_stored_mixedBreaks :
    ∃ w, Stored w "a.code" "i.json" mixedBreaks descendingLinks ∧
      ∃ settings w', loadSettings [] w = .ok settings w' := by
  have hcheck :
      savedBesideText (saveIndex descendingLinks (.ofText "i.json") mixedSource) = true := by
    decide +kernel
  cases hsaved : saveIndex descendingLinks (.ofText "i.json") mixedSource with
  | error e w =>
    rw [hsaved] at hcheck
    simp [savedBesideText] at hcheck
  | ok _ w =>
    rw [hsaved] at hcheck
    obtain ⟨hsource, hsettings⟩ := Bool.and_eq_true_iff.1 hcheck
    exact ⟨w, ⟨beq_iff_eq.1 hsource, bindsTexts_descendingLinks, mixedSource, w, hsaved, rfl⟩,
      exists_of_endsWell hsettings⟩

/-- The front ends agree on the text, and there is a diagram. -/
theorem frontEnds_agree_mixedBreaks :
    Framework.bare.Documented ∧ ∃ w, Stored w "a.code" "i.json" mixedBreaks descendingLinks ∧
      IsOperand "a.code" ∧ IsOperand "i.json" ∧
      (∃ settings w', loadSettings [] w = .ok settings w') ∧
      Posts (posting "/api/plantuml" mixedBreaks (some descendingLinks)) "/api/plantuml" mixedBreaks
        (some descendingLinks) ∧
      Posts (posting "/api/parse" mixedBreaks none) "/api/parse" mixedBreaks none ∧
      (Service.respond .bare {} .missing
        (posting "/api/plantuml" mixedBreaks (some descendingLinks))).2.status = 200 ∧
      DiagramsAgree [] w "a.code" "i.json" mixedBreaks (Service.respond .bare {} .missing
        (posting "/api/plantuml" mixedBreaks (some descendingLinks))).2 ∧
      TreesAgree [] w "a.code" mixedBreaks
        (Service.respond .bare {} .missing (posting "/api/parse" mixedBreaks none)).2 := by
  obtain ⟨w, hstored, henv⟩ := exists_stored_mixedBreaks
  have hfile : IsOperand "a.code" := isOperand_of_head? (by decide)
  have hindex : IsOperand "i.json" := isOperand_of_head? (by decide)
  have hdiagram := posts_posting "/api/plantuml" mixedBreaks (some descendingLinks)
    fun l hl => Option.some.inj hl ▸ bindsTexts_descendingLinks
  have htree := posts_posting "/api/parse" mixedBreaks none (by simp)
  obtain ⟨hdiagrams, htrees⟩ :=
    frontEnds_agree Framework.documented_bare hstored hfile hindex henv hdiagram htree {} .missing
  refine ⟨Framework.documented_bare, w, hstored, hfile, hindex, henv, hdiagram, htree, ?_, hdiagrams, htrees⟩
  decide +kernel

end CallDiagram
