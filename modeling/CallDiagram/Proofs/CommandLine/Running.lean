import CallDiagram.CommandLine.Basic
import CallDiagram.Proofs.Conversion.Diagram
import CallDiagram.Proofs.Text.Breaks
import CallDiagram.Proofs.Text.Utf8

/-!
# Running commands

How a command line ends when its command and the settings are known, and what the commands that
print or write a text do.

* `World.Logged` — a world behind a run that wrote to the log only;
* `ending`, `runWithin_of_invocation`, `run_of_command` — a command line;
* `runTree_of_ok`, `runTree_of_error` — call trees;
* `runDiagram_prints`, `runDiagram_writes`, `runDiagram_refuses` — diagrams.
-/

namespace CallDiagram

open CallDiagram.Action

/-- A world behind a run that wrote nothing but whole lines to the error stream. -/
structure World.Logged (w w' : World) : Prop where
  files : w'.files = w.files
  output : w'.output = w.output
  errors : ∃ lines : Text, lines.IsWholeLines ∧ w'.errors = w.errors ++ lines

/-- A world whose log has been turned on. -/
def World.logging (w : World) (level : Text) : World :=
  { w with log := (w.log.setup () level).2 }

theorem World.Logged.warned {lines : Text} (h : lines.IsWholeLines) (w : World) :
    World.Logged w (w.warned lines) := ⟨rfl, rfl, lines, h, rfl⟩

/-! ## Settings -/

namespace Action

/-- Loading settings does nothing else. -/
theorem loadSettings_eq_ok {env : Environment} {settings : Settings} {w w' : World}
    (h : loadSettings env w = .ok settings w') : w' = w := by
  unfold loadSettings at h
  simp only [get_bind_run, bind_eq_ok_iff, ofExcept_eq_ok_iff] at h
  obtain ⟨extended, w₁, ⟨-, rfl⟩, -, rfl⟩ := h
  rfl

end Action

namespace CommandLine

/-- The world when the log has been turned on. -/
def opened (settings : Settings) (w : World) : World :=
  { w with log := (w.log.setup () (levelFor settings false)).2 }

section Opened

variable (settings : Settings) (w : World)

@[simp] theorem files_opened : (opened settings w).files = w.files := rfl

@[simp] theorem output_opened : (opened settings w).output = w.output := rfl

@[simp] theorem errors_opened : (opened settings w).errors = w.errors := rfl

end Opened

/-- What a fault makes of a run, and the world behind that. -/
def ending (fault : Fault) (w : World) : Ending × World :=
  if fault.isExpected then (.exit 1, w.warned ("Error: " ++ fault.message ++ "\n"))
  else (.escaped fault, w)

theorem endWith_run (fault : Fault) (w : World) :
    endWith fault w = .ok (ending fault w).1 (ending fault w).2 := by
  unfold endWith ending
  cases fault.isExpected <;> rfl

/-- A command line with a command, in an environment with settings. -/
theorem runWithin_of_invocation {room : Option Nat} {words : List Text} {verbose : Bool}
    {command : Command} {env : Environment} {settings : Settings} {w w' : World}
    (hwords : Invocation.read words = .ok ⟨verbose, some command⟩)
    (hsettings : loadSettings env w = .ok settings w') :
    runWithin room env words w =
      match runCommand room settings command (w.logging (levelFor settings verbose)) with
      | .ok _ w' => (.exit 0, w')
      | .error fault w' => ending fault w' := by
  obtain rfl := loadSettings_eq_ok hsettings
  have hloaded : outcome (loadSettings env) w' = .ok (.ok settings) w' := by
    rw [outcome_run, hsettings]
  have hopen : openLog (levelFor settings verbose) w'
      = .ok () (w'.logging (levelFor settings verbose)) := rfl
  have hwith : runWords room env words w' = runWith room env verbose command w' := by
    rw [runWords, hwords]
  rw [runWithin, hwith, runWith, bind_of_ok hloaded]
  simp only []
  rw [bind_of_ok hopen, bind_run, outcome_run]
  cases runCommand room settings command (w'.logging (levelFor settings verbose)) with
  | ok _ w => rfl
  | error fault w =>
    simp only []
    rw [endWith_run]

/-- A command line that asks for no details. -/
theorem run_of_command {words : List Text} {command : Command} {env : Environment}
    {settings : Settings} {w w' : World}
    (hwords : Invocation.read words = .ok ⟨false, some command⟩)
    (hsettings : loadSettings env w = .ok settings w') :
    run env words w =
      match runCommand none settings command (opened settings w) with
      | .ok _ w' => (.exit 0, w')
      | .error fault w' => ending fault w' := runWithin_of_invocation hwords hsettings

/-! ## Call trees -/

/-- A document does not change when its line breaks are unified. -/
theorem parseText_unifyBreaks (counter : Counter) (links : Links) (text : Text) :
    parseText counter links (Text.unifyBreaks text) = parseText counter links text := by
  rw [parseText, parseText, Text.lines_unifyBreaks]

section Commands

variable {file text : Text} {w : World}

theorem requireInput_run {path : Path} {content : Bytes}
    (h : w.files.read path.text = .ok content) : requireInput path w = .ok () w := by
  obtain ⟨a, hlocate, hget⟩ := FileTree.read_eq_ok_iff.1 h
  have hholds : w.files.holds path.text = .ok true := by
    rw [FileTree.holds, FileTree.look, hlocate]
    simp [Except.map, hget]
  unfold requireInput
  rw [get_bind_run, hholds]
  rfl

variable (hread : w.files.read (Path.ofText file).text = .ok (Utf8.encode text))

include hread

theorem readText_source :
    readText (Path.ofText file).text w = .ok (Text.unifyBreaks text) w :=
  readText_eq_ok_iff.2 ⟨rfl, _, _, hread, Utf8.decode_encode text, rfl⟩

theorem runTree_of_ok {f : Forest Node}
    (h : (parseText {} [] text).1 = .ok f) (json : Bool) :
    ∃ w', World.Logged w w' ∧ runTree file json w = .ok () (w'.printed
      (if json then Json.indented (toJson f) ++ ['\n'] else outline f)) := by
  obtain ⟨lines, hlines, hrun⟩ := parseDocument_run {} [] (Text.unifyBreaks text) w
  rw [parseText_unifyBreaks, h] at hrun
  refine ⟨w.warned lines, World.Logged.warned hlines w, ?_⟩
  rw [runTree, bind_of_ok (requireInput_run hread), bind_of_ok (readText_source hread),
    bind_of_ok hrun]
  rfl

theorem runTree_of_error {e : ParseError}
    (h : (parseText {} [] text).1 = .error e) (json : Bool) :
    ∃ w', World.Logged w w' ∧ runTree file json w = .error (.document e) w' := by
  obtain ⟨lines, hlines, hrun⟩ := parseDocument_run {} [] (Text.unifyBreaks text) w
  rw [parseText_unifyBreaks, h] at hrun
  refine ⟨w, ⟨rfl, rfl, [], Or.inl rfl, by simp⟩, ?_⟩
  rw [runTree, bind_of_ok (requireInput_run hread), bind_of_ok (readText_source hread),
    bind_of_error hrun]

/-! ## Diagrams -/

variable {index : Option Text} {links : Links} {diagram : Text}

/-- The diagram of a file is that of the text in it. -/
theorem diagramOf_file (links : Links) :
    ∃ w', World.Logged w w' ∧ diagramOf (.ofText file) links {} w =
      match drawing {} links text with
      | .ok diagram => .ok (diagram, (parseText {} links text).2) w'
      | .error e => .error (.document e) w' := by
  obtain ⟨lines, hlines, hrun⟩ := diagramOf_run (readText_source hread) links {}
  refine ⟨w.warned lines, World.Logged.warned hlines w, ?_⟩
  rwa [drawing, parseText_unifyBreaks, ← drawing] at hrun

variable (hlinks : linksOf none index w = .ok links w)

include hlinks

theorem runDiagram_prints (h : drawing {} links text = .ok diagram) :
    ∃ w', World.Logged w w' ∧
      runDiagram none file none index w = .ok () (w'.printed (diagramFile diagram)) := by
  obtain ⟨w', hlogged, hrun⟩ := diagramOf_file hread links
  rw [h] at hrun
  refine ⟨w', hlogged, ?_⟩
  rw [runDiagram, bind_of_ok hlinks, bind_of_ok hrun]
  rfl

theorem runDiagram_writes (h : drawing {} links text = .ok diagram) {path : Text}
    {files : FileTree} (hwrite : w.files.write (Path.ofText path).text
      (Utf8.encode (diagramFile diagram)) = .ok files) :
    ∃ w' note, World.Logged w w' ∧
      runDiagram none file (some path) index w = .ok () ((w'.holding files).warned note) := by
  obtain ⟨w', hlogged, hrun⟩ := diagramOf_file hread links
  rw [h] at hrun
  have hfile : writeText (Path.ofText path).text (diagramFile diagram) w'
      = .ok () (w'.holding files) :=
    writeText_eq_ok_iff.2 ⟨files, by rw [hlogged.files, hwrite], rfl⟩
  refine ⟨w', "  PlantUML written to " ++ path ++ "\n", hlogged, ?_⟩
  rw [runDiagram, bind_of_ok hlinks, bind_of_ok hrun]
  exact bind_of_ok hfile _

theorem runDiagram_refuses {e : ParseError} (h : drawing {} links text = .error e)
    (output : Option Text) :
    ∃ w', World.Logged w w' ∧ runDiagram none file output index w = .error (.document e) w' := by
  obtain ⟨w', hlogged, hrun⟩ := diagramOf_file hread links
  rw [h] at hrun
  refine ⟨w', hlogged, ?_⟩
  rw [runDiagram, bind_of_ok hlinks, bind_of_error hrun]

end Commands

end CommandLine

end CallDiagram
