import CallDiagram.Proofs.CommandLine.Running
import CallDiagram.Proofs.Document.Bounds

/-!
# Endings of command lines

How a command line ends that prints a text, writes a file or is stopped by a refused document.

* `Printed`, `Wrote`, `Refused` — the endings;
* `printed_of_run`, `wrote_of_run`, `refused_of_run` — when a command line ends so.
-/

namespace CallDiagram.CommandLine

open CallDiagram.Action

/-- A run that prints a text and leaves the files alone. -/
structure Printed (w : World) (result : Ending × World) (text : Text) : Prop where
  ending : result.1 = .exit 0
  output : result.2.output = w.output ++ text
  files : result.2.files = w.files

/-- A run that writes one file and prints nothing. -/
structure Wrote (w : World) (result : Ending × World) (path : Text) (content : Bytes) : Prop where
  ending : result.1 = .exit 0
  content : result.2.files.read path = .ok content
  output : result.2.output = w.output
  elsewhere : ∃ a, w.files.locate path = .ok a ∧
    FileTree.ChangedAt w.files result.2.files [a]

/-- What a user is told about a refused document. -/
def refusal (detail : Text) (line : Int) : Text :=
  "Error: " ++ (detail ++ " at line " ++ Text.integer line)

/-- A run that is stopped by a refused document: the last line of the error stream says so, and
nothing else is done. -/
structure Refused (w : World) (result : Ending × World) (detail : Text) (line : Int) : Prop where
  ending : result.1 = .exit 1
  errors : ∃ front : Text, front.IsWholeLines ∧
    result.2.errors = w.errors ++ front ++ refusal detail line ++ ['\n']
  one_line : '\n' ∉ refusal detail line
  output : result.2.output = w.output
  files : result.2.files = w.files

/-! ## Runs -/

section Endings

variable {env : Environment} {words : List Text} {command : Command} {settings : Settings}
  {w w' w'' : World} (hwords : Invocation.read words = .ok ⟨false, some command⟩)
  (hsettings : loadSettings env w = .ok settings w'')

include hwords hsettings

theorem printed_of_run {text : Text} (hlogged : World.Logged (opened settings w) w')
    (h : runCommand none settings command (opened settings w) = .ok () (w'.printed text)) :
    Printed w (run env words w) text := by
  have hrun : run env words w = (.exit 0, w'.printed text) := by
    rw [run_of_command hwords hsettings, h]
  rw [hrun]
  refine ⟨rfl, ?_, ?_⟩
  · rw [World.output_printed, hlogged.output, output_opened]
  · rw [World.files_printed, hlogged.files, files_opened]

theorem wrote_of_run {path note : Text} {content : Bytes} {files : FileTree}
    (hwrite : w.files.write path content = .ok files)
    (hlogged : World.Logged (opened settings w) w')
    (h : runCommand none settings command (opened settings w)
      = .ok () ((w'.holding files).warned note)) :
    Wrote w (run env words w) path content := by
  have hrun : run env words w = (.exit 0, (w'.holding files).warned note) := by
    rw [run_of_command hwords hsettings, h]
  obtain ⟨a, hlocate, hchanged, -⟩ := FileTree.changedAt_of_write hwrite
  rw [hrun]
  exact ⟨rfl, FileTree.read_of_write hwrite, hlogged.output, a, hlocate, hchanged⟩

theorem refused_of_run {e : ParseError} {document : Text} (he : e.Within (Text.lines document))
    (hlogged : World.Logged (opened settings w) w')
    (h : runCommand none settings command (opened settings w) = .error (.document e) w') :
    Refused w (run env words w) e.detail e.lineNumber := by
  have hrun : run env words w = (.exit 1, w'.warned ("Error: " ++ e.message ++ "\n")) := by
    rw [run_of_command hwords hsettings, h]
    rfl
  obtain ⟨lines, hlines, herrors⟩ := hlogged.errors
  rw [hrun]
  refine ⟨rfl, ⟨lines, hlines, ?_⟩, ?_, ?_, ?_⟩
  · rw [World.errors_warned, herrors, errors_opened]
    unfold refusal ParseError.message ParseError.atLine
    simp only [List.append_assoc]
    rfl
  · unfold refusal
    rw [List.mem_append, List.mem_append, List.mem_append]
    rintro (hmem | (hmem | hmem) | hmem)
    · exact absurd hmem (by decide)
    · exact he.not_mem_detail hmem
    · exact absurd hmem (by decide)
    · rcases isDigit_or_minus_of_mem_integer hmem with hdigit | hminus
      · exact absurd hdigit (by decide)
      · exact absurd hminus (by decide)
  · exact hlogged.output
  · exact hlogged.files

end Endings

end CallDiagram.CommandLine
