import CallDiagram.CommandLine.Invocation
import CallDiagram.Proofs.Files.Access

/-!
# Words of a command line

Which command some words are, when the names of the files among them are not taken for options.

* `IsOperand` — words that are no options, `isOperand_of_head?`;
* `read_diagram`, `read_diagram_output` — command lines for diagrams;
* `read_tree`, `read_tree_json` — command lines for call trees.
-/

namespace CallDiagram.CommandLine

/-- A word that is an operand wherever the program, its trees and its diagrams look for options. -/
def IsOperand (word : Text) : Prop :=
  ∀ g ∈ [Grammar.program, Grammar.tree, Grammar.diagram], Token.ofWord g word = .ok .operand

/-- A word that does not start with a dash is an operand. -/
theorem isOperand_of_head? {word : Text} (h : word.head? ≠ some '-') : IsOperand word := by
  intro g _
  rw [Token.ofWord, if_pos h]

/-! ## Scanning -/

theorem ofWords_cons {g : Grammar} {word : Text} {rest : List Text} {token : Token}
    {tokens : List (Token × Text)} (hword : Token.ofWord g word = .ok token)
    (hne : word ≠ ['-', '-']) (hrest : Token.ofWords g rest = .ok tokens) :
    Token.ofWords g (word :: rest) = .ok ((token, word) :: tokens) := by
  rw [Token.ofWords, if_neg hne, hword, hrest]
  rfl

namespace IsOperand

variable {word : Text} (h : IsOperand word)

include h

theorem program : Token.ofWord .program word = .ok .operand := h _ (by simp)

theorem tree : Token.ofWord .tree word = .ok .operand := h _ (by simp)

theorem diagram : Token.ofWord .diagram word = .ok .operand := h _ (by simp)

/-- Two dashes could be any long option. -/
theorem ne_dashes : word ≠ ['-', '-'] := by
  rintro rfl
  have hdashes := h.program
  revert hdashes
  decide

end IsOperand

/-- Behind the name of a command everything belongs to the command. -/
theorem read_of_command {name : Text} {rest : List Text} {tokens : List (Token × Text)}
    (hname : IsOperand name) (hrest : Token.ofWords .program rest = .ok tokens)
    (hwords : tokens.map Prod.snd = rest) {command : Command}
    (hcommand : Command.read name rest = .ok (command, [])) :
    Invocation.read (name :: rest) = .ok ⟨false, some command⟩ := by
  have hscan : Grammar.program.scan (name :: rest)
      = .ok ⟨[], some (name :: tokens.map Prod.snd), []⟩ := by
    rw [Grammar.scan, ofWords_cons hname.program hname.ne_dashes hrest]
    rfl
  rw [Invocation.read, hscan, hwords]
  show (Command.read name rest >>= _) = _
  rw [hcommand]
  rfl

theorem ofWords_singleton {g : Grammar} {word : Text} {token : Token}
    (hword : Token.ofWord g word = .ok token) (hne : word ≠ ['-', '-']) :
    Token.ofWords g [word] = .ok [(token, word)] := ofWords_cons hword hne rfl

/-! ## Command lines -/

section Commands

variable {file index output : Text} (hfile : IsOperand file)

include hfile

theorem read_tree : Invocation.read ["tree", file] = .ok ⟨false, some (.tree file false)⟩ := by
  refine read_of_command (isOperand_of_head? (by decide))
    (ofWords_singleton hfile.program hfile.ne_dashes) rfl ?_
  show (Grammar.tree.scan [file] >>= _) = _
  rw [Grammar.scan, ofWords_singleton hfile.tree hfile.ne_dashes]
  rfl

theorem read_tree_json :
    Invocation.read ["tree", file, "--json"] = .ok ⟨false, some (.tree file true)⟩ := by
  have hjson : ("--json" : Text) ≠ ['-', '-'] := by decide
  refine read_of_command (isOperand_of_head? (by decide))
    (ofWords_cons hfile.program hfile.ne_dashes (ofWords_singleton rfl hjson)) rfl ?_
  show (Grammar.tree.scan [file, "--json"] >>= _) = _
  rw [Grammar.scan, ofWords_cons hfile.tree hfile.ne_dashes (ofWords_singleton rfl hjson)]
  rfl

variable (hindex : IsOperand index)

include hindex

theorem read_diagram :
    Invocation.read ["puml", file, "--index", index]
      = .ok ⟨false, some (.diagram file none (Text.nonempty? (some index)))⟩ := by
  have hflag : ("--index" : Text) ≠ ['-', '-'] := by decide
  refine read_of_command (isOperand_of_head? (by decide))
    (ofWords_cons hfile.program hfile.ne_dashes
      (ofWords_cons rfl hflag (ofWords_singleton hindex.program hindex.ne_dashes))) rfl ?_
  show (Grammar.diagram.scan [file, "--index", index] >>= _) = _
  rw [Grammar.scan, ofWords_cons hfile.diagram hfile.ne_dashes
    (ofWords_cons rfl hflag (ofWords_singleton hindex.diagram hindex.ne_dashes))]
  rfl

theorem read_diagram_output (houtput : IsOperand output) :
    Invocation.read ["puml", file, "--index", index, "-o", output]
      = .ok ⟨false, some (.diagram file (Text.nonempty? (some output))
          (Text.nonempty? (some index)))⟩ := by
  have hflag : ("--index" : Text) ≠ ['-', '-'] := by decide
  have hshort : ("-o" : Text) ≠ ['-', '-'] := by decide
  refine read_of_command (isOperand_of_head? (by decide))
    (ofWords_cons hfile.program hfile.ne_dashes
      (ofWords_cons rfl hflag (ofWords_cons hindex.program hindex.ne_dashes
        (ofWords_cons rfl hshort (ofWords_singleton houtput.program houtput.ne_dashes))))) rfl ?_
  show (Grammar.diagram.scan [file, "--index", index, "-o", output] >>= _) = _
  rw [Grammar.scan, ofWords_cons hfile.diagram hfile.ne_dashes
    (ofWords_cons rfl hflag (ofWords_cons hindex.diagram hindex.ne_dashes
      (ofWords_cons rfl hshort (ofWords_singleton houtput.diagram houtput.ne_dashes))))]
  rfl

end Commands

end CallDiagram.CommandLine
