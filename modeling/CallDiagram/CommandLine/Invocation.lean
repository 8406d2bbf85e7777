import CallDiagram.CommandLine.Scan

/-!
# Invocations

What a user asks for: a command with its choices, or nothing but the usage.

* `Command`, `Invocation` — the types;
* `Invocation.read` — the invocation that the words of a command line make, or why they make none.
-/

namespace CallDiagram.CommandLine

/-- A command. -/
inductive Command where
  /-- Prints the call tree of a file. -/
  | tree (file : Text) (json : Bool)
  /-- Writes the diagram of a file. -/
  | diagram (file : Text) (output index : Option Text)
  /-- Draws the image of a file. -/
  | image (file : Text) (output format index : Option Text)
  /-- Converts a directory. -/
  | batch (directory : Text) (format : Option Text) (images : Bool) (index : Option Text)
  deriving DecidableEq, Repr

/-- What a user asks for. -/
structure Invocation where
  /-- Whether all details are to be reported. -/
  verbose : Bool
  /-- The command, if there is one. -/
  command : Option Command
  deriving DecidableEq, Repr

/-- The commands by name: the grammar of each, and the command that its options make of a file. -/
def commands : List (Text × Grammar × (Text → Scanned → Command)) :=
  [("tree", .tree, fun file s => .tree file (s.has .json)),
   ("puml", .diagram, fun file s => .diagram file (s.value? .output) (s.value? .index)),
   ("render", .image, fun file s =>
      .image file (s.value? .output) (s.value? .format) (s.value? .index)),
   ("batch", .batch, fun directory s =>
      .batch directory (s.value? .format) (!s.has .noImage) (s.value? .writeIndex))]

/-- The complaint about a name that is no command. -/
def unknownCommand (name : Text) : Stop :=
  .misuse .program
    ("argument command: invalid choice: " ++ name.quoted ++ " (choose from "
      ++ [',', ' '].intercalate (commands.map fun c => c.1.quoted) ++ ")")

/-- A result, unless words without a place are left. -/
def unlessExtra {α : Type} (extras : List Text) (result : α) : Except Stop α :=
  if extras.isEmpty then .ok result
  else .error (.misuse .program ("unrecognized arguments: " ++ [' '].intercalate extras))

/-- The command that a name and the words behind it make, and the words without a place. -/
def Command.read (name : Text) (words : List Text) : Except Stop (Command × List Text) :=
  match commands.lookup name with
  | none => .error (unknownCommand name)
  | some (grammar, build) => do
      let s ← grammar.scan words
      match s.operand.bind List.head? with
      | some operand => .ok (build operand s, s.extras)
      | none =>
          .error (.misuse grammar
            ("the following arguments are required: " ++ grammar.operand))

/-- The invocation that the words of a command line make. -/
def Invocation.read (words : List Text) : Except Stop Invocation := do
  let s ← Grammar.program.scan words
  let verbose := s.has .verbose
  match s.operand with
  | some (name :: rest) =>
      let (command, extras) ← Command.read name rest
      unlessExtra (s.extras ++ extras) ⟨verbose, some command⟩
  | _ => unlessExtra s.extras ⟨verbose, none⟩

end CallDiagram.CommandLine
