import CallDiagram.Text.Basic

/-!
# What may stand on the command line

The program and each of its commands has a grammar: options, some of which take a value, and one
operand.  The operand of a command is a single word; that of the program is the name of a command
with everything behind it.

* `Flag`, `Purpose` — options;
* `Grammar` — options, operand and usage line;
* `Grammar.program`, `Grammar.tree`, `Grammar.diagram`, `Grammar.image`, `Grammar.batch` — the five
  grammars.
-/

namespace CallDiagram.CommandLine

/-- What an option is for. -/
inductive Purpose where
  /-- Shows the usage and ends. -/
  | help
  /-- Reports all details. -/
  | verbose
  /-- Prints JSON. -/
  | json
  /-- Names the file to write. -/
  | output
  /-- Names the index of links. -/
  | index
  /-- Chooses the image format. -/
  | format
  /-- Leaves the images out. -/
  | noImage
  /-- Names the file for the index of a batch. -/
  | writeIndex
  deriving DecidableEq, Repr

/-- An option. -/
structure Flag where
  /-- Its names, each with its dashes. -/
  names : List Text
  /-- What it is for. -/
  purpose : Purpose
  /-- Whether it takes a value. -/
  takesValue : Bool := false
  deriving DecidableEq, Repr

/-- The name of an option in messages. -/
def Flag.title (flag : Flag) : Text := ['/'].intercalate flag.names

/-- The options and the operand of a command. -/
structure Grammar where
  /-- The words that start the command. -/
  start : Text
  /-- The line that shows how to use it. -/
  usage : Text
  /-- Its options. -/
  flags : List Flag
  /-- The name of its operand in messages. -/
  operand : Text
  /-- Whether the operand takes everything behind its first word. -/
  takesRest : Bool := false
  deriving DecidableEq, Repr

namespace Grammar

/-- The option that every command has. -/
def help : Flag := ⟨["-h", "--help"], .help, false⟩

/-- The option for the file to write. -/
def output : Flag := ⟨["--output", "-o"], .output, true⟩

/-- The option for the image format. -/
def format : Flag := ⟨["--format", "-f"], .format, true⟩

/-- The option for the index of links. -/
def index : Flag := ⟨["--index"], .index, true⟩

/-- The program in front of its commands. -/
def program : Grammar where
  start := "codesque"
  usage := "usage: codesque [-h] [--verbose] \x7btree,puml,render,batch\x7d ..."
  flags := [help, ⟨["--verbose", "-v"], .verbose, false⟩]
  operand := "command"
  takesRest := true

/-- The command that prints a call tree. -/
def tree : Grammar where
  start := "codesque tree"
  usage := "usage: codesque tree [-h] [--json] file"
  flags := [help, ⟨["--json"], .json, false⟩]
  operand := "file"

/-- The command that makes a diagram. -/
def diagram : Grammar where
  start := "codesque puml"
  usage := "usage: codesque puml [-h] [--output OUTPUT] [--index INDEX] file"
  flags := [help, output, index]
  operand := "file"

/-- The command that draws an image. -/
def image : Grammar where
  start := "codesque render"
  usage :=
    "usage: codesque render [-h] [--output OUTPUT] [--format FORMAT] [--index INDEX] file"
  flags := [help, output, format, index]
  operand := "file"

/-- The command that converts a directory. -/
def batch : Grammar where
  start := "codesque batch"
  usage :=
    "usage: codesque batch [-h] [--format FORMAT] [--no-image] [--write-index JSON] directory"
  flags :=
    [help, format, ⟨["--no-image"], .noImage, false⟩, ⟨["--write-index"], .writeIndex, true⟩]
  operand := "directory"

/-- The option with a name. -/
def flag? (g : Grammar) (name : Text) : Option Flag := g.flags.find? fun f => name ∈ f.names

/-- Every name of an option, with the option. -/
def names (g : Grammar) : List (Text × Flag) :=
  g.flags.flatMap fun f => f.names.map fun n => (n, f)

end Grammar

end CallDiagram.CommandLine
