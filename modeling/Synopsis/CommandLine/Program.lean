import Synopsis.CommandLine.Grammar

/-!
# The program and its commands

The program has three commands. Each of them, and the program itself, has a grammar, a usage that every
complaint repeats, and a help text.
-/

namespace Synopsis

namespace CommandLine

inductive Program where
  | whole
  | init
  | parse
  | check
  deriving DecidableEq, Repr

namespace Program

def commands : List Program := [.init, .parse, .check]

def name : Program → Text
  | .whole => "docsyntax".toList
  | .init => "init".toList
  | .parse => "parse".toList
  | .check => "check".toList

def fullName : Program → Text
  | .whole => Program.whole.name
  | p => Program.whole.name ++ ' ' :: p.name

def ofName? (t : Text) : Option Program :=
  commands.find? fun p => p.name == t

theorem ofName?_name {p : Program} (h : p ≠ .whole) : ofName? p.name = some p := by
  cases p <;> first | exact absurd rfl h | decide

def grammar : Program → Grammar
  | .whole => ⟨[.help], .command⟩
  | .init => ⟨[.help], .optional⟩
  | .parse => ⟨[.help, .config], .required "syntax".toList⟩
  | .check => ⟨[.help, .config, .level, .output, .verbose], .required "records".toList⟩

def usageLines : Program → List String
  | .whole => ["usage: docsyntax [-h] COMMAND ..."]
  | .init => ["usage: docsyntax init [-h] [directory]"]
  | .parse => ["usage: docsyntax parse [-h] [--config CONFIG] syntax"]
  | .check =>
    ["usage: docsyntax check [-h] [--config CONFIG] [-w \x7b1,2\x7d] [-o OUTPUT] [-v]",
     "                       records"]

def helpLines : Program → List String
  | .whole =>
    ["docsyntax - command syntax notation checker for API documentation",
     "",
     "positional arguments:",
     "  COMMAND",
     "    init      Create a default workspace configuration",
     "    parse     Parse a syntax string and print the result as JSON",
     "    check     Check documented commands against their syntax",
     "",
     "options:",
     "  -h, --help  show this help message and exit"]
  | .init =>
    ["Write a default .docsyntax.yaml into a directory.",
     "",
     "positional arguments:",
     "  directory   Directory to initialize (default: current directory)",
     "",
     "options:",
     "  -h, --help  show this help message and exit"]
  | .parse =>
    ["Parse a syntax string into variants, parameters, return types, and issues.",
     "",
     "positional arguments:",
     "  syntax           The syntax string, variants separated by <br/>",
     "",
     "options:",
     "  -h, --help       show this help message and exit",
     "  --config CONFIG  Workspace configuration file (default: ./.docsyntax.yaml if",
     "                   present)"]
  | .check =>
    ["Check every command of a records file for malformed syntax and documentation",
     "mismatches.",
     "",
     "positional arguments:",
     "  records               YAML or JSON file mapping categories to command",
     "                        records",
     "",
     "options:",
     "  -h, --help            show this help message and exit",
     "  --config CONFIG       Workspace configuration file (default:",
     "                        ./.docsyntax.yaml if present)",
     "  -w \x7b1,2\x7d, --warning-level \x7b1,2\x7d",
     "                        1: structural issues only, 2: all issues (default:",
     "                        from config, else 1)",
     "  -o OUTPUT, --output OUTPUT",
     "                        Also write the report to this file",
     "  -v, --verbose         Log progress details"]

def usage (p : Program) : List Text :=
  p.usageLines.map String.toList

def help (p : Program) : List Text :=
  p.usage ++ [] :: p.helpLines.map String.toList

/-- What is told of a complaint. -/
def refusal (p : Program) (c : Complaint) : List Text :=
  p.usage ++ [p.fullName ++ ": error: ".toList ++ c.message]

end Program

/-- What the words of a command line ask for. -/
inductive Request where
  | help (p : Program)
  | refused (p : Program) (c : Complaint)
  | init (directory : Text)
  | parse (notationText : Text) (config : Given Text)
  | check (records : Text) (settings : Settings)
  deriving DecidableEq, Repr

namespace Request

def ofStop (p : Program) : Stop → Request
  | .help => .help p
  | .complaint c => .refused p c

/-- The request of a command by its operand and settings. -/
def ofCommand (p : Program) (operand : Option Text) (s : Settings) : Request :=
  match p, operand with
  | .init, directory => .init (directory.getD ['.'])
  | .parse, some t => .parse t s.config
  | .check, some t => .check t s
  | _, _ => .help p

/-- Words without use are refused by the program as a whole, after all else is read. -/
def ofParsed (p : Program) (before : List Text) (parsed : Parsed) : Request :=
  match before ++ parsed.extras with
  | [] => ofCommand p (parsed.operand.bind List.head?) parsed.settings
  | extras => .refused .whole (.unrecognized extras)

def ofCommandWords (before : List Text) (command : Text) (ts : List Text) : Request :=
  match Program.ofName? command with
  | none => .refused .whole (.unknownCommand command (Program.commands.map Program.name))
  | some p =>
    match p.grammar.parse ts with
    | .error stop => ofStop p stop
    | .ok parsed => ofParsed p before parsed

def ofWords (ts : List Text) : Request :=
  match Program.whole.grammar.parse ts with
  | .error stop => ofStop .whole stop
  | .ok parsed =>
    match parsed.operand with
    | some (command :: rest) => ofCommandWords parsed.extras command rest
    | _ => ofParsed .whole [] parsed

@[simp] theorem ofWords_nil : ofWords [] = .help .whole := by
  have hparse : Program.whole.grammar.parse [] = .ok {} := by
    change Program.whole.grammar.parseWords {} [] >>= _ = _
    rw [Grammar.parseWords]
    rfl
  rw [ofWords, hparse]
  rfl

end Request

end CommandLine

end Synopsis
