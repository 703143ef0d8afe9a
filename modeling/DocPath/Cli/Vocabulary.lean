/-! The words of command lines: the command words with their operands, and the switches with their
names and letters. What is understood and what the help texts say both come from these tables. -/

namespace DocPath.Cli

inductive Verb where
  | flatten
  | unflatten
  | get
  | set
  | parse
  | name
deriving DecidableEq

inductive Switch where
  | output
  | indent
  | fallback
  | noCompact
  | new
  | lenient
  | help
  | version
deriving DecidableEq

structure Operand where
  name : String
  required : Bool
  summary : String
deriving DecidableEq

inductive Topic where
  | program
  | command (verb : Verb)
  | help
deriving DecidableEq

namespace Operand

def path : Operand := ⟨"PATH", true, ""⟩

def input : Operand := ⟨"INPUT", false, "Input file path. Omit or use '-' to read from stdin"⟩

end Operand

namespace Verb

def all : List Verb := [.flatten, .unflatten, .get, .set, .parse, .name]

def word : Verb → String
  | .flatten => "flatten"
  | .unflatten => "unflatten"
  | .get => "get"
  | .set => "set"
  | .parse => "parse"
  | .name => "name"

def ofWord? (word : String) : Option Verb := all.find? fun verb => verb.word = word

def operands : Verb → List Operand
  | .flatten | .unflatten => [.input]
  | .get => [.path, .input]
  | .set => [.path, ⟨"VALUE", true, "JSON value to write"⟩, .input]
  | .parse => [.path]
  | .name => [⟨"SEGMENTS", true, "For example '[\"dates\", 0, \"type\"]'"⟩]

def summary : Verb → String
  | .flatten => "Flatten a JSON document into a `\x7b\"path\": leaf\x7d` object"
  | .unflatten => "Rebuild a JSON document from a `\x7b\"path\": leaf\x7d` object"
  | .get => "Print the value at a path"
  | .set => "Write a JSON value at a path and print the resulting document"
  | .parse => "Print the tokens of a path expression as a JSON array"
  | .name => "Build a path expression from a JSON array of keys and indices"

theorem mem_all (verb : Verb) : verb ∈ all := by cases verb <;> decide

theorem ofWord?_word (verb : Verb) : ofWord? verb.word = some verb := by cases verb <;> decide

end Verb

namespace Switch

def name : Switch → String
  | .output => "output"
  | .indent => "indent"
  | .fallback => "fallback"
  | .noCompact => "no-compact"
  | .new => "new"
  | .lenient => "lenient"
  | .help => "help"
  | .version => "version"

def letter? : Switch → Option Char
  | .output => some 'o'
  | .help => some 'h'
  | .version => some 'V'
  | _ => none

def valueName? : Switch → Option String
  | .output => some "file"
  | .indent => some "number"
  | .fallback => some "json"
  | _ => none

def takesValue (switch : Switch) : Bool := switch.valueName?.isSome

def summary : Switch → String
  | .output => "Output file path (prints to stdout if omitted)"
  | .indent => "Indentation size for JSON output; 0 prints compact JSON (default: 2) [default: 2]"
  | .fallback => "JSON value to print when the path does not resolve"
  | .noCompact => "Keep holes left by sparse array indices (printed as null)"
  | .new => "Start from an empty document instead of reading input"
  | .lenient => "Accept the empty path and a leading array index"
  | .help => "Print help"
  | .version => "Print version"

def ofVerb : Verb → List Switch
  | .flatten | .name => []
  | .unflatten => [.noCompact]
  | .get => [.fallback]
  | .set => [.new]
  | .parse => [.lenient]

/-- The switches that are understood behind a command word, or before one. -/
def allowed : Option Verb → List Switch
  | none => [.output, .indent, .help, .version]
  | some verb => ofVerb verb ++ [.output, .indent, .help]

def ofName? (verb : Option Verb) (name : String) : Option Switch :=
  (allowed verb).find? fun switch => switch.name = name

def ofLetter? (verb : Option Verb) (letter : Char) : Option Switch :=
  (allowed verb).find? fun switch => switch.letter? = some letter

end Switch

namespace Topic

def word : String := "help"

def summary : Topic → String
  | .program => "Flatten, unflatten and query JSON documents by property path"
  | .command verb => verb.summary
  | .help => "Print this message or the help of the given subcommand(s)"

def below? : Topic → String → Option Topic
  | .program, name => if name = word then some .help else (Verb.ofWord? name).map .command
  | .command _, _ | .help, _ => none

end Topic
end DocPath.Cli
