import DocPath.Cli.Command
import DocPath.Cli.Vocabulary

/-! Reading command lines. Arguments are taken from left to right: options may stand before or
after the command word, a lone `--` makes everything behind it a plain word, and an option is given
at most once on each side of the command word. Where both sides give an option, the later one
holds. A value that stands apart from its switch is examined when reading goes on behind it, so a
call for help further on comes first only where the command word or the word for help lies between
them. -/

namespace DocPath.Cli

/-- A command line that asks for no work on documents. -/
inductive Halt where
  | usage
  | help (topic : Topic)
  | version
deriving DecidableEq

/-- A number of blanks: decimal digits, possibly after a plus sign, below `2 ^ 64`. -/
def readCount? (text : String) : Option Nat :=
  let digits := match text.toList with
    | '+' :: rest => rest
    | letters => letters
  if digits = [] ∨ ¬ digits.all Char.isDigit then none
  else
    let count := Nat.ofDigitChars 10 digits 0
    if count < 0x10000000000000000 then some count else none

structure Side where
  given : List (Switch × String)
  /-- A switch whose value stands apart, and the value once it has come. -/
  pending : Option (Switch × Option String)
deriving DecidableEq

namespace Side

def empty : Side := ⟨[], none⟩

def add? (side : Side) (switch : Switch) (value : String) : Option Side :=
  if (side.given.lookup switch).isSome then none
  else if switch = .indent ∧ readCount? value = none then none
  else some ⟨(switch, value) :: side.given, none⟩

def waiting? (side : Side) : Option Switch :=
  match side.pending with
  | some (switch, none) => some switch
  | _ => none

def settle? (side : Side) : Option Side :=
  match side.pending with
  | none => some side
  | some (switch, value) => value.bind (side.add? switch)

def accept? (side : Side) (switch : Switch) (attached : Option String) : Option Side :=
  match switch.takesValue, attached with
  | true, some value => side.add? switch value
  | true, none => some { side with pending := some (switch, none) }
  | false, none => side.add? switch ""
  | false, some _ => none

def take? (side : Side) (switch : Switch) (attached : Option String) : Option Side := do
  (← side.settle?).accept? switch attached

end Side

/-- What an argument means at its place in a command line. -/
inductive Meaning where
  | nonsense
  | question (topic : Topic)
  | endOfSwitches
  | switchValue (switch : Switch) (text : String)
  | switchName (switch : Switch) (attached : Option String)
  | commandWord (verb : Verb)
  | operand (word : String)

namespace Meaning

def ofLong (verb : Option Verb) (letters : List Char) : Meaning :=
  let name := String.ofList (letters.takeWhile (· ≠ '='))
  let attached := match letters.dropWhile (· ≠ '=') with
    | [] => none
    | _ :: value => some (String.ofList value)
  match Switch.ofName? verb name with
  | some switch => .switchName switch attached
  | none => .nonsense

/-- A switch of one letter; its value may follow at once or behind an equals sign. A switch without a
value ends the reading, so letters behind it are not looked at. -/
def ofShort (verb : Option Verb) (letter : Char) (rest : List Char) : Meaning :=
  let attached := match rest with
    | [] => none
    | '=' :: value => some (String.ofList value)
    | value => some (String.ofList value)
  match Switch.ofLetter? verb letter with
  | some switch => .switchName switch (if switch.takesValue then attached else none)
  | none => .nonsense

def ofWord (verb : Option Verb) (literal : Bool) (word : String) : Meaning :=
  match verb with
  | some _ => .operand word
  | none =>
      if literal then .nonsense
      else if word = Topic.word then .question .program
      else match Verb.ofWord? word with
        | some verb => .commandWord verb
        | none => .nonsense

def below (topic : Topic) (word : String) : Meaning :=
  match topic.below? word with
  | some below => .question below
  | none => .nonsense

/-- An argument in front of a lone `--`. A lone dash is a word, and a value that is waited for may not
look like a switch. -/
def ofArgument (verb : Option Verb) (waiting : Option Switch) (argument : String) : Meaning :=
  match argument.toList, waiting with
  | '-' :: _ :: _, some _ => .nonsense
  | _, some switch => .switchValue switch argument
  | ['-', '-'], none => .endOfSwitches
  | '-' :: '-' :: letters, none => ofLong verb letters
  | '-' :: letter :: rest, none => ofShort verb letter rest
  | _, none => ofWord verb false argument

end Meaning

structure Reading where
  verb : Option Verb
  outer : Side
  /-- The side behind the command word, or before one that has not come yet. -/
  inner : Side
  reversed : List String
  literal : Bool
  /-- What the word for help asks about; only names of topics may follow it. -/
  asked : Option Topic
deriving DecidableEq

namespace Reading

def begin : Reading := ⟨none, .empty, .empty, [], false, none⟩

def topic (reading : Reading) : Topic := reading.verb.elim .program .command

def meaning (reading : Reading) (argument : String) : Meaning :=
  match reading.asked with
  | some topic => .below topic argument
  | none =>
      if reading.literal then .ofWord reading.verb true argument
      else .ofArgument reading.verb reading.inner.waiting? argument

def takeSwitch (reading : Reading) (switch : Switch) (attached : Option String) :
    Except Halt Reading :=
  match reading.inner.take? switch attached with
  | none => .error .usage
  | some inner =>
      if switch = .help then .error (.help reading.topic)
      else if switch = .version then .error .version
      else .ok { reading with inner }

def takeOperand (reading : Reading) (word : String) : Except Halt Reading :=
  match reading.inner.settle? with
  | none => .error .usage
  | some inner =>
      if reading.reversed.length < reading.verb.elim 0 fun verb => verb.operands.length then
        .ok { reading with inner, reversed := word :: reading.reversed }
      else .error .usage

def take (reading : Reading) : Meaning → Except Halt Reading
  | .nonsense => .error .usage
  | .question topic => .ok { reading with asked := some topic }
  | .endOfSwitches => .ok { reading with literal := true }
  | .switchValue switch text =>
      .ok { reading with inner := { reading.inner with pending := some (switch, some text) } }
  | .switchName switch attached => reading.takeSwitch switch attached
  | .commandWord verb => .ok { reading with verb := some verb, outer := reading.inner, inner := .empty }
  | .operand word => reading.takeOperand word

def step (reading : Reading) (argument : String) : Except Halt Reading :=
  reading.take (reading.meaning argument)

def settle? (reading : Reading) : Option Reading := do
  return { reading with inner := ← reading.inner.settle?, outer := ← reading.outer.settle? }

/-- The value of a switch, of which the later side of the command word decides. -/
def value? (reading : Reading) (switch : Switch) : Option String :=
  (reading.inner.given.lookup switch).orElse fun _ => reading.outer.given.lookup switch

def has (reading : Reading) (switch : Switch) : Bool := (reading.value? switch).isSome

def command? (reading : Reading) : Option Command :=
  match reading.verb, reading.reversed.reverse with
  | some .flatten, [] => some (.flatten none)
  | some .flatten, [input] => some (.flatten (some input))
  | some .unflatten, [] => some (.unflatten none !(reading.has .noCompact))
  | some .unflatten, [input] => some (.unflatten (some input) !(reading.has .noCompact))
  | some .get, [path] => some (.get path none (reading.value? .fallback))
  | some .get, [path, input] => some (.get path (some input) (reading.value? .fallback))
  | some .set, [path, value] => some (.set path value none (reading.has .new))
  | some .set, [path, value, input] => some (.set path value (some input) (reading.has .new))
  | some .parse, [path] => some (.parse path (reading.has .lenient))
  | some .name, [segments] => some (.name segments)
  | _, _ => none

def defaultIndent : Nat := 2

def settledRequest? (reading : Reading) : Option Request :=
  reading.command?.map fun command =>
    { command
      output := reading.value? .output
      indent := ((reading.value? .indent).bind readCount?).getD defaultIndent }

def request? (reading : Reading) : Option Request := do
  (← reading.settle?).settledRequest?

def finish (reading : Reading) : Except Halt Request :=
  match reading.asked, reading.request? with
  | some topic, _ => .error (.help topic)
  | none, some request => .ok request
  | none, none => .error .usage

end Reading

def readArguments (arguments : List String) : Except Halt Request :=
  arguments.foldlM Reading.step Reading.begin >>= Reading.finish

end DocPath.Cli
