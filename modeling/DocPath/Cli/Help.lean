import DocPath.Cli.Vocabulary

/-! Help texts: a summary, a line of usage, and tables of commands, operands and switches, with the
explanations of a table below each other. -/

namespace DocPath.Cli

def columns (rows : List (String × String)) : String :=
  let width := rows.foldl (fun width row => max width row.1.length) 0
  "\n".intercalate (rows.map fun (label, summary) =>
    "  " ++ label ++ String.ofList (List.replicate (width - label.length) ' ') ++ "  " ++ summary)

def table (title : String) (rows : List (String × String)) : List String :=
  if rows = [] then [] else [title ++ ":\n" ++ columns rows]

def Operand.label (operand : Operand) : String :=
  if operand.required then "<" ++ operand.name ++ ">" else "[" ++ operand.name ++ "]"

def Switch.label (switch : Switch) : String :=
  let short := match switch.letter? with
    | some letter => String.ofList ['-', letter, ',', ' ']
    | none => "    "
  let value := match switch.valueName? with
    | some name => " <" ++ name ++ ">"
    | none => ""
  short ++ "--" ++ switch.name ++ value

namespace Topic

def usage : Topic → List String
  | .program => ["[OPTIONS]", "<COMMAND>"]
  | .command verb => verb.word :: "[OPTIONS]" :: verb.operands.map Operand.label
  | .help => [word, "[COMMAND]..."]

def commandRows : Topic → List (String × String)
  | .program => Verb.all.map (fun verb => (verb.word, verb.summary)) ++ [(word, help.summary)]
  | .command _ | .help => []

def operandRows : Topic → List (String × String)
  | .program => []
  | .command verb => verb.operands.map fun operand => (operand.label, operand.summary)
  | .help => [("[COMMAND]...", "Print help for the subcommand(s)")]

def switchRows : Topic → List (String × String)
  | .program => (Switch.allowed none).map fun switch => (switch.label, switch.summary)
  | .command verb =>
      (Switch.allowed (some verb)).map fun switch => (switch.label, switch.summary)
  | .help => []

def text (topic : Topic) : String :=
  "\n\n".intercalate ([topic.summary, "Usage: " ++ " ".intercalate ("propath" :: topic.usage)] ++
    table "Commands" topic.commandRows ++ table "Arguments" topic.operandRows ++
    table "Options" topic.switchRows) ++ "\n"

end Topic
end DocPath.Cli
