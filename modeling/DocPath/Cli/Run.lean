import DocPath.Cli.Command
import DocPath.Cli.Console
import DocPath.Cli.Label
import DocPath.Flat.Build
import DocPath.Path.Segment
import DocPath.Text.Quoted

/-! Answering requests. Every command reads what it needs, works on it, and writes its answer; any of
these steps may fail, and then the rest is left undone. -/

namespace DocPath.Cli

inductive Source where
  | standardInput
  | file (path : String)
deriving DecidableEq

inductive Failure where
  | usage
  | unusable (fault : FileFault)
  | badJson
  | badValue (argument : String)
  | rejected (error : Error)
  | noValue (path : String)
  /-- The indentation of an answer is too wide to be laid out. -/
  | tooWide
deriving DecidableEq

/-- The message of a failure. `complaint` says what is wrong with a text that is no JSON. -/
def Failure.message (complaint : String) : Failure → String
  | .usage => "usage: propath [-o FILE] [--indent NUMBER] COMMAND ..."
  | .unusable fault => fault.message
  | .badJson => complaint
  | .badValue argument => "invalid JSON value " ++ Text.quoted argument ++ ": " ++ complaint
  | .rejected error => error.message
  | .noValue path => "no value at '" ++ path ++ "'"
  | .tooWide => "capacity overflow"

/-- The exit code of a failure. A run that is too wide is not ended in good order but breaks off. -/
def Failure.code : Failure → Nat
  | .usage => 2
  | .tooWide => 101
  | _ => 1

/-- An input argument; a missing one and a lone dash mean standard input. -/
def Source.ofArgument : Option String → Source
  | none => .standardInput
  | some path => if path = "-" then .standardInput else .file path

def Source.label (directory : String) : Source → String
  | .standardInput => "stdin"
  | .file path => Cli.label directory path

def orFailure {α : Type} (failure : Failure) : Option α → Except Failure α
  | some value => .ok value
  | none => .error failure

def document (text : String) : Except Failure Node := orFailure .badJson (Node.parse? text)

def flatMap (text : String) : Except Failure FlatMap :=
  orFailure .badJson ((Json.parse? text).bind FlatMap.ofJson?)

def givenValue (argument : String) : Except Failure Node :=
  orFailure (.badValue argument) (Node.parse? argument)

def givenSegments (text : String) : Except Failure (List Json) :=
  match Json.parse? text with
  | some (.array items) => .ok items
  | _ => .error .badJson

def orRejected {α : Type} : Except Error α → Except Failure α
  | .ok value => .ok value
  | .error error => .error (.rejected error)

def orUnusable {α : Type} : Except FileFault α → Except Failure α
  | .ok value => .ok value
  | .error fault => .error (.unusable fault)

/-- What stands at a path, or what is given in its place. -/
def found (path : String) (fallback : Option Node) : Option Node → Except Failure Node
  | some node => .ok node
  | none => orFailure (.noValue path) fallback

/-- The line that tells which file was written from which document. -/
def statusLine (verb : String) (source : Source) (directory file : String) : String :=
  "✔ " ++ verb ++ " " ++ source.label directory ++ " → " ++ label directory file ++ "\n"

section
variable {m : Type → Type} [Monad m] {Handle : Type}

namespace Console
variable (console : Console m Handle)

def fetch : Source → ExceptT Failure m String
  | .standardInput => console.standardInput
  | .file path => do orUnusable (← console.readFile path)

/-- Writes an answer to a file, or to standard output. The file is opened first, and stays empty if the
answer cannot be laid out. -/
def emit (target : Option String) (answer : Option String) : ExceptT Failure m Unit :=
  match target with
  | none => do console.print (← orFailure .tooWide answer)
  | some path => do
      let handle ← orUnusable (← console.createFile path)
      console.write handle (← orFailure .tooWide answer)

def report (verb : String) (source : Source) (target : Option String) : ExceptT Failure m Unit :=
  match target with
  | none => return
  | some path => do console.print (statusLine verb source (← console.workingDirectory) path)

end Console

namespace Request

/-- The file that a request writes; a lone dash means standard output. -/
def target? (request : Request) : Option String :=
  request.output.filter (· ≠ "-")

def perform (console : Console m Handle) (request : Request) : ExceptT Failure m Unit :=
  let target := request.target?
  match request.command with
  | .flatten input => do
      let source := Source.ofArgument input
      let root ← document (← console.fetch source)
      console.emit target (root.flatten.toJson.indentedText? request.indent)
      console.report "Flattened" source target
  | .unflatten input compact => do
      let source := Source.ofArgument input
      let flat ← flatMap (← console.fetch source)
      let root ← orRejected (flat.build compact)
      console.emit target (root.indentedText? request.indent)
      console.report "Unflattened" source target
  | .get path input fallback => do
      let root ← document (← console.fetch (Source.ofArgument input))
      let other ← (fallback.mapM document : Except Failure (Option Node))
      let node ← found path other (← orRejected (root.getAt path))
      console.emit target (node.indentedText? request.indent)
  | .set path argument _ true => do
      let root ← orRejected (Node.setAt none path (← givenValue argument))
      console.emit target (root.indentedText? request.indent)
  | .set path argument input false => do
      let source := Source.ofArgument input
      let before ← document (← console.fetch source)
      let root ← orRejected (Node.setAt (some before) path (← givenValue argument))
      console.emit target (root.indentedText? request.indent)
      console.report "Updated" source target
  | .parse path lenient => do
      let parsed ← orRejected (Path.parseWith (!lenient) path)
      console.emit target ((Path.toJson parsed).indentedText? 0)
  | .name text => do
      let name ← orRejected (Path.nameOfJson (← givenSegments text))
      console.emit target (some name)

end Request
end
end DocPath.Cli
