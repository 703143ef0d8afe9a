import DocPath.Cli
import DocPath.Data.OptionExcept

/-! What a request does, in order. Six commands read, parse and compute each in its own way, but on any
console they come to the same: the answer is worked out, and what is left that could fail when it is written
is to open the file and then to lay out an answer with an indentation that is too wide. -/

namespace DocPath.Cli

/-- A result that, if it is a failure, is one that ends a run in good order. -/
def Orderly {α : Type} (result : Except Failure α) : Prop :=
  ∀ failure, result = .error failure → failure.code = 1

section
variable {α : Type}

theorem orderly_ok (value : α) : Orderly (.ok value) := by
  intro failure failed
  cases failed

theorem orderly_error {failure : Failure} (code : failure.code = 1) :
    Orderly (.error failure : Except Failure α) := by
  intro other failed
  cases failed
  exact code

theorem Orderly.bind {β : Type} {first : Except Failure α} {next : α → Except Failure β}
    (before : Orderly first) (later : ∀ value, Orderly (next value)) : Orderly (first >>= next) := by
  cases first with
  | error failure => exact orderly_error (before failure rfl)
  | ok value => exact later value

theorem orderly_orRejected (result : Except Error α) : Orderly (orRejected result) := by
  cases result with
  | error error => exact orderly_error rfl
  | ok value => exact orderly_ok value

theorem orderly_orUnusable (result : Except FileFault α) : Orderly (orUnusable result) := by
  cases result with
  | error fault => exact orderly_error rfl
  | ok value => exact orderly_ok value

end

theorem orderly_orFailure {α : Type} {failure : Failure} (code : failure.code = 1) (value : Option α) :
    Orderly (orFailure failure value) := by
  cases value with
  | none => exact orderly_error code
  | some value => exact orderly_ok value

theorem orderly_document (text : String) : Orderly (document text) := orderly_orFailure rfl _

theorem orderly_flatMap (text : String) : Orderly (flatMap text) := orderly_orFailure rfl _

theorem orderly_givenValue (argument : String) : Orderly (givenValue argument) := orderly_orFailure rfl _

theorem orderly_givenSegments (text : String) : Orderly (givenSegments text) := by
  unfold givenSegments
  split
  · exact orderly_ok _
  · exact orderly_error rfl

theorem orderly_found (path : String) (fallback held : Option Node) :
    Orderly (found path fallback held) := by
  cases held with
  | none => exact orderly_orFailure rfl fallback
  | some node => exact orderly_ok node

namespace Command

/-- Where the document of a command comes from, if it wants one. -/
def source? : Command → Option Source
  | .flatten input | .unflatten input _ | .get _ input _ | .set _ _ input false => some (.ofArgument input)
  | .set _ _ _ true | .parse .. | .name _ => none

/-- What is said of a command that has written a file. -/
def report? : Command → Option String
  | .flatten _ => some "Flattened"
  | .unflatten .. => some "Unflattened"
  | .set _ _ _ false => some "Updated"
  | .set _ _ _ true | .get .. | .parse .. | .name _ => none

def indents : Command → Bool
  | .flatten _ | .unflatten .. | .get .. | .set .. => true
  | .parse .. | .name _ => false

/-- The text that answers a command, or nothing if it cannot be laid out. `input` is the text of the
command's document, if it wants one. -/
def answer (indent : Nat) (input : String) : Command → Except Failure (Option String)
  | .flatten _ => do
      return (← document input).flatten.toJson.indentedText? indent
  | .unflatten _ compact => do
      return (← orRejected ((← flatMap input).build compact)).indentedText? indent
  | .get path _ fallback => do
      let root ← document input
      let other ← fallback.mapM document
      return (← found path other (← orRejected (root.getAt path))).indentedText? indent
  | .set path argument _ true => do
      return (← orRejected (Node.setAt none path (← givenValue argument))).indentedText? indent
  | .set path argument _ false => do
      let before ← document input
      return (← orRejected (Node.setAt (some before) path (← givenValue argument))).indentedText? indent
  | .parse path lenient => do
      return (Path.toJson (← orRejected (Path.parseWith (!lenient) path))).indentedText? 0
  | .name text => do
      return some (← orRejected (Path.nameOfJson (← givenSegments text)))

theorem answer_eq_none_iff {command : Command} {indent : Nat} {input : String} {answer : Option String}
    (worked : command.answer indent input = .ok answer) :
    answer = none ↔ command.indents = true ∧ Json.widestIndentation < indent := by
  cases command with
  | flatten =>
    obtain ⟨root, -, shown⟩ := Except.bind_eq_ok_iff.mp worked
    cases shown
    simp [indents, Json.indentedText?_eq_none_iff]
  | unflatten =>
    obtain ⟨flat, -, later⟩ := Except.bind_eq_ok_iff.mp worked
    obtain ⟨root, -, shown⟩ := Except.bind_eq_ok_iff.mp later
    cases shown
    simp [indents, Node.indentedText?_eq_none_iff]
  | get =>
    obtain ⟨root, -, later⟩ := Except.bind_eq_ok_iff.mp worked
    obtain ⟨other, -, later⟩ := Except.bind_eq_ok_iff.mp later
    obtain ⟨read, -, later⟩ := Except.bind_eq_ok_iff.mp later
    obtain ⟨node, -, shown⟩ := Except.bind_eq_ok_iff.mp later
    cases shown
    simp [indents, Node.indentedText?_eq_none_iff]
  | set path argument source new =>
    have node : ∃ node : Node, answer = node.indentedText? indent := by
      cases new with
      | true =>
        obtain ⟨value, -, later⟩ := Except.bind_eq_ok_iff.mp worked
        obtain ⟨node, -, shown⟩ := Except.bind_eq_ok_iff.mp later
        cases shown
        exact ⟨node, rfl⟩
      | false =>
        obtain ⟨before, -, later⟩ := Except.bind_eq_ok_iff.mp worked
        obtain ⟨value, -, later⟩ := Except.bind_eq_ok_iff.mp later
        obtain ⟨node, -, shown⟩ := Except.bind_eq_ok_iff.mp later
        cases shown
        exact ⟨node, rfl⟩
    obtain ⟨node, rfl⟩ := node
    simp [indents, Node.indentedText?_eq_none_iff]
  | parse =>
    obtain ⟨path, -, shown⟩ := Except.bind_eq_ok_iff.mp worked
    cases shown
    simp [Json.indentedText?_eq_none_iff, indents]
  | name =>
    obtain ⟨segments, -, later⟩ := Except.bind_eq_ok_iff.mp worked
    obtain ⟨name, -, shown⟩ := Except.bind_eq_ok_iff.mp later
    cases shown
    simp [indents]

theorem orderly_answer (command : Command) (indent : Nat) (input : String) :
    Orderly (command.answer indent input) := by
  cases command with
  | flatten => exact (orderly_document input).bind fun root => orderly_ok _
  | unflatten =>
    exact (orderly_flatMap input).bind fun flat => (orderly_orRejected _).bind fun root => orderly_ok _
  | get path source fallback =>
    have other : Orderly (fallback.mapM document) := by
      cases fallback with
      | none => exact orderly_ok none
      | some text => exact (orderly_document text).bind fun node => orderly_ok _
    exact (orderly_document input).bind fun root => other.bind fun given =>
      (orderly_orRejected _).bind fun read => (orderly_found _ _ _).bind fun node => orderly_ok _
  | set path argument source new =>
    cases new with
    | true =>
      exact (orderly_givenValue argument).bind fun value => (orderly_orRejected _).bind fun root => orderly_ok _
    | false =>
      exact (orderly_document input).bind fun before => (orderly_givenValue argument).bind fun value =>
        (orderly_orRejected _).bind fun root => orderly_ok _
  | parse => exact (orderly_orRejected _).bind fun path => orderly_ok _
  | name text =>
    exact (orderly_givenSegments text).bind fun segments => (orderly_orRejected _).bind fun name => orderly_ok _

end Command

section
variable {m : Type → Type} [Monad m] {Handle : Type} (console : Console m Handle)

def Command.work (indent : Nat) (command : Command) : ExceptT Failure m (Option String) :=
  match command.source? with
  | some source => do command.answer indent (← console.fetch source)
  | none => command.answer indent ""

def Command.tell (target : Option String) (command : Command) : ExceptT Failure m Unit :=
  match command.report?, command.source? with
  | some verb, some source => console.report verb source target
  | _, _ => return

/-- Every request works out its answer, writes it, and only then tells about it. -/
theorem Request.perform_eq [LawfulMonad m] (request : Request) :
    request.perform console =
      request.command.work console request.indent >>= fun answer =>
        console.emit request.target? answer >>= fun _ => request.command.tell console request.target? := by
  obtain ⟨command, output, indent⟩ := request
  unfold perform Command.work Command.tell
  cases command with
  | flatten | unflatten | get | parse | name =>
    simp only [Command.source?, Command.report?, Command.answer, liftM_bind, liftM_pure, bind_assoc,
      pure_bind, bind_pure_unit]
  | set path argument input new =>
    cases new <;>
      simp only [Command.source?, Command.report?, Command.answer, liftM_bind, liftM_pure, bind_assoc,
        pure_bind, bind_pure_unit]

end
end DocPath.Cli
