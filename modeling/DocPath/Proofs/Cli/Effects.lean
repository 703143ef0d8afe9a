import DocPath.Proofs.Cli.Answer
import DocPath.Proofs.Cli.Redirection

/-! What a command line leaves behind. A run that fails prints nothing and leaves every file as it was,
unless its answer cannot be laid out with the indentation that was asked for: its output file is open by
then, and stays empty. A run that succeeds has written one file at most, and which one is for the output
option alone to say. -/

namespace DocPath.Cli
variable {Place : Type}

theorem World.print_empty (world : World Place) : world.print "" = world := by
  unfold print
  rw [String.append_empty]

def happen {α : Type} (action : ExceptT Failure (StateM (World Place)) α) (world : World Place) :
    Except Failure α × World Place := action.run.run world

theorem happen_bind {α β : Type} (action : ExceptT Failure (StateM (World Place)) α)
    (next : α → ExceptT Failure (StateM (World Place)) β) (world : World Place) :
    happen (action >>= next) world =
      match happen action world with
      | (.ok value, after) => happen (next value) after
      | (.error failure, after) => (.error failure, after) := by
  unfold happen
  show (ExceptT.run (action >>= next)).run world = _
  rw [ExceptT.run_bind, StateT.run_bind]
  show StateT.run _ _ = _
  rcases action.run.run world with ⟨_ | _, _⟩ <;> rfl

theorem happen_action {α : Type} (action : StateM (World Place) α) (world : World Place) :
    happen (liftM action) world = (.ok (action.run world).1, (action.run world).2) := rfl

variable [DecidableEq Place] (system : FileSystem Place) (world : World Place)

theorem happen_fetch (source : Source) :
    ∃ result rest, Orderly result ∧
      happen (system.console.fetch source) world = (result, { world with input := rest }) := by
  cases source with
  | standardInput => exact ⟨.ok world.input, "", orderly_ok world.input, rfl⟩
  | file path =>
    refine ⟨orUnusable (system.read world.files path), world.input, orderly_orUnusable _, ?_⟩
    unfold Console.fetch
    rw [happen_bind]
    rfl

/-- The answer of a request cannot be laid out: it is to be indented, and too widely. -/
def Request.TooWide (request : Request) : Prop :=
  request.command.indents = true ∧ Json.widestIndentation < request.indent

theorem happen_work (request : Request) :
    ∃ result rest, Orderly result ∧ (∀ answer, result = .ok answer → (answer = none ↔ request.TooWide)) ∧
      happen (request.command.work system.console request.indent) world =
        (result, { world with input := rest }) := by
  unfold Command.work
  cases request.command.source? with
  | none =>
    exact ⟨request.command.answer request.indent "", world.input, request.command.orderly_answer _ _,
      fun answer => Command.answer_eq_none_iff, rfl⟩
  | some source =>
    obtain ⟨result, rest, orderly, fetched⟩ := happen_fetch system world source
    simp only [happen_bind, fetched]
    cases result with
    | error failure =>
      have code : failure.code = 1 := orderly failure rfl
      refine ⟨.error failure, rest, orderly_error code, fun answer worked => ?_, rfl⟩
      cases worked
    | ok input =>
      exact ⟨request.command.answer request.indent input, rest, request.command.orderly_answer _ _,
        fun answer => Command.answer_eq_none_iff, rfl⟩

theorem happen_emit_none (answer : Option String) :
    happen (system.console.emit none answer) world =
      answer.elim (.error .tooWide, world) fun text => (.ok (), world.print text) := by
  cases answer <;> rfl

theorem happen_emit_refused {file : String} {fault : FileFault}
    (refused : system.toCreate world.files file = .error fault) (answer : Option String) :
    happen (system.console.emit (some file) answer) world = (.error (.unusable fault), world) := by
  have opened : (system.console.createFile file).run world = (.error fault, world) :=
    system.create_eq_error refused
  unfold Console.emit
  rw [happen_bind, happen_action, opened]
  rfl

theorem happen_emit_opened {file : String} {place : Place}
    (leads : system.toCreate world.files file = .ok place) (answer : Option String) :
    happen (system.console.emit (some file) answer) world =
      answer.elim (.error .tooWide, world.create place) fun text =>
        (.ok (), (world.create place).append place text) := by
  have opened : (system.console.createFile file).run world = (.ok place, world.create place) :=
    system.create_eq_ok leads
  unfold Console.emit
  rw [happen_bind, happen_action, opened]
  cases answer <;> rfl

/-- The line about what a request has written to a file, if it has one. -/
def Request.status (request : Request) (directory file : String) : String :=
  match request.command.report?, request.command.source? with
  | some verb, some source => statusLine verb source directory file
  | _, _ => ""

theorem happen_tell_file (request : Request) (file : String) :
    happen (request.command.tell system.console (some file)) world =
      (.ok (), world.print (request.status system.workingDirectory file)) := by
  have silent : happen (return : ExceptT Failure (StateM (World Place)) Unit) world =
      (.ok (), world.print "") := by
    rw [World.print_empty]
    rfl
  unfold Command.tell Request.status
  cases request.command.report? with
  | none => exact silent
  | some verb =>
    cases request.command.source? with
    | none => exact silent
    | some source => rfl

theorem happen_tell_none (command : Command) :
    happen (command.tell system.console none) world = (.ok (), world) := by
  unfold Command.tell
  cases command.report? with
  | none => rfl
  | some verb => cases command.source? <;> rfl

variable {system world} {request : Request} {after : World Place}

theorem happen_perform_failed {failure : Failure}
    (worked : happen (request.command.work system.console request.indent) world = (.error failure, after)) :
    happen (request.perform system.console) world = (.error failure, after) := by
  rw [Request.perform_eq, happen_bind, worked]

section
variable {answer : Option String} {file : String}
  (worked : happen (request.command.work system.console request.indent) world = (.ok answer, after))
include worked

theorem happen_perform_none (target : request.target? = none) :
    happen (request.perform system.console) world =
      answer.elim (.error .tooWide, after) fun text => (.ok (), after.print text) := by
  rw [Request.perform_eq, happen_bind, worked, target]
  cases answer <;> simp only [happen_bind, happen_emit_none, happen_tell_none, Option.elim]

theorem happen_perform_refused (target : request.target? = some file) {fault : FileFault}
    (refused : system.toCreate after.files file = .error fault) :
    happen (request.perform system.console) world = (.error (.unusable fault), after) := by
  rw [Request.perform_eq, happen_bind, worked, target]
  simp only [happen_bind, happen_emit_refused system after refused]

theorem happen_perform_opened (target : request.target? = some file) {place : Place}
    (leads : system.toCreate after.files file = .ok place) :
    happen (request.perform system.console) world =
      answer.elim (.error .tooWide, after.create place) fun text =>
        (.ok (), ((after.create place).append place text).print
          (request.status system.workingDirectory file)) := by
  rw [Request.perform_eq, happen_bind, worked, target]
  cases answer <;>
    simp only [happen_bind, happen_emit_opened system after leads, happen_tell_file, Option.elim]

end

def FileSystem.execute (system : FileSystem Place) (arguments : List String) (world : World Place) :
    Nat × World Place :=
  let (failure, after) := (Cli.execute system.console arguments).run world
  (exitCode failure, after)

theorem execute_of_request {arguments : List String} (read : readArguments arguments = .ok request) :
    system.execute arguments world =
      match happen (request.perform system.console) world with
      | (.ok (), after) => (0, after)
      | (.error failure, after) => (failure.code, after) := by
  have run : (Cli.execute system.console arguments).run world =
      match happen (request.perform system.console) world with
      | (.ok (), after) => (none, after)
      | (.error failure, after) => (some failure, after) := by
    unfold Cli.execute happen
    rw [read]
    show StateT.run ((request.perform system.console).run >>= _) world = _
    rw [StateT.run_bind]
    show StateT.run _ _ = _
    rcases (request.perform system.console).run.run world with ⟨_ | _, after⟩ <;> rfl
  unfold FileSystem.execute
  rw [run]
  rcases happen (request.perform system.console) world with ⟨_ | _, after⟩ <;> rfl

theorem execute_of_usage {arguments : List String} (refused : readArguments arguments = .error .usage) :
    system.execute arguments world = (2, world) := by
  unfold FileSystem.execute Cli.execute
  rw [refused]
  rfl

variable (system world) in
theorem execute_of_halt {arguments : List String} {halt : Halt} (halted : readArguments arguments = .error halt) :
    system.execute arguments world = (2, world) ∨
      ∃ text, system.execute arguments world = (0, world.print text) := by
  unfold FileSystem.execute Cli.execute
  rw [halted]
  cases halt with
  | usage => exact Or.inl rfl
  | help topic => exact Or.inr ⟨topic.text, rfl⟩
  | version => exact Or.inr ⟨version ++ "\n", rfl⟩

/-- No file was created or changed. -/
def World.Untouched (before after : World Place) : Prop :=
  after.files = before.files ∧ after.created = before.created

/-- A file was opened and has a text now, and no other was created or changed. -/
def World.Rewritten (place : Place) (text : String) (before after : World Place) : Prop :=
  after.files place = some text ∧ after.created = place :: before.created ∧
    ∀ other, other ≠ place → after.files other = before.files other

theorem World.rewritten_create (world : World Place) (place : Place) :
    world.Rewritten place "" (world.create place) :=
  ⟨if_pos rfl, rfl, fun _ differ => if_neg differ⟩

theorem World.rewritten_append (world : World Place) (place : Place) (text : String) :
    world.Rewritten place text ((world.create place).append place text) := by
  refine ⟨?_, rfl, fun other differ => (if_neg differ).trans (if_neg differ)⟩
  have empty : (world.create place).files place = some "" := if_pos rfl
  unfold append put
  rw [empty, Option.getD_some, String.empty_append]
  exact if_pos rfl

/-- How a command line with a request ends: its exit code, and what it leaves of a world. -/
inductive Ends (system : FileSystem Place) (request : Request) (world : World Place) :
    Nat × World Place → Prop where
  /-- Something failed before anything was written. -/
  | stopped (rest : String) : Ends system request world (1, { world with input := rest })
  | printed (rest text : String) (target : request.target? = none) (fits : ¬ request.TooWide) :
      Ends system request world (0, { world with input := rest }.print text)
  | unprinted (rest : String) (target : request.target? = none) (wide : request.TooWide) :
      Ends system request world (Failure.tooWide.code, { world with input := rest })
  | written (rest text : String) {file : String} {place : Place} (target : request.target? = some file)
      (leads : system.toCreate world.files file = .ok place) (fits : ¬ request.TooWide) :
      Ends system request world
        (0, (({ world with input := rest }.create place).append place text).print
          (request.status system.workingDirectory file))
  | emptied (rest : String) {file : String} {place : Place} (target : request.target? = some file)
      (leads : system.toCreate world.files file = .ok place) (wide : request.TooWide) :
      Ends system request world (Failure.tooWide.code, { world with input := rest }.create place)

variable (system world) in
theorem ends_execute {arguments : List String} (read : readArguments arguments = .ok request) :
    Ends system request world (system.execute arguments world) := by
  obtain ⟨result, rest, orderly, missing, worked⟩ := happen_work system world request
  rw [execute_of_request read]
  cases result with
  | error failure =>
    rw [happen_perform_failed worked]
    show Ends system request world (failure.code, _)
    rw [orderly failure rfl]
    exact .stopped rest
  | ok answer =>
    have missing := missing answer rfl
    cases target : request.target? with
    | none =>
      rw [happen_perform_none worked target]
      cases answer with
      | none => exact .unprinted rest target (missing.mp rfl)
      | some text => exact .printed rest text target fun wide => nomatch missing.mpr wide
    | some file =>
      cases leads : system.toCreate world.files file with
      | error fault =>
        rw [happen_perform_refused worked target leads]
        exact .stopped rest
      | ok place =>
        rw [happen_perform_opened worked target leads]
        cases answer with
        | none => exact .emptied rest target leads (missing.mp rfl)
        | some text => exact .written rest text target leads fun wide => nomatch missing.mpr wide

theorem target?_eq_none_iff :
    request.target? = none ↔ request.output = none ∨ request.output = some "-" := by
  unfold Request.target?
  cases request.output with
  | none => simp
  | some file => simp [Option.filter]

theorem target?_eq_some_iff {file : String} :
    request.target? = some file ↔ request.output = some file ∧ file ≠ "-" := by
  simp [Request.target?, Option.filter_eq_some_iff]

/-- How a command line without an output file ends, beside the same one behind a file that can be opened.
`line` is what there is to say about the file. -/
inductive EndsBeside (line : String) (place : Place) (world : World Place) :
    Nat × World Place → Nat × World Place → Prop where
  | stopped (rest : String) {code : Nat} (failed : code ≠ 0) (orderly : code ≠ Failure.tooWide.code) :
      EndsBeside line place world (code, { world with input := rest }) (code, { world with input := rest })
  | emptied (rest : String) :
      EndsBeside line place world (Failure.tooWide.code, { world with input := rest })
        (Failure.tooWide.code, { world with input := rest }.create place)
  | written (rest text : String) :
      EndsBeside line place world (0, { world with input := rest }.print text)
        (0, (({ world with input := rest }.create place).append place text).print line)

variable (system world) in
theorem endsBeside_execute {arguments : List String} {file : String} {place : Place}
    (named : file.toList.head? ≠ some '-') (leads : system.toCreate world.files file = .ok place)
    (read : readArguments arguments = .ok request) (without : request.output = none) :
    EndsBeside (request.status system.workingDirectory file) place world (system.execute arguments world)
      (system.execute ("-o" :: file :: arguments) world) := by
  have notDash : file ≠ "-" := fun dash => named (dash ▸ rfl)
  have readToo := (readArguments_redirected named arguments).2 request read without
  obtain ⟨result, rest, orderly, -, worked⟩ := happen_work system world request
  have toOutput : request.target? = none := target?_eq_none_iff.mpr (Or.inl without)
  rw [execute_of_request read, execute_of_request readToo]
  generalize redirected : ({ request with output := some file } : Request) = other
  have toFile : other.target? = some file := redirected ▸ target?_eq_some_iff.mpr ⟨rfl, notDash⟩
  have workedToo : happen (other.command.work system.console other.indent) world =
      (result, { world with input := rest }) := redirected ▸ worked
  have line : request.status system.workingDirectory file = other.status system.workingDirectory file :=
    redirected ▸ rfl
  cases result with
  | error failure =>
    rw [happen_perform_failed worked, happen_perform_failed workedToo]
    show EndsBeside _ place world (failure.code, _) (failure.code, _)
    rw [orderly failure rfl]
    exact .stopped rest (by decide) (by decide)
  | ok answer =>
    rw [happen_perform_none worked toOutput, happen_perform_opened workedToo toFile leads, line]
    cases answer with
    | none => exact .emptied rest
    | some text => exact .written rest text

theorem EndsBeside.outcome {line input : String} {place : Place} {files : Place → Option String}
    {plain redirected : Nat × World Place}
    (beside : EndsBeside line place (World.start files input) plain redirected) :
    redirected.1 = plain.1 ∧
    (plain.1 = 0 → (World.start files input).Rewritten place plain.2.printed redirected.2 ∧
      redirected.2.printed = line) ∧
    (plain.1 = Failure.tooWide.code → (World.start files input).Rewritten place "" redirected.2) ∧
    (plain.1 ≠ 0 → plain.1 ≠ Failure.tooWide.code → (World.start files input).Untouched redirected.2) := by
  cases beside with
  | stopped rest failed orderly =>
    exact ⟨rfl, fun done => absurd done failed, fun broken => absurd broken orderly,
      fun _ _ => ⟨rfl, rfl⟩⟩
  | emptied rest =>
    exact ⟨rfl, nofun, fun _ => World.rewritten_create _ place, fun _ orderly => absurd rfl orderly⟩
  | written rest text =>
    have printed : "" ++ text = text := String.empty_append
    refine ⟨rfl, fun _ => ⟨?_, String.empty_append⟩, nofun, fun failed => absurd rfl failed⟩
    show (World.start files input).Rewritten place ("" ++ text) _
    rw [printed]
    exact World.rewritten_append _ place text

theorem execute_failed (system : FileSystem Place) (world : World Place) (arguments : List String)
    (failed : (system.execute arguments world).1 ≠ 0) :
    (system.execute arguments world).2.printed = world.printed ∧
      ((system.execute arguments world).1 ≠ Failure.tooWide.code →
        world.Untouched (system.execute arguments world).2) := by
  cases read : readArguments arguments with
  | error halt =>
    rcases execute_of_halt system world read with ended | ⟨text, ended⟩ <;> rw [ended] at failed ⊢
    · exact ⟨rfl, fun _ => ⟨rfl, rfl⟩⟩
    · exact absurd rfl failed
  | ok request =>
    have ends := ends_execute system world read
    generalize system.execute arguments world = ended at ends failed
    cases ends with
    | stopped rest => exact ⟨rfl, fun _ => ⟨rfl, rfl⟩⟩
    | printed rest text target fits => exact absurd rfl failed
    | unprinted rest target wide => exact ⟨rfl, fun _ => ⟨rfl, rfl⟩⟩
    | written rest text target leads fits => exact absurd rfl failed
    | emptied rest target leads wide => exact ⟨rfl, fun orderly => absurd rfl orderly⟩

theorem execute_brokenOff (system : FileSystem Place) (world : World Place) (arguments : List String)
    (broken : (system.execute arguments world).1 = Failure.tooWide.code) :
    ∃ request, readArguments arguments = .ok request ∧ request.TooWide := by
  cases read : readArguments arguments with
  | error halt =>
    rcases execute_of_halt system world read with ended | ⟨text, ended⟩ <;> rw [ended] at broken <;>
      cases broken
  | ok request =>
    have ends := ends_execute system world read
    generalize system.execute arguments world = ended at ends broken
    cases ends with
    | stopped | printed | written => cases broken
    | unprinted rest target wide => exact ⟨request, rfl, wide⟩
    | emptied rest target leads wide => exact ⟨request, rfl, wide⟩

theorem execute_answered (system : FileSystem Place) (world : World Place) {arguments : List String}
    (read : readArguments arguments = .ok request)
    (answered : (system.execute arguments world).1 = 0 ∨
      (system.execute arguments world).1 = Failure.tooWide.code) :
    ((system.execute arguments world).1 = 0 → ¬ request.TooWide) ∧
    (request.target? = none → world.Untouched (system.execute arguments world).2) ∧
    ∀ file, request.target? = some file → ∃ place text,
      system.toCreate world.files file = .ok place ∧
      world.Rewritten place text (system.execute arguments world).2 ∧
      ((system.execute arguments world).1 = Failure.tooWide.code → text = "") := by
  have ends := ends_execute system world read
  generalize system.execute arguments world = ended at ends answered
  cases ends with
  | stopped rest =>
    rcases answered with done | broken
    · cases done
    · cases broken
  | printed rest text target fits =>
    exact ⟨fun _ => fits, fun _ => ⟨rfl, rfl⟩, fun file other => nomatch target.symm.trans other⟩
  | unprinted rest target wide =>
    exact ⟨nofun, fun _ => ⟨rfl, rfl⟩, fun file other => nomatch target.symm.trans other⟩
  | written rest text target leads fits =>
    refine ⟨fun _ => fits, (fun nowhere => nomatch target.symm.trans nowhere), fun file other => ?_⟩
    cases target.symm.trans other
    exact ⟨_, text, leads, World.rewritten_append _ _ text, nofun⟩
  | emptied rest target leads wide =>
    refine ⟨nofun, (fun nowhere => nomatch target.symm.trans nowhere), fun file other => ?_⟩
    cases target.symm.trans other
    exact ⟨_, "", leads, World.rewritten_create _ _, fun _ => rfl⟩

end DocPath.Cli
