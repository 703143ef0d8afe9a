import DocPath.Proofs.Cli.Side

/-! An output file in front of a command line. Reading goes on as it would without it, until the command
line names an output file of its own in front of the command word, which is then one too many. So the
request is the same but for its output. -/

namespace DocPath.Cli

namespace Meaning

def Fits (verb : Option Verb) (waiting : Option Switch) : Meaning → Prop
  | .switchValue switch _ => waiting = some switch
  | .commandWord _ => verb = none
  | .operand _ => verb.isSome = true
  | _ => True

variable {verb : Option Verb} {waiting : Option Switch}

theorem fits_ofWord (literal : Bool) (word : String) : (ofWord verb literal word).Fits verb waiting := by
  cases verb with
  | some verb => rfl
  | none =>
    unfold ofWord
    cases literal with
    | true => trivial
    | false =>
      by_cases help : word = Topic.word
      · simp only [Bool.false_eq_true, ↓reduceIte, help]
        trivial
      · simp only [Bool.false_eq_true, ↓reduceIte, help]
        cases Verb.ofWord? word <;> trivial

theorem fits_ofLong (letters : List Char) : (ofLong verb letters).Fits verb waiting := by
  unfold ofLong
  dsimp only
  generalize Switch.ofName? verb _ = named
  cases named <;> trivial

theorem fits_ofShort (letter : Char) (rest : List Char) : (ofShort verb letter rest).Fits verb waiting := by
  unfold ofShort
  dsimp only
  cases Switch.ofLetter? verb letter <;> trivial

theorem fits_ofArgument (argument : String) : (ofArgument verb waiting argument).Fits verb waiting := by
  unfold ofArgument
  split
  · trivial
  · rfl
  · trivial
  · exact fits_ofLong _
  · exact fits_ofShort _ _
  · exact fits_ofWord false argument

end Meaning

namespace Reading

def hasOutput (reading : Reading) : Bool :=
  match reading.verb with
  | none => reading.inner.has .output
  | some _ => reading.outer.has .output

/-- The two readings of a command line with and without an output file in front. -/
inductive Redirected (file : String) : Reading → Reading → Prop where
  | before {plain : Reading} {side : Side} (first : plain.verb = none)
      (sides : Side.Redirected file plain.inner side) : Redirected file plain { plain with inner := side }
  | behind {plain : Reading} {side : Side} {verb : Verb} (second : plain.verb = some verb)
      (sides : Side.Redirected file plain.outer side) : Redirected file plain { plain with outer := side }

/-- What becomes of the reading with an output file in front, beside that without it. -/
inductive Follows (file : String) : Except Halt Reading → Except Halt Reading → Prop where
  | halted (halt : Halt) : Follows file (.error halt) (.error halt)
  | both {plain redirected : Reading} (related : Redirected file plain redirected) :
      Follows file (.ok plain) (.ok redirected)
  | repeated {result : Except Halt Reading} (named : ∀ next, result = .ok next → next.hasOutput = true) :
      Follows file result (.error .usage)

variable {file : String} {plain redirected next : Reading} {argument : String}

theorem fits_meaning (reading : Reading) (argument : String) :
    (reading.meaning argument).Fits reading.verb reading.inner.waiting? := by
  unfold meaning Meaning.below
  split
  next => split <;> trivial
  split
  next => exact Meaning.fits_ofWord true argument
  next => exact Meaning.fits_ofArgument argument

theorem Redirected.meaning (related : Redirected file plain redirected) :
    redirected.meaning argument = plain.meaning argument := by
  cases related with
  | before first sides =>
    unfold Reading.meaning
    rw [sides.waiting?]
  | behind second sides => rfl

theorem inner_of_takeSwitch {switch : Switch} {attached : Option String}
    (taken : plain.takeSwitch switch attached = .ok next) :
    ∃ inner, plain.inner.take? switch attached = some inner ∧ next = { plain with inner } := by
  unfold takeSwitch at taken
  split at taken
  next => cases taken
  next inner found =>
    split at taken
    next => cases taken
    split at taken
    next => cases taken
    next =>
      cases taken
      exact ⟨inner, found, rfl⟩

theorem follows_takeSwitch {side : Side} (first : plain.verb = none)
    (sides : Side.Redirected file plain.inner side) (switch : Switch) (attached : Option String) :
    Follows file (plain.takeSwitch switch attached)
      (Reading.takeSwitch { plain with inner := side } switch attached) := by
  have beside := sides.take? switch attached
  cases found : plain.inner.take? switch attached with
  | none =>
    unfold takeSwitch
    simp only [beside, found]
    exact .halted .usage
  | some inner =>
    rw [found, Option.bind_some] at beside
    cases named : inner.has .output with
    | true =>
      rw [Side.redirect?, named] at beside
      have refused : Reading.takeSwitch { plain with inner := side } switch attached = .error .usage := by
        unfold takeSwitch
        simp only [beside]
        rfl
      rw [refused]
      refine .repeated fun next taken => ?_
      obtain ⟨other, same, rfl⟩ := inner_of_takeSwitch taken
      cases found.symm.trans same
      unfold hasOutput
      rw [first]
      exact named
    | false =>
      rw [Side.redirect?, named] at beside
      unfold takeSwitch
      simp only [found, beside]
      split
      next => exact .halted _
      split
      next => exact .halted .version
      next => exact .both (.before first (.settled named))

theorem follows_take {side : Side} {meaning : Meaning} (first : plain.verb = none)
    (sides : Side.Redirected file plain.inner side) (fits : meaning.Fits none plain.inner.waiting?) :
    Follows file (plain.take meaning) (Reading.take { plain with inner := side } meaning) := by
  cases meaning with
  | nonsense => exact .halted .usage
  | question topic => exact .both (.before first sides)
  | endOfSwitches => exact .both (.before first sides)
  | switchValue switch text =>
    obtain ⟨free, rfl⟩ := sides.of_waiting fits
    exact .both (.before first (.settled free))
  | switchName switch attached => exact follows_takeSwitch first sides switch attached
  | commandWord verb => exact .both (.behind rfl sides)
  | operand word => cases fits

theorem take_behind {meaning : Meaning} {verb : Verb} (second : plain.verb = some verb)
    (fits : meaning.Fits (some verb) plain.inner.waiting?) :
    (∃ halt, ∀ side, Reading.take { plain with outer := side } meaning = .error halt) ∨
      ∃ next : Reading, next.verb = some verb ∧
        ∀ side, Reading.take { plain with outer := side } meaning = .ok { next with outer := side } := by
  cases meaning with
  | nonsense => exact Or.inl ⟨.usage, fun side => rfl⟩
  | question topic => exact Or.inr ⟨{ plain with asked := some topic }, second, fun side => rfl⟩
  | endOfSwitches => exact Or.inr ⟨{ plain with literal := true }, second, fun side => rfl⟩
  | switchValue switch text =>
    exact Or.inr ⟨{ plain with inner := { plain.inner with pending := some (switch, some text) } }, second,
      fun side => rfl⟩
  | switchName switch attached =>
    simp only [take, takeSwitch]
    cases plain.inner.take? switch attached with
    | none => exact Or.inl ⟨.usage, fun side => rfl⟩
    | some inner =>
      by_cases help : switch = .help
      · exact Or.inl ⟨.help plain.topic, fun side => if_pos help⟩
      by_cases version : switch = .version
      · exact Or.inl ⟨.version, fun side => (if_neg help).trans (if_pos version)⟩
      · exact Or.inr ⟨{ plain with inner }, second, fun side => (if_neg help).trans (if_neg version)⟩
  | commandWord verb => cases fits
  | operand word =>
    simp only [take, takeOperand]
    cases plain.inner.settle? with
    | none => exact Or.inl ⟨.usage, fun side => rfl⟩
    | some inner =>
      by_cases room : plain.reversed.length < plain.verb.elim 0 fun verb => verb.operands.length
      · exact Or.inr ⟨{ plain with inner, reversed := word :: plain.reversed }, second,
          fun side => if_pos room⟩
      · exact Or.inl ⟨.usage, fun side => if_neg room⟩

theorem Redirected.step (related : Redirected file plain redirected) (argument : String) :
    Follows file (plain.step argument) (redirected.step argument) := by
  unfold Reading.step
  rw [related.meaning]
  have fits := plain.fits_meaning argument
  cases related with
  | before first sides =>
    rw [first] at fits
    exact follows_take first sides fits
  | behind second sides =>
    rename_i side verb
    rw [second] at fits
    rcases take_behind second fits with ⟨halt, stopped⟩ | ⟨next, still, taken⟩
    · rw [stopped side, show plain.take _ = _ from stopped plain.outer]
      exact .halted halt
    · rw [taken side, show plain.take _ = _ from taken plain.outer]
      exact .both (.behind still sides)

theorem hasOutput_of_step (stepped : plain.step argument = .ok next) (named : plain.hasOutput = true) :
    next.hasOutput = true := by
  have fits := plain.fits_meaning argument
  unfold step at stepped
  generalize plain.meaning argument = meaning at fits stepped
  unfold hasOutput at named
  cases place : plain.verb with
  | some verb =>
    rw [place] at fits named
    rcases take_behind place fits with ⟨halt, stopped⟩ | ⟨after, still, taken⟩
    · cases (stopped plain.outer).symm.trans stepped
    · cases (taken plain.outer).symm.trans stepped
      unfold hasOutput
      simpa [still] using named
  | none =>
    rw [place] at fits named
    unfold hasOutput
    cases meaning with
    | nonsense => cases stepped
    | question topic | endOfSwitches | switchValue switch text =>
      cases stepped
      simp only [place]
      exact named
    | switchName switch attached =>
      obtain ⟨inner, taken, rfl⟩ := inner_of_takeSwitch stepped
      simpa [place] using Side.has_of_take? taken named
    | commandWord verb =>
      cases stepped
      exact named
    | operand word => cases fits

theorem hasOutput_of_run {arguments : List String} {last : Reading}
    (run : arguments.foldlM step plain = .ok last) (named : plain.hasOutput = true) :
    last.hasOutput = true := by
  induction arguments generalizing plain with
  | nil =>
    cases run
    exact named
  | cons argument rest ih =>
    rw [List.foldlM_cons] at run
    cases stepped : plain.step argument with
    | error halt =>
      rw [stepped] at run
      cases run
    | ok next =>
      rw [stepped] at run
      exact ih run (hasOutput_of_step stepped named)

theorem Redirected.run (related : Redirected file plain redirected) (arguments : List String) :
    Follows file (arguments.foldlM Reading.step plain) (arguments.foldlM Reading.step redirected) := by
  induction arguments generalizing plain redirected with
  | nil => exact .both related
  | cons argument rest ih =>
    rw [List.foldlM_cons, List.foldlM_cons]
    have first := related.step argument
    generalize plain.step argument = result at first
    generalize redirected.step argument = other at first
    cases first with
    | halted halt => exact .halted halt
    | both related => exact ih related
    | repeated named =>
      refine .repeated fun last run => ?_
      cases result with
      | error halt => cases run
      | ok next => exact hasOutput_of_run run (named next rfl)

theorem value?_withOutput {switch : Switch} (differ : switch ≠ .output) :
    value? { plain with outer := plain.outer.withOutput file } switch = plain.value? switch := by
  have other : (switch == Switch.output) = false := beq_false_of_ne differ
  unfold value?
  simp [Side.withOutput, List.lookup_append, List.lookup_cons, other]

theorem command?_withOutput :
    command? { plain with outer := plain.outer.withOutput file } = plain.command? := by
  unfold command? has
  simp only [value?_withOutput (show Switch.noCompact ≠ .output by decide),
    value?_withOutput (show Switch.fallback ≠ .output by decide),
    value?_withOutput (show Switch.new ≠ .output by decide),
    value?_withOutput (show Switch.lenient ≠ .output by decide)]

theorem settledRequest?_withOutput (free : plain.outer.has .output = false) :
    settledRequest? { plain with outer := plain.outer.withOutput file } =
      plain.settledRequest?.map fun request => { request with output := request.output.or (some file) } := by
  have nothing : plain.outer.given.lookup .output = none := by simpa [Side.has] using free
  have output : value? { plain with outer := plain.outer.withOutput file } .output =
      (plain.value? .output).or (some file) := by
    unfold value?
    cases plain.inner.given.lookup .output <;> simp [Side.withOutput, List.lookup_append, nothing]
  unfold settledRequest?
  rw [command?_withOutput, output, value?_withOutput (show Switch.indent ≠ .output by decide), Option.map_map]
  rfl

theorem output_of_has {request : Request} (named : plain.outer.has .output = true)
    (made : plain.settledRequest? = some request) : request.output ≠ none := by
  obtain ⟨command, -, rfl⟩ := Option.map_eq_some_iff.mp made
  obtain ⟨text, given⟩ := Option.isSome_iff_exists.mp named
  show (plain.inner.given.lookup .output).orElse (fun _ => plain.outer.given.lookup .output) ≠ none
  rw [given]
  cases plain.inner.given.lookup .output <;> simp

theorem request?_eq (reading : Reading) :
    reading.request? = reading.inner.settle?.bind fun inner => reading.outer.settle?.bind fun outer =>
      settledRequest? { reading with inner, outer } := by
  unfold request? settle?
  cases reading.inner.settle? with
  | none => rfl
  | some inner => cases reading.outer.settle? <;> rfl

theorem request?_of_no_verb (first : plain.verb = none) : plain.request? = none := by
  have without : ∀ reading : Reading, reading.verb = none → reading.settledRequest? = none := by
    intro reading none
    unfold settledRequest? command?
    rw [none]
    rfl
  rw [request?_eq, Option.bind_eq_none_iff]
  intro inner _
  rw [Option.bind_eq_none_iff]
  exact fun outer _ => without _ first

theorem Redirected.request? (related : Redirected file plain redirected) :
    (plain.request? = none → redirected.request? = none) ∧
      ∀ request, plain.request? = some request → request.output = none →
        redirected.request? = some { request with output := some file } := by
  cases related with
  | before first sides =>
    rw [request?_of_no_verb first, request?_of_no_verb (by exact first)]
    exact ⟨fun _ => rfl, fun request made => nomatch made⟩
  | behind second sides =>
    simp only [request?_eq, sides.settle?]
    cases plain.inner.settle? with
    | none => exact ⟨fun _ => rfl, fun request made => nomatch made⟩
    | some inner =>
      cases plain.outer.settle? with
      | none => exact ⟨fun _ => rfl, fun request made => nomatch made⟩
      | some outer =>
        simp only [Option.bind_some]
        cases named : outer.has .output with
        | true =>
          have repeated : ∀ request, settledRequest? { plain with inner, outer } = some request →
              request.output ≠ none := fun request => output_of_has named
          have refused : Side.redirect? file outer = none := if_pos named
          rw [refused]
          exact ⟨fun _ => rfl, fun request made output => absurd output (repeated request made)⟩
        | false =>
          have same : settledRequest? { plain with inner, outer := outer.withOutput file } =
              (settledRequest? { plain with inner, outer }).map fun request =>
                { request with output := request.output.or (some file) } :=
            @settledRequest?_withOutput file { plain with inner, outer } named
          have kept : Side.redirect? file outer = some (outer.withOutput file) := by
            rw [Side.redirect?, named]
            rfl
          rw [kept, Option.bind_some, same]
          constructor
          · intro refused
            rw [refused]
            rfl
          · intro request made output
            rw [made, Option.map_some, output]
            rfl

theorem Redirected.asked (related : Redirected file plain redirected) : redirected.asked = plain.asked := by
  cases related <;> rfl

theorem Redirected.finish (related : Redirected file plain redirected) :
    (plain.finish = .error .usage → redirected.finish = .error .usage) ∧
      ∀ request, plain.finish = .ok request → request.output = none →
        redirected.finish = .ok { request with output := some file } := by
  obtain ⟨refused, made⟩ := related.request?
  unfold Reading.finish
  rw [related.asked]
  cases plain.asked with
  | some topic => exact ⟨fun stopped => stopped, fun request done => nomatch done⟩
  | none =>
    cases answer : plain.request? with
    | none =>
      rw [refused answer]
      exact ⟨fun _ => rfl, fun request done => nomatch done⟩
    | some request =>
      constructor
      · exact fun stopped => nomatch stopped
      · intro other done output
        cases done
        rw [made request answer output]

theorem output_of_finish {request : Request} (named : plain.hasOutput = true)
    (done : plain.finish = .ok request) : request.output ≠ none := by
  have made : plain.request? = some request := by
    unfold Reading.finish at done
    split at done
    next => cases done
    next answer =>
      cases done
      exact answer
    next => cases done
  cases place : plain.verb with
  | none =>
    rw [request?_of_no_verb place] at made
    cases made
  | some verb =>
    have given : plain.outer.has .output = true := by simpa [hasOutput, place] using named
    rw [request?_eq] at made
    obtain ⟨inner, -, rest⟩ := Option.bind_eq_some_iff.mp made
    obtain ⟨outer, settled, answer⟩ := Option.bind_eq_some_iff.mp rest
    have still : outer.has .output = true := Side.has_of_settle? settled given
    exact @output_of_has { plain with inner, outer } request still answer

def beginWithOutput (file : String) : Reading := { begin with inner := ⟨[], some (.output, some file)⟩ }

theorem readArguments_output {file : String} (named : file.toList.head? ≠ some '-') (arguments : List String) :
    readArguments ("-o" :: file :: arguments) =
      arguments.foldlM step (beginWithOutput file) >>= Reading.finish := by
  have waits : begin.step "-o" = .ok { begin with inner := ⟨[], some (.output, none)⟩ } := rfl
  have meant : Meaning.ofArgument none (some .output) file = .switchValue .output file := by
    unfold Meaning.ofArgument
    split
    next letters _ => simp [letters] at named
    next switch waits _ =>
      cases waits
      rfl
    all_goals contradiction
  have value : step { begin with inner := ⟨[], some (.output, none)⟩ } file = .ok (beginWithOutput file) := by
    show Reading.take _ (Meaning.ofArgument none (some .output) file) = _
    rw [meant]
    rfl
  calc readArguments ("-o" :: file :: arguments)
      = (begin.step "-o" >>= fun next => (file :: arguments).foldlM step next) >>= Reading.finish := rfl
    _ = (step { begin with inner := ⟨[], some (.output, none)⟩ } file >>= fun next =>
          arguments.foldlM step next) >>= Reading.finish := by
      rw [waits]
      rfl
    _ = arguments.foldlM step (beginWithOutput file) >>= Reading.finish := by
      rw [value]
      rfl

end Reading

/-- An output file in front of a command line without one: the request is the same but for its output, and
a command line that cannot be read still cannot. -/
theorem readArguments_redirected {file : String} (named : file.toList.head? ≠ some '-')
    (arguments : List String) :
    (readArguments arguments = .error .usage → readArguments ("-o" :: file :: arguments) = .error .usage) ∧
      ∀ request, readArguments arguments = .ok request → request.output = none →
        readArguments ("-o" :: file :: arguments) = .ok { request with output := some file } := by
  have related : Reading.Redirected file .begin (.beginWithOutput file) := .before rfl .waiting
  have run := related.run arguments
  rw [Reading.readArguments_output named]
  unfold readArguments
  generalize arguments.foldlM Reading.step .begin = result at run ⊢
  generalize arguments.foldlM Reading.step (.beginWithOutput file) = other at run ⊢
  cases run with
  | halted halt => exact ⟨id, fun request made => nomatch made⟩
  | both related => exact related.finish
  | repeated named =>
    refine ⟨fun _ => rfl, fun request made output => ?_⟩
    cases result with
    | error halt => cases made
    | ok last => exact absurd output (Reading.output_of_finish (named last rfl) made)

end DocPath.Cli
