import DocPath.Cli.Arguments

/-! An output file in front of what is given on one side of the command word. Switches are taken as they
are without it, and only a second output file is refused. The value in front is examined late, when
reading goes on behind it, so there are two ways in which the sides correspond. -/

namespace DocPath.Cli

namespace Side

/-- A switch was given on this side, and its value was taken. -/
def has (side : Side) (switch : Switch) : Bool := (side.given.lookup switch).isSome

def withOutput (file : String) (side : Side) : Side :=
  { side with given := side.given ++ [(.output, file)] }

def redirect? (file : String) (side : Side) : Option Side :=
  if side.has .output then none else some (side.withOutput file)

inductive Redirected (file : String) : Side → Side → Prop where
  | waiting : Redirected file .empty ⟨[], some (.output, some file)⟩
  | settled {side : Side} (free : side.has .output = false) : Redirected file side (side.withOutput file)

variable {file : String} {side next : Side} {switch other : Switch}

theorem has_given (value : String) :
    Side.has ⟨(switch, value) :: side.given, none⟩ other = (other == switch || side.has other) := by
  unfold has
  rw [List.lookup_cons]
  cases other == switch <;> rfl

theorem has_withOutput : (side.withOutput file).has other = (side.has other || other == .output) := by
  unfold has withOutput
  rw [List.lookup_append, Option.isSome_or, List.lookup_cons]
  cases other == .output <;> rfl

theorem has_of_add? {value : String} (added : side.add? switch value = some next)
    (present : side.has other = true) : next.has other = true := by
  unfold add? at added
  split at added
  next => cases added
  split at added
  next => cases added
  next =>
    cases added
    rw [has_given, present, Bool.or_true]

theorem add?_withOutput (free : side.has .output = false) (value : String) :
    (side.withOutput file).add? switch value = (side.add? switch value).bind (redirect? file) := by
  unfold add?
  show (if (side.withOutput file).has switch then _ else _) = Option.bind (if side.has switch then _ else _) _
  rw [has_withOutput]
  by_cases another : switch = .output
  · subst another
    rw [free]
    rfl
  · have same : (switch == Switch.output) = false := beq_false_of_ne another
    have differ : (Switch.output == switch) = false := beq_false_of_ne (Ne.symm another)
    rw [same, Bool.or_false]
    split
    next => rfl
    split
    next => rfl
    next =>
      rw [Option.bind_some, redirect?, has_given, differ, free]
      rfl

theorem has_of_settle? (settled : side.settle? = some next) (present : side.has other = true) :
    next.has other = true := by
  unfold settle? at settled
  split at settled
  next =>
    cases settled
    exact present
  next switch value pending =>
    obtain ⟨text, -, added⟩ := Option.bind_eq_some_iff.mp settled
    exact has_of_add? added present

theorem settle?_withOutput (free : side.has .output = false) :
    (side.withOutput file).settle? = side.settle?.bind (redirect? file) := by
  have untouched : (side.withOutput file).pending = side.pending := rfl
  unfold settle?
  rw [untouched]
  cases side.pending with
  | none => simp [redirect?, free]
  | some waiting =>
    obtain ⟨switch, value⟩ := waiting
    cases value with
    | none => rfl
    | some value => exact add?_withOutput free value

theorem Redirected.settle? {redirected : Side} (sides : Redirected file side redirected) :
    redirected.settle? = side.settle?.bind (redirect? file) := by
  cases sides with
  | waiting => rfl
  | settled free => exact settle?_withOutput free

theorem has_of_accept? {attached : Option String} (taken : side.accept? switch attached = some next)
    (present : side.has other = true) : next.has other = true := by
  unfold accept? at taken
  split at taken
  next => exact has_of_add? taken present
  next =>
    cases taken
    exact present
  next => exact has_of_add? taken present
  next => cases taken

theorem accept?_withOutput (free : side.has .output = false) (attached : Option String) :
    (side.withOutput file).accept? switch attached =
      (side.accept? switch attached).bind (redirect? file) := by
  unfold accept?
  split
  next => exact add?_withOutput free _
  next =>
    have still : Side.has { side with pending := some (switch, none) } .output = false := free
    rw [Option.bind_some, redirect?, still]
    rfl
  next => exact add?_withOutput free _
  next => rfl

theorem has_of_take? {attached : Option String} (taken : side.take? switch attached = some next)
    (present : side.has other = true) : next.has other = true := by
  obtain ⟨settled, found, accepted⟩ := Option.bind_eq_some_iff.mp taken
  exact has_of_accept? accepted (has_of_settle? found present)

theorem take?_withOutput (free : side.has .output = false) (attached : Option String) :
    (side.withOutput file).take? switch attached = (side.take? switch attached).bind (redirect? file) := by
  show (side.withOutput file).settle?.bind _ = (side.settle?.bind _).bind _
  rw [settle?_withOutput free]
  cases side.settle? with
  | none => rfl
  | some settled =>
    simp only [Option.bind_some]
    cases named : settled.has .output with
    | false =>
      rw [redirect?, named]
      exact accept?_withOutput named attached
    | true =>
      have refused : ∀ next, settled.accept? switch attached = some next → redirect? file next = none := by
        intro next accepted
        rw [redirect?, has_of_accept? accepted named]
        rfl
      rw [redirect?, named]
      exact (Option.bind_eq_none_iff.mpr refused).symm

theorem Redirected.take? {redirected : Side} (sides : Redirected file side redirected) (switch : Switch)
    (attached : Option String) :
    redirected.take? switch attached = (side.take? switch attached).bind (redirect? file) := by
  cases sides with
  | waiting => exact (take?_withOutput rfl attached : (Side.empty.withOutput file).take? switch attached = _)
  | settled free => exact take?_withOutput free attached

theorem Redirected.waiting? {redirected : Side} (sides : Redirected file side redirected) :
    redirected.waiting? = side.waiting? := by
  cases sides <;> rfl

theorem Redirected.of_waiting {redirected : Side} (sides : Redirected file side redirected)
    (waits : side.waiting? = some switch) :
    side.has .output = false ∧ redirected = side.withOutput file := by
  cases sides with
  | waiting => cases waits
  | settled free => exact ⟨free, rfl⟩

end Side

end DocPath.Cli
