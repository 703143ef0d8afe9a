import DocPath.Cli.Console

/-! A world for a program that is held in memory. Files are told apart by their places; several paths
may lead to one place, and where a path leads may depend on the files that there are. -/

namespace DocPath.Cli

structure World (Place : Type) where
  files : Place → Option String
  /-- Where files were opened for writing, last first. -/
  created : List Place
  input : String
  printed : String

/-- Where paths lead a reader and a writer, seen from a directory. -/
structure FileSystem (Place : Type) where
  workingDirectory : String
  toRead : (Place → Option String) → String → Except FileFault Place
  toCreate : (Place → Option String) → String → Except FileFault Place

namespace World
variable {Place : Type}

def start (files : Place → Option String) (input : String) : World Place := ⟨files, [], input, ""⟩

section
variable [DecidableEq Place] (world : World Place)

def put (place : Place) (text : String) : World Place :=
  { world with files := fun other => if other = place then some text else world.files other }

def create (place : Place) : World Place :=
  { world.put place "" with created := place :: world.created }

def append (place : Place) (text : String) : World Place :=
  world.put place ((world.files place).getD "" ++ text)

end

def print (world : World Place) (text : String) : World Place :=
  { world with printed := world.printed ++ text }

end World

namespace FileSystem
variable {Place : Type} (system : FileSystem Place)

def read (files : Place → Option String) (path : String) : Except FileFault String :=
  match system.toRead files path with
  | .error fault => .error fault
  | .ok place => match files place with
    | some text => .ok text
    | none => .error .missing

variable [DecidableEq Place]

def create (path : String) (world : World Place) : Except FileFault Place × World Place :=
  match system.toCreate world.files path with
  | .error fault => (.error fault, world)
  | .ok place => (.ok place, world.create place)

theorem create_eq_error {path : String} {world : World Place} {fault : FileFault}
    (refused : system.toCreate world.files path = .error fault) :
    system.create path world = (.error fault, world) := by
  unfold create
  rw [refused]

theorem create_eq_ok {path : String} {world : World Place} {place : Place}
    (leads : system.toCreate world.files path = .ok place) :
    system.create path world = (.ok place, world.create place) := by
  unfold create
  rw [leads]

def console : Console (StateM (World Place)) Place where
  workingDirectory := pure system.workingDirectory
  standardInput := modifyGet fun world => (world.input, { world with input := "" })
  readFile path := modifyGet fun world => (system.read world.files path, world)
  createFile path := modifyGet (system.create path)
  write place text := modify fun world => world.append place text
  print text := modify fun world => world.print text

end FileSystem
end DocPath.Cli
