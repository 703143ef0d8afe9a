import DocPath.Cli.Arguments
import DocPath.Cli.Help
import DocPath.Cli.Run
import DocPath.Cli.World

/-! The command line: arguments are read into a request, and the request is carried out. -/

namespace DocPath.Cli

def version : String := "propath 0.1.0"

/-- Carries out a command line. The failure that ends the run, if one does, is the result. -/
def execute {m : Type → Type} [Monad m] {Handle : Type} (console : Console m Handle)
    (arguments : List String) : m (Option Failure) :=
  match readArguments arguments with
  | .ok request => do
      match ← (request.perform console).run with
      | .ok () => return none
      | .error failure => return some failure
  | .error .usage => return some .usage
  | .error (.help topic) => do
      console.print topic.text
      return none
  | .error .version => do
      console.print (version ++ "\n")
      return none

def exitCode (failure : Option Failure) : Nat := failure.elim 0 Failure.code

def errorText (complaint : String) : Option Failure → String
  | none => ""
  | some failure =>
      (if failure.code = 1 then "ERROR  " else "") ++ failure.message complaint ++ "\n"

/-- What a run can see of the world around it. -/
structure Surroundings where
  workingDirectory : String
  standardInput : String
  read : String → Except FileFault String
  /-- What keeps a file from being written, if anything does. -/
  obstacle? : String → Option FileFault

namespace Surroundings

def fileSystem (around : Surroundings) : FileSystem String where
  workingDirectory := around.workingDirectory
  toRead files path :=
    if (files path).isSome then .ok path else (around.read path).map fun _ => path
  toCreate _ path :=
    match around.obstacle? path with
    | some fault => .error fault
    | none => .ok path

def world (around : Surroundings) : World String :=
  .start (fun path => (around.read path).toOption) around.standardInput

end Surroundings

/-- What a run does: its exit code, what it prints, why it failed if it did, and the file that it
writes if any, with its text. -/
structure Outcome where
  code : Nat
  stdout : String
  failure : Option Failure
  written : Option (String × String)
deriving DecidableEq

def Outcome.stderr (complaint : String) (outcome : Outcome) : String :=
  errorText complaint outcome.failure

def run (arguments : List String) (around : Surroundings) : Outcome :=
  let (failure, after) := (execute around.fileSystem.console arguments).run around.world
  { code := exitCode failure
    stdout := after.printed
    failure
    written := after.created.head?.bind fun path => (after.files path).map (path, ·) }

end DocPath.Cli
