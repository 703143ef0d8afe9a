/-! What a program does to the world around it: it reads standard input and files, creates files, and
writes to them and to standard output. A program is written for any console, so the one that runs on a
real console is also the one that runs in a world of its own. -/

namespace DocPath.Cli

inductive FileFault where
  | missing
  | isDirectory
  | notDirectory
deriving DecidableEq

def FileFault.message : FileFault → String
  | .missing => "No such file or directory (os error 2)"
  | .isDirectory => "Is a directory (os error 21)"
  | .notDirectory => "Not a directory (os error 20)"

/-- The actions that are open to a program. A file that it has created is written by its handle. -/
structure Console (m : Type → Type) (Handle : Type) where
  workingDirectory : m String
  standardInput : m String
  readFile : String → m (Except FileFault String)
  /-- Opens a file for writing: it is made if it is not there, and loses its text if it is. -/
  createFile : String → m (Except FileFault Handle)
  write : Handle → String → m Unit
  print : String → m Unit

end DocPath.Cli
