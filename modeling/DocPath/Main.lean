import DocPath.Cli

/-! The program on a real console. -/

namespace DocPath.Cli

def faultOfCode (code : UInt32) : FileFault :=
  if code = 20 ∨ code = -20 then .notDirectory
  else if code = 21 ∨ code = -21 then .isDirectory
  else .missing

def faultOf : IO.Error → FileFault
  | .inappropriateType _ code _ | .noFileOrDirectory _ code _ => faultOfCode code
  | _ => .missing

def attempt {α : Type} (action : IO α) : IO (Except FileFault α) := do
  try
    return .ok (← action)
  catch fault =>
    return .error (faultOf fault)

def readStandardInput : IO String := do
  let stream ← IO.getStdin
  let mut text := ""
  repeat
    let line ← stream.getLine
    if line.isEmpty then
      break
    text := text ++ line
  return text

def processConsole : Console IO IO.FS.Handle where
  workingDirectory := do return (← IO.currentDir).toString
  standardInput := readStandardInput
  readFile path := attempt (IO.FS.readFile path)
  createFile path := attempt (IO.FS.Handle.mk path .write)
  write handle text := handle.putStr text
  print text := IO.print text

end DocPath.Cli

open DocPath.Cli in
def main (arguments : List String) : IO UInt32 := do
  let failure ← execute processConsole arguments
  IO.eprint (errorText "invalid JSON" failure)
  return (exitCode failure).toUInt32
