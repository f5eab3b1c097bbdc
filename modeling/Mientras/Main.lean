import Mientras.Command.Run

/-!
# The commands as programs

The program is both commands.  Under the name of the token dump it dumps tokens, and under any
other name it compiles.
-/

namespace Mientras

/-- Why the operating system could not read or write a file.  Its code for a directory is 21,
which may come with a minus sign. -/
def Refusal.ofError (error : IO.Error) : Refusal :=
  match error with
  | .noFileOrDirectory .. => .missing
  | .inappropriateType _ code _ =>
    if code == 21 || 0 - code == 21 then .isDirectory else .notDirectory
  | error => .other (toString error)

/-- Does something with a file, and says why when it cannot be done. -/
def attempt {α : Type} (act : IO α) : IO (Except Refusal α) :=
  try
    return .ok (← act)
  catch error => return .error (Refusal.ofError error)

/-- The files of the operating system. -/
def systemHost : Host IO where
  read path := attempt (IO.FS.readBinFile path)
  write path content := attempt (IO.FS.writeBinFile path content)

end Mientras

open Mientras in
/-- Runs the command that the name of the program asks for. -/
def main (arguments : List String) : IO UInt32 := do
  let path ← IO.appPath
  let tool := if path.fileStem == some Tool.tokenDump.name then Tool.tokenDump else Tool.compiler
  let outcome ← tool.run systemHost arguments
  IO.print outcome.stdout
  IO.eprint outcome.stderr
  return outcome.code
