import Expander.CommandLine

/-!
The program: reads the arguments and the configuration file, and prints what the command gives.
-/

set_option autoImplicit false

namespace Expander

/-- The number of an error of the operating system. Files that cannot be opened have theirs with the
sign changed. -/
def errorNumber? : IO.Error → Option Nat
  | .noFileOrDirectory _ code _ | .permissionDenied _ code _ | .inappropriateType _ code _
  | .invalidArgument _ code _ | .noSuchThing _ code _ | .hardwareFault code _ =>
    some (if code.toBitVec.msb then (0 - code).toNat else code.toNat)
  | _ => none

/-- The reason for which a file cannot be read. Without a number it is the contents. -/
def readFault (e : IO.Error) : ReadFault :=
  match e, (errorNumber? e).bind ReadFault.ofNumber? with
  | _, some fault => fault
  | .userError _, none => .notText
  | e, none => .other (toString e)

/-- The text of a file, or the reason for which it cannot be read. -/
def readText (path : String) : IO (Except ReadFault String) := do
  try
    return .ok (← IO.FS.readFile path)
  catch e =>
    return .error (readFault e)

/-- Runs the command of an invocation, whose file is read first. -/
def runInvocation (i : Invocation) : IO (Except Failure String) := do
  let text ← match i.file? with
    | none => pure (.error .missing)
    | some path => readText path
  return i.execute .standard text

end Expander

/-- Runs the program and gives its exit code. -/
def main (args : List String) : IO UInt32 := do
  let result ← match Expander.Invocation.parse args with
    | .error failure => pure (.error failure)
    | .ok i => Expander.runInvocation i
  match result with
  | .ok text =>
    IO.print text
    return 0
  | .error failure =>
    IO.eprint failure.line
    return UInt32.ofNat failure.exitCode
