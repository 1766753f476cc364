import Expander.Traffic

/-!
The causes for which a command fails, their exit codes and their wording.
-/

set_option autoImplicit false

namespace Expander

/-- Why a command fails. -/
inductive Failure where
  | usage
  | unknownMedia (name : String)
  | system (error : SimError)
  /-- A request is refused, and nothing is left that could lead to a retry. -/
  | blocked
  /-- Transactions are in flight, and nothing is left that could complete them. -/
  | lost (inFlight : Nat)
  /-- The bound on the work of a run was reached. -/
  | exhausted
deriving DecidableEq, Repr

namespace Failure

/-- A process that stops for want of room ends with a code of its own. -/
def exitCode : Failure → Nat
  | usage | unknownMedia _ => 2
  | system (.capacity _) => 101
  | system _ | blocked | lost _ | exhausted => 1

def message : Failure → String
  | usage => "invalid arguments (see `cxlsim --help`)"
  | unknownMedia name => "unknown media profile `" ++ name ++ "` (see `cxlsim profiles`)"
  | system error => error.message
  | blocked => "request refused with nothing left in flight"
  | lost inFlight => toString inFlight ++ " transactions lost in flight"
  | exhausted => "simulation did not settle"

def ofDrive : DriveError → Failure
  | .system error => system error
  | .blocked => blocked
  | .lost inFlight => lost inFlight
  | .exhausted => exhausted

def line (f : Failure) : String := "error: " ++ f.message ++ "\n"

end Failure

end Expander
