import Expander.CommandLine.HelpPage
import Expander.CommandLine.Invocation
import Expander.CommandLine.Listing
import Expander.CommandLine.RunReport

/-!
The program: what its commands print.

`Invocation.parse` reads the arguments and `Invocation.execute` runs the command they ask for.
Reading the configuration file is left to the caller, who passes its text or the reason for which
it cannot be read.
-/

set_option autoImplicit false

namespace Expander

/-- The configuration of a choice, whose file holds `text`. -/
def SystemChoice.load (choice : SystemChoice) (text : Except ReadFault String) :
    Except Failure Config := do
  let base ← match choice.file, text with
    | none, _ => .ok {}
    | some _, .ok text => (Config.parse text).mapError fun e => .system (.config e)
    | some path, .error fault => .error (.system (.config (.unreadable path fault)))
  let profile ← match choice.media with
    | none => .ok base.media.profile
    | some name =>
      match MediaProfile.ofName? name with
      | some profile => .ok profile
      | none => .error (.unknownMedia name)
  .ok { base with
    topology := choice.topology.getD base.topology
    device := { base.device with profile := choice.device.getD base.device.profile }
    media := { base.media with profile } }

/-- Lines of text as one text. -/
def unlines (lines : List String) : String := String.join (lines.map (· ++ "\n"))

/-- What a command prints; `text` is the contents of the configuration file. -/
def Invocation.execute (i : Invocation) (m : Machine) (text : Except ReadFault String) :
    Except Failure String :=
  match i with
  | .run choice options => do
    let config ← choice.load text
    let report ← options.measure m config
    .ok (if options.json then report.toJson.pretty ++ "\n" else unlines report.lines)
  | .memmap choice => do
    let config ← choice.load text
    let s ← (Simulation.create m config).mapError Failure.system
    .ok (unlines s.mapLines)
  | .profiles => .ok (unlines profileLines)
  | .help none full => .ok (unlines (HelpPage.ofProgram full))
  | .help (some c) full => .ok (unlines (HelpPage.ofCommand c full))
  | .version => .ok (unlines [programName ++ " " ++ programVersion])

end Expander
