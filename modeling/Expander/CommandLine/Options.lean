import Expander.Config.Text
import Expander.Traffic

/-!
The options of the commands: their names, the values that they take, and what is said about them.

An `OptionForm` describes an option, and an `Argument` is an option that was given, with its value.
-/

set_option autoImplicit false

namespace Expander

/-- The choice of a configuration: a file, and replacements for some of its parameters. -/
structure SystemChoice where
  file : Option String := none
  topology : Option Topology := none
  media : Option String := none
  device : Option DeviceProfile := none
deriving DecidableEq, Repr

/-- The parameters of a traffic run. -/
structure RunOptions where
  traffic : Traffic := {}
  /-- The largest number of requests in flight. -/
  window : Nat := 64
  atomic : Bool := false
  json : Bool := false
deriving DecidableEq, Repr

/-- An option or a switch of a command, as it was given. -/
inductive Argument where
  | config (path : String)
  | topology (topology : Topology)
  | media (name : String)
  | device (profile : DeviceProfile)
  | pattern (pattern : Pattern)
  | count (n : Nat)
  | size (n : Nat)
  | stride (n : Nat)
  | window (n : Nat)
  | atomic
  | json
deriving DecidableEq, Repr

def Argument.sameOption (a b : Argument) : Bool := a.ctorIdx == b.ctorIdx

def SystemChoice.adjust (choice : SystemChoice) : Argument → SystemChoice
  | .config path => { choice with file := some path }
  | .topology topology => { choice with topology := some topology }
  | .media name => { choice with media := some name }
  | .device profile => { choice with device := some profile }
  | _ => choice

/-- The parameters of a run after one more argument. -/
def RunOptions.adjust (options : RunOptions) : Argument → RunOptions
  | .pattern pattern => { options with traffic := { options.traffic with pattern } }
  | .count count => { options with traffic := { options.traffic with count } }
  | .size size => { options with traffic := { options.traffic with size } }
  | .stride stride => { options with traffic := { options.traffic with stride } }
  | .window window => { options with window }
  | .atomic => { options with atomic := true }
  | .json => { options with json := true }
  | _ => options

structure ValueWord where
  word : String
  /-- What the word stands for, where that is told. -/
  meaning : Option String := none
deriving DecidableEq, Repr

/-- What stands behind the name of an option. -/
inductive OptionValue where
  | switch (switched : Argument)
  | text (read : String → Option Argument)
  | word (words : List (ValueWord × Argument))

/-- An option: its names, what is said about it, and its value. -/
structure OptionForm where
  /-- The name behind two dashes. -/
  long : String
  short : Option Char := none
  about : String
  /-- The text of the value that holds where the option is not given. -/
  fallback : Option String := none
  value : OptionValue

namespace OptionForm

/-- A decimal number of 64 bits, with an optional plus sign. -/
def number? (text : String) : Option Nat :=
  let digits := match text.toList with
    | '+' :: rest => rest
    | all => all
  if Json.isDigits digits && decide (Json.digitsValue digits ≤ lastAddress) then
    some (Json.digitsValue digits)
  else none

def anyText (make : String → Argument) : OptionValue := .text fun text => some (make text)

def aNumber (make : Nat → Argument) : OptionValue := .text fun text => (number? text).map make

/-- A value that is one of some words, whose meanings are not told. -/
def oneOf (words : List (String × Argument)) : OptionValue :=
  .word (words.map fun w => (⟨w.1, none⟩, w.2))

def aPattern : OptionValue :=
  .word (Pattern.all.map fun p => (⟨p.name, some p.about⟩, .pattern p))

def system : List OptionForm :=
  [{ long := "config", short := some 'c', about := "JSON configuration file",
     value := anyText .config },
   { long := "topology", short := some 't', about := "Topology override",
     value := oneOf
      [("bridged", .topology .bridged), ("direct", .topology .direct),
        ("controller", .topology .controller)] },
   { long := "media", short := some 'm',
     about := "Media profile override (e.g. DDR4_2400_8x8, NVM_2400_1x64)",
     value := anyText .media },
   { long := "device", short := some 'd', about := "Device profile override",
     value := oneOf [("asic", .device .asic), ("fpga", .device .fpga)] }]

def traffic : List OptionForm :=
  let defaults : RunOptions := {}
  [{ long := "pattern", short := some 'p', about := "Access pattern",
     fallback := some defaults.traffic.pattern.name, value := aPattern },
   { long := "count", short := some 'n', about := "Number of host requests",
     fallback := some (toString defaults.traffic.count), value := aNumber .count },
   { long := "size", short := some 's', about := "Bytes per request",
     fallback := some (toString defaults.traffic.size), value := aNumber .size },
   { long := "stride", about := "Address step for the `stride` pattern",
     fallback := some (toString defaults.traffic.stride), value := aNumber .stride },
   { long := "window", short := some 'w', about := "Maximum requests in flight at the host",
     fallback := some (toString defaults.window), value := aNumber .window },
   { long := "atomic", about := "Use the atomic path (fixed latencies, no queueing)",
     value := .switch .atomic },
   { long := "json", about := "Print the report as JSON", value := .switch .json }]

end OptionForm

end Expander
