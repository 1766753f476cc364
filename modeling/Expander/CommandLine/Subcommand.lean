import Expander.CommandLine.Options

/-!
The commands of the program: their names, their options, and what is said about them.
-/

set_option autoImplicit false

namespace Expander

def programName : String := "cxlsim"

def programVersion : String := "0.4.0"

inductive Subcommand where
  /-- Drives traffic through a system. -/
  | run
  /-- Prints the memory map of a system. -/
  | memmap
  | profiles
  /-- Prints how the program or a command is used. -/
  | help
deriving DecidableEq, Repr

namespace Subcommand

def all : List Subcommand := [run, memmap, profiles, help]

def name : Subcommand → String
  | run => "run"
  | memmap => "memmap"
  | profiles => "profiles"
  | help => "help"

def ofName? (text : String) : Option Subcommand := all.find? fun c => c.name == text

/-- What a command does. -/
def about : Subcommand → String
  | run => "Drive a traffic pattern through the configured system"
  | memmap => "Print the E820-style memory map"
  | profiles => "List the built-in media and device profiles"
  | help => "Print this message or the help of the given subcommand(s)"

def options : Subcommand → List OptionForm
  | run => OptionForm.system ++ OptionForm.traffic
  | memmap => OptionForm.system
  | profiles | help => []

end Subcommand

end Expander
