import Expander.CommandLine.Subcommand
import Expander.CommandLine.Failure

/-!
What the arguments of the program ask for.

Arguments are read from the left, and the first that settles the matter does: a request for help or
for the version, an option that is wrong or given twice, or a value that cannot be read.
-/

set_option autoImplicit false

namespace Expander

/-- What the arguments ask for. -/
inductive Invocation where
  /-- Drive traffic through a system. -/
  | run (choice : SystemChoice) (options : RunOptions)
  /-- Print the memory map of a system. -/
  | memmap (choice : SystemChoice)
  | profiles
  /-- Print how the program, or one of its commands, is used. -/
  | help (command : Option Subcommand) (full : Bool)
  | version
deriving DecidableEq, Repr

namespace Invocation

/-- Why the reading of arguments stops early. -/
inductive Stop where
  | help (full : Bool)
  | wrong
deriving DecidableEq, Repr

/-- What an argument that names an option gives. -/
inductive Reading where
  | complete (given : Argument)
  /-- An option whose value is the next argument. -/
  | awaiting (value : OptionValue)

/-- Whether an argument can only be an option. -/
def looksLikeOption (text : String) : Bool :=
  match text.toList with
  | '-' :: _ :: _ => true
  | _ => false

def readValue (text : String) : OptionValue → Except Stop Argument
  | .switch _ => .error .wrong
  | .text read => (read text).elim (.error .wrong) .ok
  | .word words => (words.find? fun w => w.1.word == text).elim (.error .wrong) fun w => .ok w.2

/-- What an option gives together with the value attached to its name. -/
def readOption (attached : Option String) (f : OptionForm) : Except Stop Reading :=
  match f.value, attached with
  | .switch switched, none => .ok (.complete switched)
  | value, some text => (readValue text value).map .complete
  | value, none => .ok (.awaiting value)

/-- What an argument behind two dashes gives; its value stands behind an equals sign. -/
def readLong (forms : List OptionForm) (text : List Char) : Except Stop Reading :=
  let name := String.ofList (text.takeWhile (· != '='))
  let attached := match text.dropWhile (· != '=') with
    | [] => none
    | _ :: value => some (String.ofList value)
  if name == "help" && attached.isNone then .error (.help true)
  else (forms.find? fun f => f.long == name).elim (.error .wrong) (readOption attached)

/-- What an argument behind one dash gives; what follows its letter is the value. -/
def readShort (forms : List OptionForm) (letter : Char) (text : List Char) : Except Stop Reading :=
  let attached := match text with
    | [] => none
    | '=' :: value => some (String.ofList value)
    | value => some (String.ofList value)
  if letter == 'h' then .error (.help false)
  else (forms.find? fun f => f.short == some letter).elim (.error .wrong) (readOption attached)

/-- What an argument gives. -/
def read (forms : List OptionForm) (text : String) : Except Stop Reading :=
  match text.toList with
  | '-' :: '-' :: name => readLong forms name
  | '-' :: letter :: value => readShort forms letter value
  | _ => .error .wrong

/-- Adds an argument, whose option must not have been given before. -/
def add (given : List Argument) (a : Argument) : Except Stop (List Argument) :=
  if given.any a.sameOption then .error .wrong else .ok (given ++ [a])

/-- The arguments of a command, behind those that were given before. Two dashes end the options, and
nothing may follow them. -/
def arguments (forms : List OptionForm) (given : List Argument) :
    List String → Except Stop (List Argument)
  | [] => .ok given
  | text :: rest =>
    if text == "--" then if rest.isEmpty then .ok given else .error .wrong
    else
      match read forms text with
      | .error stop => .error stop
      | .ok (.complete a) =>
        match add given a with
        | .error stop => .error stop
        | .ok given => arguments forms given rest
      | .ok (.awaiting value) =>
        match rest with
        | [] => .error .wrong
        | text :: behind =>
          if looksLikeOption text then .error .wrong
          else
            match (readValue text value).bind (add given) with
            | .error stop => .error stop
            | .ok given => arguments forms given behind

def ofArguments (c : Subcommand) (given : List Argument) : Invocation :=
  match c with
  | .run => run (given.foldl SystemChoice.adjust {}) (given.foldl RunOptions.adjust {})
  | .memmap => memmap (given.foldl SystemChoice.adjust {})
  | .profiles => profiles
  | .help => help none true

/-- The invocation of a command with the arguments behind its name. -/
def ofCommand (c : Subcommand) (texts : List String) : Except Failure Invocation :=
  match arguments c.options [] texts with
  | .ok given => .ok (ofArguments c given)
  | .error (.help full) => .ok (help (some c) full)
  | .error .wrong => .error .usage

/-- The help for the command that is named, or for the program. -/
def helpOn : List String → Except Failure Invocation
  | [] => .ok (help none true)
  | [name] => (Subcommand.ofName? name).elim (.error .usage) fun c => .ok (help (some c) true)
  | _ => .error .usage

/-- What is asked for by an argument in the place of a command. -/
def ofSwitch (text : String) : Except Failure Invocation :=
  match text.toList with
  | '-' :: '-' :: name =>
    if name = "help".toList then .ok (help none true)
    else if name = "version".toList then .ok version
    else .error .usage
  | '-' :: 'h' :: _ => .ok (help none false)
  | '-' :: 'V' :: _ => .ok version
  | _ => .error .usage

/-- The invocation that the arguments of the program ask for. -/
def parse : List String → Except Failure Invocation
  | [] => .error .usage
  | first :: rest =>
    match Subcommand.ofName? first with
    | some .help => helpOn rest
    | some c => ofCommand c rest
    | none => ofSwitch first

/-- The configuration file that the command reads. -/
def file? : Invocation → Option String
  | run choice _ | memmap choice => choice.file
  | profiles | help _ _ | version => none

end Invocation

end Expander
