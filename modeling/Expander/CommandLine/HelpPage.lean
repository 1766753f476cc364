import Expander.CommandLine.Subcommand
import Expander.Text.Hexadecimal

/-!
The help pages: how the program and its commands are used.

A page comes brief or in full. The brief page has one line for an option. The full page sets what is
said about an option below its names, and tells the meanings of words. Where a page has nothing to
add in full, it is always brief.
-/

set_option autoImplicit false

namespace Expander

/-- An entry of a help page: what can be given, and what is said about it. -/
structure HelpEntry where
  head : String
  about : String
  /-- The text of the value that holds where nothing is given. -/
  fallback : Option String := none
  words : List ValueWord := []
deriving DecidableEq, Repr

namespace HelpEntry

/-- The names of an option, those with a letter in front of those without. -/
def headOf (long : String) (short : Option Char) : String :=
  match short with
  | some letter => "-" ++ letter.toString ++ ", --" ++ long
  | none => "    --" ++ long

def ofOption (f : OptionForm) : HelpEntry :=
  let names := headOf f.long f.short
  let valued := names ++ " <" ++ f.long.map Char.toUpper ++ ">"
  match f.value with
  | .switch _ => ⟨names, f.about, f.fallback, []⟩
  | .text _ => ⟨valued, f.about, f.fallback, []⟩
  | .word words => ⟨valued, f.about, f.fallback, words.map (·.1)⟩

def explains (e : HelpEntry) : Bool := e.words.any fun w => w.meaning.isSome

/-- The remarks in brackets; the words are left to the full page where it explains them. -/
def remarks (full : Bool) (e : HelpEntry) : List String :=
  let fallback := match e.fallback with
    | some text => ["[default: " ++ text ++ "]"]
    | none => []
  let words :=
    if e.words.isEmpty || full && e.explains then []
    else ["[possible values: " ++ ", ".intercalate (e.words.map (·.word)) ++ "]"]
  fallback ++ words

def widest (texts : List String) : Nat := (texts.map String.length).foldl max 0

/-- The line of an entry on a brief page, whose heads are `width` characters wide. -/
def briefLine (width : Nat) (e : HelpEntry) : String :=
  "  " ++ Text.padRight (width + 2) e.head ++ " ".intercalate (e.about :: e.remarks false)

def briefLines (entries : List HelpEntry) : List String :=
  entries.map (briefLine (widest (entries.map head)))

/-- The distance from the margin of what is said on a full page. -/
def margin : String := Text.padRight 10 ""

def wordLines (words : List ValueWord) : List String :=
  let width := widest (words.map (·.word))
  "" :: (margin ++ "Possible values:") :: words.map fun w =>
    match w.meaning with
    | some meaning => margin ++ "- " ++ Text.padRight (width + 2) (w.word ++ ": ") ++ meaning
    | none => margin ++ "- " ++ w.word

/-- The lines of an entry on a full page: the remarks come last. -/
def fullEntry (e : HelpEntry) : List String :=
  let remarks := e.remarks true
  ["  " ++ e.head, margin ++ e.about] ++ (if e.explains then wordLines e.words else []) ++
    if remarks.isEmpty then [] else margin :: remarks.map (margin ++ ·)

/-- The lines of a full block, with an empty line between two entries. -/
def fullLines (entries : List HelpEntry) : List String := [""].intercalate (entries.map fullEntry)

end HelpEntry

/-- What the program is, in one line. -/
def programAbout : String := "CXL memory expander timing model"

/-- What the program is, at length. -/
def programAccount : List String :=
  ["Drive synthetic traffic through a CXL-attached memory expander and report timing.", "",
    "Configuration is JSON (see `Config`); command-line flags override the file.",
    "Set RUST_LOG=cxlsim_core=debug for per-packet tracing.", "",
    "Examples:",
    "  cxlsim run --pattern sequential --count 4096",
    "  cxlsim run -c expander.json --pattern row-conflict --json",
    "  cxlsim memmap --topology direct",
    "  cxlsim profiles"]

namespace HelpPage

def helpEntry (lengthy full : Bool) : HelpEntry :=
  { head := HelpEntry.headOf "help" (some 'h')
    about := "Print help" ++
      if !lengthy then ""
      else if full then " (see a summary with '-h')"
      else " (see more with '--help')" }

def versionEntry : HelpEntry :=
  { head := HelpEntry.headOf "version" (some 'V'), about := "Print version" }

def optionLines (lengthy full : Bool) (entries : List HelpEntry) : List String :=
  "Options:" ::
    if lengthy && full then HelpEntry.fullLines entries else HelpEntry.briefLines entries

/-- The line that tells how a command is written, and the empty lines around it. -/
def usageLines (usage : String) : List String :=
  ["", "Usage: " ++ programName ++ " " ++ usage, ""]

def ofProgram (full : Bool) : List String :=
  (if full then programAccount else [programAbout]) ++ usageLines "<COMMAND>" ++
    "Commands:" :: HelpEntry.briefLines (Subcommand.all.map fun c => ⟨c.name, c.about, none, []⟩) ++
    "" :: optionLines true full [helpEntry true full, versionEntry]

/-- The page of a command with options. -/
def ofOptions (c : Subcommand) (full : Bool) : List String :=
  let entries := c.options.map HelpEntry.ofOption
  let lengthy := entries.any HelpEntry.explains
  let usage := c.name ++ if entries.isEmpty then "" else " [OPTIONS]"
  c.about :: usageLines usage ++ optionLines lengthy full (entries ++ [helpEntry lengthy full])

def ofCommand (c : Subcommand) (full : Bool) : List String :=
  match c with
  | .run | .memmap | .profiles => ofOptions c full
  | .help =>
    c.about :: usageLines "help [COMMAND]..." ++
      "Arguments:" ::
        HelpEntry.briefLines [⟨"[COMMAND]...", "Print help for the subcommand(s)", none, []⟩]

end HelpPage

end Expander
