import TraceRing.Config
import TraceRing.Text.Terminal

/-!
# Usage

The flags of the program, what it says of itself on request, and how it refuses a command line it
does not understand. A refusal repeats of an argument only what a terminal shows of it.
-/

namespace TraceRing.Program

/-! ## Flags -/

inductive Flag where
  | verbose
  | help
  | version
  deriving DecidableEq, Repr

namespace Flag

def all : List Flag :=
  [verbose, help, version]

def letter : Flag → Char
  | verbose => 'v'
  | help => 'h'
  | version => 'V'

def word : Flag → String
  | verbose => "verbose"
  | help => "help"
  | version => "version"

def ofLetter? (c : Char) : Option Flag :=
  all.find? fun flag => flag.letter == c

def ofWord? (word : String) : Option Flag :=
  all.find? fun flag => flag.word == word

/-- A flag as it is written out. -/
def display (flag : Flag) : String :=
  "--" ++ flag.word

end Flag

/-! ## Self-description -/

def programName : String := "consumer"

def directoryName : String := "TRACE_DIRECTORY"

/-- The arguments that a usage line dwells on. -/
inductive Mentioned where
  /-- Some flags, and the directory if it was given. -/
  | each (flags : List Flag) (directory : Bool)
  /-- One flag, and beside it whatever else may be given. -/
  | beside (flag : Flag)
  deriving DecidableEq, Repr

namespace Mentioned

/-- Nothing in particular. -/
def none : Mentioned :=
  each [] false

/-- The arguments of a usage line. An optional one stands in square brackets, one that has to be
given in pointed brackets, and a choice of them is divided by a bar. -/
def display : Mentioned → String
  | each [] false => "[OPTIONS] [" ++ directoryName ++ "]"
  | each flags directory =>
    let last := if directory then "<" ++ directoryName ++ ">" else "[" ++ directoryName ++ "]"
    String.join (flags.map fun flag => flag.display ++ " ") ++ last
  | beside flag =>
    let choice := "<" ++ Flag.verbose.display ++ "|" ++ directoryName ++ ">"
    if flag = .verbose then choice else flag.display ++ " " ++ choice

end Mentioned

def usage (m : Mentioned) : String :=
  "Usage: " ++ programName ++ " " ++ m.display

def helpText : String :=
  "Collect CTF packets from shared memory into per-core streams\n\n"
    ++ usage .none ++ "\n\n"
    ++ "Arguments:\n"
    ++ "  [" ++ directoryName ++ "]  Directory receiving the stream files [default: "
    ++ Config.traceDirectory ++ "]\n\n"
    ++ "Options:\n"
    ++ "  -v, --verbose  Log every consumed packet\n"
    ++ "  -h, --help     Print help\n"
    ++ "  -V, --version  Print version\n"

def versionText : String :=
  programName ++ " " ++ Settings.version ++ "\n"

/-! ## Refusals -/

/-- What may help whoever gave an unknown argument. -/
inductive Advice where
  | none
  /-- It may have been meant as a value. -/
  | asValue
  /-- It may have been meant as a flag. -/
  | similar (flag : Flag)
  deriving DecidableEq, Repr

/-- Why a command line is refused. -/
inductive UsageError where
  | unknown (argument : String) (advice : Advice) (mentioned : Mentioned)
  | unexpectedValue (flag : Flag) (value : String) (mentioned : Mentioned)
  | repeated (flag : Flag)
  | emptyDirectory
  deriving DecidableEq, Repr

def Advice.message (argument : String) : Advice → String
  | none => ""
  | asValue =>
    "\n\n  tip: to pass '" ++ Text.plain argument ++ "' as a value, use '-- "
      ++ Text.plain argument ++ "'"
  | similar flag => "\n\n  tip: a similar argument exists: '" ++ flag.display ++ "'"

namespace UsageError

def reason : UsageError → String
  | unknown argument advice mentioned =>
    "unexpected argument '" ++ Text.plain argument ++ "' found" ++ advice.message argument
      ++ "\n\n" ++ usage mentioned
  | unexpectedValue flag value mentioned =>
    "unexpected value '" ++ Text.plain value ++ "' for '" ++ flag.display
      ++ "' found; no more were expected\n\n" ++ usage mentioned
  | repeated flag =>
    "the argument '" ++ flag.display ++ "' cannot be used multiple times\n\n" ++ usage .none
  | emptyDirectory =>
    "a value is required for '[" ++ directoryName ++ "]' but none was supplied"

def message (e : UsageError) : String :=
  "error: " ++ e.reason ++ "\n\nFor more information, try '" ++ Flag.help.display ++ "'.\n"

end UsageError

end TraceRing.Program
