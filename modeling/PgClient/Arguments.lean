import PgClient.Journal

/-!
# The command line

The program takes the path of its settings file and a few options, each by a letter or a word. A
letter may be followed by others in the same argument; an option that takes a value finds it
behind the letter, behind an equals sign, or in the next argument. After `--` every argument is the
path.

An option is put in force when the next one begins or the arguments end, so of two mistakes the
one that comes first in this order is reported; an argument that means nothing is reported at once.
-/

namespace PgClient

/-- How the log is laid out. -/
inductive LogFormat where
  | text
  | structured
  | debug
  deriving DecidableEq, Repr, Inhabited

/-- What the program is asked to do. -/
structure Arguments where
  configFile : String := "pg_frontend.toml"
  logLevel : Level := .info
  logFormat : LogFormat := .text
  noColor : Bool := false
  /-- The query to run. -/
  query : Option String := none
  /-- How many seconds to wait for notifications. -/
  listenWait : Nat := 0
  deriving DecidableEq, Repr

/-- Why the arguments are not carried out. -/
inductive ArgumentFault where
  | unknownArgument
  /-- A value is missing, or is none of the words allowed. -/
  | invalidValue
  /-- A value that does not have the form it should. -/
  | valueValidation
  /-- An option is given twice. -/
  | argumentConflict
  /-- An option that takes no value has one. -/
  | tooManyValues
  | displayHelp
  | displayVersion
  deriving DecidableEq, Repr

namespace Arguments

/-- What an argument sets. -/
inductive Setting where
  | configFile
  | logLevel
  | logFormat
  | noColor
  | query
  | listenWait
  deriving DecidableEq, Repr

namespace Setting

/-- The settings in the order they are documented in. -/
def all : List Setting :=
  [configFile, logLevel, logFormat, noColor, query, listenWait]

/-- The variable of the environment that sets what no argument did. -/
def variableName : Setting → String
  | configFile => "CONFIG_FILE"
  | logLevel => "LOG_LEVEL"
  | logFormat => "LOG_FORMAT"
  | noColor => "NO_COLOR"
  | query => "QUERY"
  | listenWait => "LISTEN_WAIT"

end Setting

/-- What an option stands for. -/
inductive Meaning where
  /-- It sets the value that follows it. -/
  | takes (setting : Setting)
  | noColor
  | help
  | version
  deriving DecidableEq, Repr

/-- The meaning of a letter. -/
def letter? : Char → Option Meaning
  | 'l' => some (.takes .logLevel)
  | 'F' => some (.takes .logFormat)
  | 'n' => some .noColor
  | 'q' => some (.takes .query)
  | 'w' => some (.takes .listenWait)
  | 'h' => some .help
  | 'V' => some .version
  | _ => none

/-- The meaning of a word. -/
def word? : String → Option Meaning
  | "log-level" => some (.takes .logLevel)
  | "log-format" => some (.takes .logFormat)
  | "no-color" => some .noColor
  | "query" => some (.takes .query)
  | "listen-wait" => some (.takes .listenWait)
  | "help" => some .help
  | "version" => some .version
  | _ => none

/-- A level by its name in any case, or by its number, most important first. -/
def level? (text : String) : Option Level :=
  match Decimal.nat? Decimal.uint64Max text with
  | some 1 => some .error
  | some 2 => some .warn
  | some 3 => some .info
  | some 4 => some .debug
  | some 5 => some .trace
  | some _ => none
  | none =>
    [Level.error, .warn, .info, .debug, .trace].find? fun l => Ascii.eqIgnoringCase text l.render

def format? : String → Option LogFormat
  | "text" => some .text
  | "structured" => some .structured
  | "debug" => some .debug
  | _ => none

/-- The arguments after a setting is given a value. -/
def set (a : Arguments) (setting : Setting) (value : String) : Except ArgumentFault Arguments :=
  match setting with
  | .configFile => return { a with configFile := value }
  | .logLevel =>
    match level? value with
    | some logLevel => return { a with logLevel }
    | none => throw .valueValidation
  | .logFormat =>
    match format? value with
    | some logFormat => return { a with logFormat }
    | none => throw .invalidValue
  | .noColor =>
    match value with
    | "true" => return { a with noColor := true }
    | "false" => return { a with noColor := false }
    | _ => throw .invalidValue
  | .query => return { a with query := some value }
  | .listenWait =>
    match Decimal.nat? Decimal.uint64Max value with
    | some listenWait => return { a with listenWait }
    | none => throw .valueValidation

/-- An option that was begun and is not in force yet. -/
inductive Pending where
  | nothing
  | awaiting (setting : Setting)
  | held (setting : Setting) (value : String)
  deriving DecidableEq, Repr

/-- The state between two arguments. -/
structure Scan where
  arguments : Arguments := {}
  /-- The settings in force. -/
  given : List Setting := []
  pending : Pending := .nothing
  /-- Whether `--` was passed. -/
  trailing : Bool := false
  /-- Whether there was a path. -/
  hasPath : Bool := false

namespace Scan

/-- Puts a setting in force, once. -/
def give (s : Scan) (setting : Setting) (value : String) : Except ArgumentFault Scan := do
  if s.given.contains setting then throw .argumentConflict
  return { s with arguments := ← s.arguments.set setting value, given := setting :: s.given }

/-- Puts the pending option in force. -/
def settle (s : Scan) : Except ArgumentFault Scan :=
  match s.pending with
  | .nothing => return s
  | .awaiting _ => throw .invalidValue
  | .held setting value => { s with pending := .nothing }.give setting value

/-- Takes an option that has no value. -/
def flag (s : Scan) : Meaning → Except ArgumentFault Scan
  | .help => do
    discard s.settle
    throw .displayHelp
  | .version => do
    discard s.settle
    throw .displayVersion
  | .noColor => do (← s.settle).give .noColor "true"
  | .takes _ => return s

/-- Takes an option and the value attached to it, if one is. -/
def begin (s : Scan) (setting : Setting) (value : Option String) : Except ArgumentFault Scan := do
  let s ← s.settle
  match value with
  | some value => s.give setting value
  | none => return { s with pending := .awaiting setting }

/-- Takes an option given by a word. -/
def word (s : Scan) (cs : List Char) : Except ArgumentFault Scan :=
  let name := String.ofList (cs.takeWhile (· != '='))
  let value := match cs.dropWhile (· != '=') with
    | _ :: value => some (String.ofList value)
    | [] => none
  match word? name, value with
  | none, _ => throw .unknownArgument
  | some (.takes setting), value => s.begin setting value
  | some _, some _ => throw .tooManyValues
  | some meaning, none => s.flag meaning

/-- Takes options given by letters. -/
def letters (s : Scan) : List Char → Except ArgumentFault Scan
  | [] => return s
  | c :: cs =>
    match letter? c with
    | none => throw .unknownArgument
    | some (.takes setting) =>
      match cs with
      | [] => s.begin setting none
      | '=' :: value => s.begin setting (some (String.ofList value))
      | value => s.begin setting (some (String.ofList value))
    | some meaning => do letters (← s.flag meaning) cs

/-- Takes an argument that is no option. -/
def path (s : Scan) (arg : String) : Except ArgumentFault Scan := do
  if s.hasPath then throw .unknownArgument
  return { ← s.settle with pending := .held .configFile arg, hasPath := true }

/-- Takes an argument that is no option, which may be the value of the one before. -/
def plain (s : Scan) (arg : String) : Except ArgumentFault Scan :=
  match s.pending with
  | .awaiting setting => return { s with pending := .held setting arg }
  | _ => s.path arg

/-- Takes the next argument. -/
def next (s : Scan) (arg : String) : Except ArgumentFault Scan :=
  if s.trailing then s.path arg
  else match arg.toList with
    | ['-', '-'] => return { s with trailing := true }
    | '-' :: '-' :: cs => s.word cs
    | '-' :: c :: cs => s.letters (c :: cs)
    | _ => s.plain arg

/-- Takes a variable of the environment for a setting that no argument gave. -/
def fromVariable (environment : String → Option String) (s : Scan) (setting : Setting) :
    Except ArgumentFault Scan :=
  match environment setting.variableName with
  | some value => if s.given.contains setting then return s else s.give setting value
  | none => return s

end Scan

/-- Reads the arguments, and the environment for what they leave open. -/
def ofList (environment : String → Option String) (args : List String) :
    Except ArgumentFault Arguments := do
  let s ← (← args.foldlM Scan.next {}).settle
  return (← Setting.all.foldlM (Scan.fromVariable environment) s).arguments

end Arguments

end PgClient
