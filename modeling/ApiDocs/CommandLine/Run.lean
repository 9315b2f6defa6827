import ApiDocs.CommandLine.Args
import ApiDocs.Doc.Json
import ApiDocs.Extraction
import ApiDocs.Program.Snapshot

/-!
What the program does with its arguments: it reads a snapshot and, if asked, settings, and prints
the documents. The first stage that fails decides the message.
-/

namespace ApiDocs.CommandLine

inductive ReadError where
  | notFound
  | denied
  | notDirectory
  | isDirectory
  | notText
  | other (reason : String)
  deriving DecidableEq

def ReadError.message : ReadError → String
  | notFound => "No such file or directory (os error 2)"
  | denied => "Permission denied (os error 13)"
  | notDirectory => "Not a directory (os error 20)"
  | isDirectory => "Is a directory (os error 21)"
  | notText => "stream did not contain valid UTF-8"
  | other reason => reason

/-- The text of each file, or why it cannot be read. -/
abbrev Files := String → Except ReadError String

/-- What a run takes from elsewhere: the notation of patterns, and what is said of a text that holds no
program and of one that holds no settings. -/
structure Readers where
  compiler : Pattern.Compiler
  programCause : String → String
  settingsCause : String → String

/-- The stage of a run that failed. -/
inductive Failure where
  | unreadable (path : String) (error : ReadError)
  | badProgram (path : String) (error : LoadError) (cause : String)
  | badSettings (path : String) (cause : String)
  | badPattern (invalid : InvalidPattern)
  | missingSourceFile (name : String)
  deriving DecidableEq

def Failure.message : Failure → String
  | unreadable path error => "failed to read " ++ path ++ ": " ++ error.message
  | badProgram path error cause => "failed to load " ++ path ++ ": " ++ error.message cause
  | badSettings path cause => "invalid config " ++ path ++ ": " ++ cause
  | badPattern invalid => invalid.message
  | missingSourceFile name => (ExtractError.missingSourceFile name).message

def readFile (files : Files) (path : String) : Except Failure String :=
  (files path).mapError (.unreadable path)

def loadProgram (readers : Readers) (files : Files) (path : String) : Except Failure Program := do
  let text ← readFile files path
  (Program.load text).mapError (.badProgram path · (readers.programCause text))

def loadSettings (readers : Readers) (files : Files) : Option String → Except Failure Settings
  | none => .ok {}
  | some path => do
    let text ← readFile files path
    match Json.read text >>= Settings.ofJson with
    | some settings => return settings
    | none => throw (.badSettings path (readers.settingsCause text))

/-- Settings with those of the command line: patterns come last, and switches win. -/
def mergeSettings (args : ExtractArgs) (settings : Settings) : Settings :=
  { settings with
    ignoreExports := settings.ignoreExports ++ args.ignoreExports
    keepNamespaces := settings.keepNamespaces ++ args.keepNamespaces
    sortMembers := settings.sortMembers && !args.noSort
    hidePrivate := settings.hidePrivate || args.hidePrivate }

structure Job where
  program : Program
  options : Options
  files : List String

def prepare (readers : Readers) (files : Files) (args : ExtractArgs) : Except Failure Job := do
  let program ← loadProgram readers files args.program
  let settings ← loadSettings readers files args.config
  let options ← ((mergeSettings args settings).compile readers.compiler).mapError .badPattern
  return { program, options, files := args.files }

/-- How a run ends. A fault keeps it from an exit code of its own: it panics, or runs until the system
stops it, and what is reported then is left to the system. -/
inductive Ending where
  | exit (code : UInt32)
  | fault (cause : Fault)
  deriving DecidableEq

/-- What a run leaves: how it ends, both outputs, and the lines of its log. -/
structure Outcome where
  ending : Ending
  stdout : String := ""
  stderr : String := ""
  log : List LogLine := []
  deriving DecidableEq

def Outcome.ofFailure (failure : Failure) (log : List LogLine) : Outcome where
  ending := .exit 1
  stderr := failure.message
  log

def layout (args : ExtractArgs) : Json.Layout := if args.pretty then .indented else .compact

def runExtract (readers : Readers) (files : Files) (args : ExtractArgs) : Outcome :=
  match prepare readers files args with
  | .error failure => .ofFailure failure []
  | .ok job =>
    let log :=
      if args.trace then LogLine.ofLog [] (job.program.log job.options job.files) else []
    match job.program.extract job.options job.files with
    | .error (.missingSourceFile name) => .ofFailure (.missingSourceFile name) log
    | .error (.fault cause) => { ending := .fault cause, log }
    | .ok docs => { ending := .exit 0, stdout := docs.write (layout args) ++ "\n", log }

/-- Runs the program; arguments that are refused give exit code 2. -/
def run (readers : Readers) (files : Files) (args : List String) : Outcome :=
  match Command.ofArgs args with
  | none => { ending := .exit 2 }
  | some .version => { ending := .exit 0, stdout := "extract-ts-cli 0.1.0\n" }
  | some (.extract args) => runExtract readers files args

/-- The files that a run may read. -/
def paths (args : List String) : List String :=
  match Command.ofArgs args with
  | some (.extract args) => args.program :: args.config.toList
  | _ => []

end ApiDocs.CommandLine
