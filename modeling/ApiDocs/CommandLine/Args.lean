import ApiDocs.Text.Affix

/-!
The arguments of the program.
-/

namespace ApiDocs.CommandLine

structure ExtractArgs where
  files : List String
  program : String
  config : Option String := none
  ignoreExports : List String := []
  keepNamespaces : List String := []
  noSort : Bool := false
  hidePrivate : Bool := false
  pretty : Bool := false
  trace : Bool := false
  deriving DecidableEq

inductive Command where
  | version
  | extract (args : ExtractArgs)
  deriving DecidableEq

/-- Options without a value, which may stand once. -/
inductive Switch where
  | noSort
  | hidePrivate
  | pretty
  | trace
  deriving DecidableEq

def Switch.ofName? : String → Option Switch
  | "no-sort-class-members" => some noSort
  | "hide-private-members" => some hidePrivate
  | "pretty" => some pretty
  | "trace" => some trace
  | _ => none

inductive Setting where
  | program
  | config
  | ignoreExports
  | keepNamespace
  deriving DecidableEq

def Setting.ofName? : String → Option Setting
  | "program" => some program
  | "config" => some config
  | "ignore-exports" => some ignoreExports
  | "keep-namespace" => some keepNamespace
  | _ => none

structure Draft where
  files : List String := []
  program : Option String := none
  config : Option String := none
  ignoreExports : List String := []
  keepNamespaces : List String := []
  switches : List Switch := []

namespace Draft

def turnOn (draft : Draft) (switch : Switch) : Option Draft :=
  if switch ∈ draft.switches then none
  else some { draft with switches := switch :: draft.switches }

/-- Patterns may be given several times, paths only once and not empty. -/
def assign (draft : Draft) (setting : Setting) (value : String) : Option Draft :=
  match setting with
  | .program =>
    if draft.program.isSome || value.isEmpty then none
    else some { draft with program := some value }
  | .config =>
    if draft.config.isSome || value.isEmpty then none
    else some { draft with config := some value }
  | .ignoreExports => some { draft with ignoreExports := draft.ignoreExports ++ [value] }
  | .keepNamespace => some { draft with keepNamespaces := draft.keepNamespaces ++ [value] }

/-- An extraction needs a program and a file at least. -/
def finish (draft : Draft) : Option ExtractArgs :=
  match draft.program, draft.files with
  | some program, first :: rest => some {
      files := first :: rest
      program
      config := draft.config
      ignoreExports := draft.ignoreExports
      keepNamespaces := draft.keepNamespaces
      noSort := draft.switches.contains .noSort
      hidePrivate := draft.switches.contains .hidePrivate
      pretty := draft.switches.contains .pretty
      trace := draft.switches.contains .trace }
  | _, _ => none

end Draft

/-- Everything but a lone dash that begins with a dash is an option. -/
def isOption (arg : String) : Bool :=
  match arg.toList with
  | '-' :: _ :: _ => true
  | _ => false

/-- The name and the value, if there is one, of an option without its dashes. -/
def splitOption (text : List Char) : String × Option String :=
  (String.ofList (text.takeWhile (· != '=')),
    match text.dropWhile (· != '=') with
    | _ :: value => some (String.ofList value)
    | [] => none)

/-- Reads options and files in any order; after two dashes there are only files. -/
def readArgs (draft : Draft) : List String → Option Draft
  | [] => some draft
  | "--" :: files => some { draft with files := draft.files ++ files }
  | arg :: rest =>
    match Text.after? ['-', '-'] arg.toList with
    | none =>
      if isOption arg then none
      else readArgs { draft with files := draft.files ++ [arg] } rest
    | some option =>
      let (name, value) := splitOption option
      match Switch.ofName? name, Setting.ofName? name, value with
      | some switch, _, none => do readArgs (← draft.turnOn switch) rest
      | none, some setting, some value => do readArgs (← draft.assign setting value) rest
      | none, some setting, none =>
        match rest with
        | value :: rest =>
          if isOption value then none else do readArgs (← draft.assign setting value) rest
        | [] => none
      | _, _, _ => none

/-- The command that the arguments ask for; none if they are refused. -/
def Command.ofArgs : List String → Option Command
  | "extract" :: rest => do return .extract (← (← readArgs {} rest).finish)
  | "--version" :: _ => some .version
  | arg :: _ => (Text.after? ['-', 'V'] arg.toList).map fun _ => .version
  | [] => none

end ApiDocs.CommandLine
