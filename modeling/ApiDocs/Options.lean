import ApiDocs.Json.Record
import ApiDocs.Pattern

/-!
Choices for a run: as settings, where patterns are text, and as options, where they are ready for
use.
-/

namespace ApiDocs

structure Settings where
  baseDir : String := ""
  ignoreExports : List String := []
  keepNamespaces : List String := []
  sortMembers : Bool := true
  hidePrivate : Bool := false
  deriving DecidableEq

structure Options where
  /-- The directory that module ids are relative to. -/
  baseDir : String := ""
  /-- Exports whose name matches one of these are passed over. -/
  ignoreExports : List Pattern := []
  /-- Qualifiers that match one of these stay in shown types. -/
  keepNamespaces : List Pattern := []
  /-- Parameter properties follow their constructor, not all other members. -/
  sortMembers : Bool := true
  /-- Private class members and those whose name begins with an underscore are left out. -/
  hidePrivate : Bool := false
  deriving DecidableEq

structure InvalidPattern where
  pattern : String
  cause : String
  deriving DecidableEq

def InvalidPattern.message (invalid : InvalidPattern) : String :=
  "invalid pattern '" ++ invalid.pattern ++ "': " ++ invalid.cause

/-- Compiles patterns up to the first one that is refused. -/
def Pattern.compileAll (compiler : Compiler) (sources : List String) : Except InvalidPattern (List Pattern) :=
  sources.mapM fun source => (compiler source).mapError (⟨source, ·⟩)

namespace Settings

def compile (compiler : Pattern.Compiler) (settings : Settings) : Except InvalidPattern Options := do
  let ignoreExports ← Pattern.compileAll compiler settings.ignoreExports
  let keepNamespaces ← Pattern.compileAll compiler settings.keepNamespaces
  return {
    baseDir := settings.baseDir
    ignoreExports
    keepNamespaces
    sortMembers := settings.sortMembers
    hidePrivate := settings.hidePrivate }

def schema : Json.Schema :=
  [["baseDir"], ["ignoreExportsMatching"], ["ignoreNamespaces", "ignoreTypeScriptNamespaces"],
    ["sortClassMembers"], ["hidePrivateMembers"]]

def ofJson (json : Json) : Option Settings :=
  match Json.slots schema json with
  | some [baseDir, ignoreExports, keepNamespaces, sortMembers, hidePrivate] => do
    return {
      baseDir := ← Json.withDefault "" Json.toStr? baseDir
      ignoreExports := ← Json.withDefault [] (Json.toList? Json.toStr?) ignoreExports
      keepNamespaces := ← Json.withDefault [] (Json.toList? Json.toStr?) keepNamespaces
      sortMembers := ← Json.withDefault true Json.toBool? sortMembers
      hidePrivate := ← Json.withDefault false Json.toBool? hidePrivate }
  | _ => none

def toJson (settings : Settings) : Json :=
  .obj [
    ("baseDir", .str settings.baseDir),
    ("ignoreExportsMatching", Json.ofStrs settings.ignoreExports),
    ("ignoreNamespaces", Json.ofStrs settings.keepNamespaces),
    ("sortClassMembers", .bool settings.sortMembers),
    ("hidePrivateMembers", .bool settings.hidePrivate)]

end Settings

namespace Options

/-- The mark that compilers leave on converted modules, in plain and in escaped form. -/
def moduleMarker : Pattern where
  source := "^_\x7b2,3\x7desModule$"
  expr :=
    let char (c : Char) : Pattern.Expr := .one (.single c)
    .seq (.edge .textStart) <| .seq (.times (char '_') 2 (some 3)) <| .seq (char 'e') <|
      .seq (char 's') <| .seq (char 'M') <| .seq (char 'o') <| .seq (char 'd') <|
      .seq (char 'u') <| .seq (char 'l') <| .seq (char 'e') <| .edge .textEnd

theorem read_moduleMarker : Pattern.read moduleMarker.source = some moduleMarker := by
  decide +kernel

def ignores (options : Options) (name : String) : Bool :=
  moduleMarker.isMatch name || Pattern.anyMatch options.ignoreExports name

def keeps (options : Options) (qualifier : String) : Bool :=
  Pattern.anyMatch options.keepNamespaces qualifier

end Options

end ApiDocs
