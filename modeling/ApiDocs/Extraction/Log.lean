import ApiDocs.Json.Record

/-!
The log of a run, and the lines in which it is reported. While a module is open its id stands in the
span of every line.
-/

namespace ApiDocs

inductive LogEntry where
  /-- A requested file holds no code for a module. -/
  | noModuleCode (file : String)
  | opened (module : String)
  | closed (module : String)
  | unresolved (export_ module : String)
  | extracted (export_ docType : String)
  deriving DecidableEq

inductive Level where
  | warn
  | debug
  deriving DecidableEq

def Level.word : Level → String
  | warn => "WARN"
  | debug => "DEBUG"

/-- A reported line with the open modules, the outermost first. -/
structure LogLine where
  level : Level
  fields : List (String × String)
  /-- The module of the line, which for the end of a module is that module. -/
  module : Option String
  spans : List String
  deriving DecidableEq

namespace LogLine

/-- The lines for a log, given the open modules, the innermost first. -/
def ofLog (spans : List String) : List LogEntry → List LogLine
  | [] => []
  | .opened module :: rest => ofLog (module :: spans) rest
  | .closed module :: rest =>
    { level := .debug
      fields := [("message", "close")]
      module := some module
      spans := (spans.drop 1).reverse } :: ofLog (spans.drop 1) rest
  | .noModuleCode file :: rest =>
    { level := .warn
      fields := [("message", "no module code found"), ("file", file)]
      module := spans.head?
      spans := spans.reverse } :: ofLog spans rest
  | .unresolved name module :: rest =>
    { level := .warn
      fields := [("message", "export has no resolvable declaration"), ("export", name),
        ("module", module)]
      module := spans.head?
      spans := spans.reverse } :: ofLog spans rest
  | .extracted name docType :: rest =>
    { level := .debug
      fields := [("message", "extracted export"), ("export", name), ("doc_type", docType)]
      module := spans.head?
      spans := spans.reverse } :: ofLog spans rest

def toJson (line : LogLine) : Json :=
  .obj [
    ("level", .str line.level.word),
    ("fields", .obj (line.fields.map fun (name, value) => (name, .str value))),
    ("module", Json.ofOption .str line.module),
    ("spans", Json.ofStrs line.spans)]

end LogLine

end ApiDocs
