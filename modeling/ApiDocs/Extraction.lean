import ApiDocs.Extraction.Emission
import ApiDocs.Module.Collect

/-!
Extraction: from the names of files to documents.
-/

namespace ApiDocs

def ExtractError.message : ExtractError → String
  | missingSourceFile name => "invalid source file: " ++ name
  | fault cause => cause.message

namespace Program

def emit (program : Program) (options : Options) (modules : List SymbolId) :
    Except Fault Emission := do
  let (visits, _) ← program.walk options [] (modules.map .walk)
  visits.foldlM (Emission.step program options) {}

/-- The documents and the log for the requested files, or the reason why there are none. -/
def run (program : Program) (options : Options) (names : List String) :
    Except ExtractError Emission := do
  let collected ← program.collectModules names
  (program.emit options (collected.map (·.symbol))).mapError .fault

def extract (program : Program) (options : Options) (names : List String) :
    Except ExtractError DocSet :=
  (program.run options names).map (·.docs)

/-- The log of an extraction; if a file is missing it ends before that file. -/
def log (program : Program) (options : Options) (names : List String) : List LogEntry :=
  (program.emptyFiles names).map .noModuleCode ++
    match program.run options names with
    | .ok emission => emission.log
    | .error _ => []

end Program

end ApiDocs
