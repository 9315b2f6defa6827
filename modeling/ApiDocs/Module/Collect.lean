import ApiDocs.Program.Export

/-!
The modules that requested files stand for.
-/

namespace ApiDocs

/-- A module to be documented, with the file in which it was found. -/
structure CollectedModule where
  file : FileId
  symbol : SymbolId
  deriving DecidableEq

/-- Why an extraction has no result. -/
inductive ExtractError where
  | missingSourceFile (name : String)
  | fault (cause : Fault)
  deriving DecidableEq

namespace Program

/-- The body of a symbol that exports nothing and is declared once, as a namespace with a body. -/
def soleBody (program : Program) (symbol : Symbol) : Except Fault (Option SymbolId) :=
  match symbol.exports, symbol.declarations with
  | [], [only] => do
    let decl ← program.declaration only
    return if decl.kind = .namespace_ then decl.body else none
  | _, _ => .ok none

/-- The first symbol that exports something among this one and the bodies inside it; if there is
none, the innermost body. -/
def closestExporting (program : Program) (id : SymbolId) : Except Fault SymbolId := do
  let chain ← Trail.follow program.symbolSource program.soleBody [] id
  return (chain.getLast?.map (·.1)).getD id

/-- The modules of one file: its own module, or the statements of a script. -/
def modulesOfFile (program : Program) (id : FileId) : Except Fault (List CollectedModule) := do
  let file ← program.file id
  match file.moduleSymbol with
  | some symbol => return [⟨id, symbol⟩]
  | none => file.statements.mapM fun symbol => return ⟨id, ← program.closestExporting symbol⟩

def modulesNamed (program : Program) (name : String) :
    Except ExtractError (List CollectedModule) :=
  match program.findFile? name with
  | none => .error (.missingSourceFile name)
  | some file => (program.modulesOfFile file).mapError .fault

/-- The modules of all requested files, in the order of the request. -/
def collectModules (program : Program) (names : List String) :
    Except ExtractError (List CollectedModule) := do
  return (← names.mapM program.modulesNamed).flatten

/-- The requested names before the first missing one whose file has no code for a module. -/
def emptyFiles (program : Program) (names : List String) : List String :=
  (names.takeWhile fun name => (program.findFile? name).isSome).filter fun name =>
    match (program.findFile? name).bind (program.files[·.index.toNat]?) with
    | some file => file.moduleSymbol.isNone && file.statements.isEmpty
    | none => false

end Program

end ApiDocs
