import ApiDocs.Program.Export

/-!
The identity of modules. A file module is known by its path under the base directory, a namespace
by the names of the namespaces around it, so that parts of one namespace in several files have the
same id.
-/

namespace ApiDocs.Program

/-- The name of the file that the first source file declaration stands for. -/
def sourceFileName? (program : Program) : List DeclId → Except Fault (Option String)
  | [] => .ok none
  | id :: rest => do
    let decl ← program.declaration id
    if decl.kind = .sourceFile then return some (← program.file decl.file).name
    else program.sourceFileName? rest

/-- The name of a module: its own, or the id of its file. -/
def nameOfModule (program : Program) (base : String) (symbol : Symbol) : Except Fault String := do
  match ← program.sourceFileName? symbol.declarations with
  | some file => return FileName.moduleId base file
  | none => return symbol.name

def moduleName (program : Program) (base : String) (id : SymbolId) : Except Fault String := do
  program.nameOfModule base (← program.symbol id)

/-- The module around a module; a file has none around it. -/
def outerModule (program : Program) (symbol : Symbol) : Except Fault (Option SymbolId) := do
  match ← program.sourceFileName? symbol.declarations with
  | some _ => return none
  | none => return symbol.parent

/-- The names of the modules from the outermost one to this one, joined with slashes. -/
def moduleId (program : Program) (base : String) (id : SymbolId) : Except Fault String := do
  let chain ← Trail.follow program.symbolSource program.outerModule [] id
  let names ← chain.mapM fun (_, symbol) => program.nameOfModule base symbol
  return "/".intercalate names.reverse

/-- The nearest module among this symbol and its ancestors. -/
def nearestModule (program : Program) (id : SymbolId) : Except Fault (Option SymbolId) := do
  let chain ← Trail.follow program.symbolSource
    (fun symbol => .ok (if symbol.isModule then none else symbol.parent)) [] id
  match chain.getLast? with
  | some (last, symbol) => return if symbol.isModule then some last else none
  | none => return none

/-- The module id of the file of the first declaration. -/
def fileModuleId? (program : Program) (base : String) (symbol : Symbol) :
    Except Fault (Option String) := do
  match symbol.declarations with
  | [] => return none
  | first :: _ =>
    let file ← program.file (← program.declaration first).file
    match file.moduleSymbol with
    | some module => return some (← program.moduleId base module)
    | none => return some (FileName.moduleId base file.name)

/-- The nearest module around a symbol. -/
def moduleAround (program : Program) (symbol : Symbol) : Except Fault (Option SymbolId) :=
  match symbol.parent with
  | some parent => program.nearestModule parent
  | none => .ok none

/-- The id of the module that a symbol belongs to: the nearest one around it, or else its file. -/
def owningModuleId (program : Program) (base : String) (id : SymbolId) :
    Except Fault (Option String) := do
  let symbol ← program.symbol id
  match ← program.moduleAround symbol with
  | some module => return some (← program.moduleId base module)
  | none => program.fileModuleId? base symbol

end ApiDocs.Program

namespace ApiDocs

/-- What identifies a module in the documents. -/
structure ModuleHead where
  symbol : SymbolId
  id : String
  name : String
  /-- The file of the first declaration. -/
  fileName : String
  deriving DecidableEq

/-- The name of the file of the first declaration, which is empty if there is none. -/
def Program.firstFileName (program : Program) : List DeclId → Except Fault String
  | [] => .ok ""
  | first :: _ => do return (← program.file (← program.declaration first).file).name

def Program.moduleHead (program : Program) (base : String) (id : SymbolId) :
    Except Fault ModuleHead := do
  let symbol ← program.symbol id
  let fileName ← program.firstFileName symbol.declarations
  return {
    symbol := id
    id := ← program.moduleId base id
    name := ← program.nameOfModule base symbol
    fileName }

end ApiDocs
