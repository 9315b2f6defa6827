import ApiDocs.Program.Basic
import ApiDocs.Trail

/-!
What a module exports: each name with the symbol that stands behind it.
-/

namespace ApiDocs

structure ResolvedExport where
  /-- The name under which the module exports it. -/
  name : String
  /-- The symbol in the module's list. -/
  symbol : SymbolId
  /-- The symbol behind it; none if its chain of aliases leads nowhere. -/
  target : Option SymbolId
  deriving DecidableEq

namespace Program

def symbolSource (program : Program) : Trail.Source SymbolId Symbol Fault where
  ids := program.symbolIds
  get := program.symbol
  mem_ids := mem_symbolIds

def declSource (program : Program) : Trail.Source DeclId Declaration Fault where
  ids := program.declIds
  get := program.declaration
  mem_ids := mem_declIds

/-- The first symbol that is no alias on the chain of aliases from this one. -/
def resolveAlias (program : Program) (id : SymbolId) : Except Fault (Option SymbolId) := do
  let chain ← Trail.follow program.symbolSource
    (fun symbol => .ok (if symbol.isAlias then symbol.aliasOf else none)) [] id
  match chain.getLast? with
  | some (last, symbol) => return if symbol.isAlias then none else some last
  | none => return none

def resolveExport (program : Program) (id : SymbolId) : Except Fault ResolvedExport := do
  let symbol ← program.symbol id
  return { name := symbol.name, symbol := id, target := ← program.resolveAlias id }

def resolveExports (program : Program) (id : SymbolId) : Except Fault (List ResolvedExport) := do
  (← program.symbol id).exports.mapM program.resolveExport

end Program

end ApiDocs
