import ApiDocs.Program.Basic

/-!
When a program is sound: every index that it stores points into its table, and every chain of
parents ends.
-/

namespace ApiDocs

/-- A stored index, with the table it points into. -/
structure Reference where
  table : Table
  index : UInt32
  deriving DecidableEq

namespace Reference

def file (id : FileId) : Reference := ⟨.file, id.index⟩

def symbol (id : SymbolId) : Reference := ⟨.symbol, id.index⟩

def decl (id : DeclId) : Reference := ⟨.declaration, id.index⟩

end Reference

def SourceFile.references (file : SourceFile) : List Reference :=
  file.moduleSymbol.toList.map .symbol ++ file.statements.map .symbol

def Symbol.references (symbol : Symbol) : List Reference :=
  symbol.declarations.map .decl ++ symbol.exports.map .symbol ++
    symbol.parent.toList.map .symbol ++ symbol.aliasOf.toList.map .symbol

def Declaration.references (decl : Declaration) : List Reference :=
  .file decl.file :: decl.parameters.map .decl ++ decl.members.map .decl ++
    decl.body.toList.map .symbol ++ decl.symbol.toList.map .symbol

inductive Defect where
  | dangling (reference : Reference)
  /-- The chain of parents from this symbol does not end. -/
  | parentCycle (symbol : SymbolId)
  deriving DecidableEq

def Defect.message : Defect → String
  | dangling ⟨table, index⟩ =>
    "program snapshot references missing " ++ table.word ++ " " ++ toString index.toNat
  | parentCycle symbol =>
    "program snapshot has a parent cycle through symbol " ++ toString symbol

namespace Program

/-- All stored indices, in the order in which they are checked. -/
def references (program : Program) : List Reference :=
  program.files.toList.flatMap SourceFile.references ++
    program.symbols.toList.flatMap Symbol.references ++
    program.declarations.toList.flatMap Declaration.references

def size (program : Program) : Table → Nat
  | .file => program.files.size
  | .symbol => program.symbols.size
  | .declaration => program.declarations.size

def holds (program : Program) (reference : Reference) : Bool :=
  reference.index.toNat < program.size reference.table

def parent? (program : Program) (id : SymbolId) : Option SymbolId :=
  program.symbols[id.index.toNat]? >>= Symbol.parent

/-- The symbol reached from `start` in the given number of steps from child to parent. -/
def ancestor? (program : Program) : Nat → SymbolId → Option SymbolId
  | 0, start => some start
  | steps + 1, start => program.parent? start >>= program.ancestor? steps

/-- A chain of parents that is longer than there are symbols does not end. -/
def parentsEnd (program : Program) (start : SymbolId) : Bool :=
  (program.ancestor? (program.symbols.size + 1) start).isNone

/-- Finds the first defect: missing references come before endless chains of parents. -/
def check (program : Program) : Except Defect Unit :=
  match program.references.find? (!program.holds ·) with
  | some reference => .error (.dangling reference)
  | none =>
    match program.symbolIds.find? (!program.parentsEnd ·) with
    | some symbol => .error (.parentCycle symbol)
    | none => .ok ()

end Program

end ApiDocs
