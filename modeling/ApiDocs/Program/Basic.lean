import ApiDocs.FileName
import ApiDocs.Program.Flags

/-!
Programs: files, symbols and declarations in three tables that refer to each other by index, and
the look-ups in them. A look-up past the end of its table is a fault.
-/

namespace ApiDocs

structure FileId where
  index : UInt32
  deriving DecidableEq

structure SymbolId where
  index : UInt32
  deriving DecidableEq

structure DeclId where
  index : UInt32
  deriving DecidableEq

instance : ToString FileId := ⟨fun id => toString id.index.toNat⟩

instance : ToString SymbolId := ⟨fun id => toString id.index.toNat⟩

instance : ToString DeclId := ⟨fun id => toString id.index.toNat⟩

inductive DeclKind where
  | sourceFile
  | namespace_
  | class_
  | interface
  | function
  | enum
  | enumMember
  | variable_
  | typeAlias
  | property
  | method
  | constructor
  | getAccessor
  | setAccessor
  | callSignature
  | constructSignature
  | indexSignature
  | parameter
  /-- A name that stands for a symbol of another module. -/
  | exportSpecifier
  deriving DecidableEq

namespace DeclKind

def isCallable : DeclKind → Bool
  | function | method | constructor | callSignature | constructSignature => true
  | _ => false

end DeclKind

inductive VarKeyword where
  | var
  | let_
  | const
  deriving DecidableEq

/-- Lines from `start` to `stop`, both included. -/
structure LineRange where
  start : UInt32
  stop : UInt32
  deriving DecidableEq

/-- What the source says about one declaration; texts are as written. -/
structure Declaration where
  kind : DeclKind
  file : FileId
  name : String
  modifiers : Modifiers := 0
  question : Bool := false
  rest : Bool := false
  /-- The type annotation, which is the return type for callables. -/
  typeAnnotation : Option String := none
  initializer : Option String := none
  typeParameters : List String := []
  parameters : List DeclId := []
  members : List DeclId := []
  heritage : List String := []
  /-- The symbol of the body of a namespace; that of `a` in `namespace a.b` is `b`. -/
  body : Option SymbolId := none
  varKeyword : Option VarKeyword := none
  returnsValue : Bool := false
  docComment : Option String := none
  lines : Option LineRange := none
  /-- The symbol that the declaration binds. -/
  symbol : Option SymbolId := none
  inferredType : Option String := none
  inferredReturnType : Option String := none
  deriving DecidableEq

structure Symbol where
  name : String
  flags : SymbolFlags
  declarations : List DeclId := []
  /-- The namespace or file module around the symbol. -/
  parent : Option SymbolId := none
  exports : List SymbolId := []
  /-- The symbol an alias stands for, unless it is unknown. -/
  aliasOf : Option SymbolId := none
  deriving DecidableEq

namespace Symbol

def isAlias (symbol : Symbol) : Bool := covers symbol.flags SymbolFlags.alias_

def isModule (symbol : Symbol) : Bool := meets symbol.flags SymbolFlags.module

end Symbol

structure SourceFile where
  name : String
  /-- Script files have none. -/
  moduleSymbol : Option SymbolId := none
  /-- The symbols of the top-level statements. -/
  statements : List SymbolId := []
  deriving DecidableEq

structure Program where
  files : Array SourceFile := #[]
  symbols : Array Symbol := #[]
  declarations : Array Declaration := #[]
  deriving DecidableEq

inductive Table where
  | file
  | symbol
  | declaration
  deriving DecidableEq

def Table.word : Table → String
  | file => "file"
  | symbol => "symbol"
  | declaration => "declaration"

/-- Why a question about a program has no answer. -/
inductive Fault where
  | missing (table : Table) (index : UInt32)
  /-- The types of set accessors refer to each other without end. -/
  | endlessAccessor (decl : DeclId)
  deriving DecidableEq

def Fault.message : Fault → String
  | missing table index => "no " ++ table.word ++ " " ++ toString index.toNat
  | endlessAccessor decl => "the type of declaration " ++ toString decl ++ " has no end"

namespace Program

def file (program : Program) (id : FileId) : Except Fault SourceFile :=
  match program.files[id.index.toNat]? with
  | some file => .ok file
  | none => .error (.missing .file id.index)

def symbol (program : Program) (id : SymbolId) : Except Fault Symbol :=
  match program.symbols[id.index.toNat]? with
  | some symbol => .ok symbol
  | none => .error (.missing .symbol id.index)

def declaration (program : Program) (id : DeclId) : Except Fault Declaration :=
  match program.declarations[id.index.toNat]? with
  | some declaration => .ok declaration
  | none => .error (.missing .declaration id.index)

def symbolIds (program : Program) : List SymbolId :=
  (List.range program.symbols.size).map fun index => ⟨UInt32.ofNat index⟩

def declIds (program : Program) : List DeclId :=
  (List.range program.declarations.size).map fun index => ⟨UInt32.ofNat index⟩

theorem mem_symbolIds {program : Program} {id : SymbolId} {symbol : Symbol}
    (found : program.symbol id = .ok symbol) : id ∈ program.symbolIds := by
  unfold Program.symbol at found
  split at found
  · rename_i inside
    have bound := (Array.getElem?_eq_some_iff.mp inside).1
    exact List.mem_map.mpr ⟨id.index.toNat, List.mem_range.mpr bound, by simp⟩
  · cases found

theorem mem_declIds {program : Program} {id : DeclId} {decl : Declaration}
    (found : program.declaration id = .ok decl) : id ∈ program.declIds := by
  unfold Program.declaration at found
  split at found
  · rename_i inside
    have bound := (Array.getElem?_eq_some_iff.mp inside).1
    exact List.mem_map.mpr ⟨id.index.toNat, List.mem_range.mpr bound, by simp⟩
  · cases found

/-- The first file whose name has the same plain form. -/
def findFile? (program : Program) (name : String) : Option FileId :=
  (program.files.findIdx? fun file => FileName.plain file.name == FileName.plain name).map
    fun index => ⟨UInt32.ofNat index⟩

end Program

end ApiDocs
