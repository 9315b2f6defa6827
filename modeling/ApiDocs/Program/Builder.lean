import ApiDocs.Program.Basic

/-!
Building programs step by step. A step that refers to a missing entry fails where it needs the
entry; what it has changed before that stays.
-/

namespace ApiDocs

/-- The flags that a declaration gives to the symbol that it binds. -/
def Declaration.symbolFlags (decl : Declaration) : SymbolFlags :=
  match decl.kind with
  | .sourceFile => SymbolFlags.valueModule
  | .namespace_ => SymbolFlags.namespaceModule ||| SymbolFlags.valueModule
  | .class_ => SymbolFlags.class_
  | .interface => SymbolFlags.interface
  | .function => SymbolFlags.function
  | .enum =>
    if covers decl.modifiers Modifiers.const then SymbolFlags.constEnum
    else SymbolFlags.regularEnum
  | .enumMember => SymbolFlags.enumMember
  | .variable_ =>
    match decl.varKeyword with
    | some .let_ | some .const => SymbolFlags.blockScopedVariable
    | some .var | none => SymbolFlags.functionScopedVariable
  | .typeAlias => SymbolFlags.typeAlias
  | .property | .parameter => SymbolFlags.property
  | .method => SymbolFlags.method
  | .constructor => SymbolFlags.constructor
  | .getAccessor => SymbolFlags.getAccessor
  | .setAccessor => SymbolFlags.setAccessor
  | .callSignature | .constructSignature | .indexSignature => SymbolFlags.signature
  | .exportSpecifier => SymbolFlags.alias_

/-- A step that changes a program and may fail on the way. -/
abbrev Build := ExceptT Fault (StateM Program)

namespace Build

def modifyFile (id : FileId) (change : SourceFile → SourceFile) : Build Unit := do
  let program ← get
  if id.index.toNat < program.files.size then
    set { program with files := program.files.modify id.index.toNat change }
  else throw (.missing .file id.index)

def modifySymbol (id : SymbolId) (change : Symbol → Symbol) : Build Unit := do
  let program ← get
  if id.index.toNat < program.symbols.size then
    set { program with symbols := program.symbols.modify id.index.toNat change }
  else throw (.missing .symbol id.index)

def modifyDeclaration (id : DeclId) (change : Declaration → Declaration) : Build Unit := do
  let program ← get
  if id.index.toNat < program.declarations.size then
    set { program with declarations := program.declarations.modify id.index.toNat change }
  else throw (.missing .declaration id.index)

def addFile (name : String) : Build FileId := do
  let program ← get
  set { program with files := program.files.push { name } }
  return ⟨UInt32.ofNat program.files.size⟩

def addSymbol (name : String) (flags : SymbolFlags) (parent : Option SymbolId) :
    Build SymbolId := do
  let program ← get
  set { program with symbols := program.symbols.push { name, flags, parent } }
  return ⟨UInt32.ofNat program.symbols.size⟩

/-- Adds a declaration and binds it to the symbol, which gains its flags. -/
def addDeclaration (symbol : Option SymbolId) (decl : Declaration) : Build DeclId := do
  let id : DeclId := ⟨UInt32.ofNat (← get).declarations.size⟩
  if let some symbol := symbol then
    modifySymbol symbol fun entry => { entry with
      flags := entry.flags ||| decl.symbolFlags
      declarations := entry.declarations ++ [id] }
  modify fun program => { program with
    declarations := program.declarations.push { decl with
      symbol
      inferredType := none
      inferredReturnType := none } }
  return id

def declare (parent : Option SymbolId) (decl : Declaration) : Build (SymbolId × DeclId) := do
  let symbol ← addSymbol decl.name 0 parent
  return (symbol, ← addDeclaration (some symbol) decl)

def addModuleFile (name : String) : Build (FileId × SymbolId) := do
  let file ← addFile name
  let symbol ← addSymbol ("\"" ++ FileName.stem name ++ "\"") 0 none
  let _ ← addDeclaration (some symbol) { kind := .sourceFile, file, name }
  modifyFile file fun entry => { entry with moduleSymbol := some symbol }
  return (file, symbol)

def mergeDeclaration (symbol : SymbolId) (decl : Declaration) : Build DeclId :=
  addDeclaration (some symbol) decl

def addMember (owner : DeclId) (decl : Declaration) : Build DeclId := do
  let ownerDecl ← ExceptT.mk (pure ((← get).declaration owner))
  let (_, id) ← declare ownerDecl.symbol decl
  modifyDeclaration owner fun entry => { entry with members := entry.members ++ [id] }
  return id

def addParameter (callable : DeclId) (decl : Declaration) : Build DeclId := do
  let id ← addDeclaration none decl
  modifyDeclaration callable fun entry => { entry with parameters := entry.parameters ++ [id] }
  return id

def addStatement (file : FileId) (symbol : SymbolId) : Build Unit :=
  modifyFile file fun entry => { entry with statements := entry.statements ++ [symbol] }

def addExport (module export_ : SymbolId) : Build Unit :=
  modifySymbol module fun entry => { entry with exports := entry.exports ++ [export_] }

/-- Adds an export under another name; its target may be unknown. -/
def addAlias (module : SymbolId) (file : FileId) (name : String) (target : Option SymbolId) :
    Build SymbolId := do
  let (id, _) ← declare (some module) { kind := .exportSpecifier, file, name }
  modifySymbol id fun entry => { entry with aliasOf := target }
  addExport module id
  return id

def setBody (decl : DeclId) (body : SymbolId) : Build Unit :=
  modifyDeclaration decl fun entry => { entry with body := some body }

def setInferredType (decl : DeclId) (type : String) : Build Unit :=
  modifyDeclaration decl fun entry => { entry with inferredType := some type }

def setInferredReturnType (decl : DeclId) (type : String) : Build Unit :=
  modifyDeclaration decl fun entry => { entry with inferredReturnType := some type }

end Build

end ApiDocs
