import ApiDocs.Json.Read
import ApiDocs.Json.Record
import ApiDocs.Json.Write
import ApiDocs.Program.Validity

/-!
Programs as JSON. Reading fills in defaults for fields that are left out; writing leaves none out.
-/

namespace ApiDocs

open Json

namespace FileId

def toJson (id : FileId) : Json := ofWord id.index

def ofJson (json : Json) : Option FileId := (toWord? json).map (⟨·⟩)

end FileId

namespace SymbolId

def toJson (id : SymbolId) : Json := ofWord id.index

def ofJson (json : Json) : Option SymbolId := (toWord? json).map (⟨·⟩)

end SymbolId

namespace DeclId

def toJson (id : DeclId) : Json := ofWord id.index

def ofJson (json : Json) : Option DeclId := (toWord? json).map (⟨·⟩)

end DeclId

namespace DeclKind

def all : List DeclKind :=
  [sourceFile, namespace_, class_, interface, function, enum, enumMember, variable_, typeAlias,
    property, method, constructor, getAccessor, setAccessor, callSignature, constructSignature,
    indexSignature, parameter, exportSpecifier]

def word : DeclKind → String
  | sourceFile => "source_file"
  | namespace_ => "namespace"
  | class_ => "class"
  | interface => "interface"
  | function => "function"
  | enum => "enum"
  | enumMember => "enum_member"
  | variable_ => "variable"
  | typeAlias => "type_alias"
  | property => "property"
  | method => "method"
  | constructor => "constructor"
  | getAccessor => "get_accessor"
  | setAccessor => "set_accessor"
  | callSignature => "call_signature"
  | constructSignature => "construct_signature"
  | indexSignature => "index_signature"
  | parameter => "parameter"
  | exportSpecifier => "export_specifier"

def ofWord? (word : String) : Option DeclKind := all.find? (·.word == word)

end DeclKind

namespace VarKeyword

def all : List VarKeyword := [var, let_, const]

def word : VarKeyword → String
  | var => "var"
  | let_ => "let"
  | const => "const"

def ofWord? (word : String) : Option VarKeyword := all.find? (·.word == word)

end VarKeyword

namespace LineRange

def schema : Schema := [["start"], ["end"]]

def ofJson (json : Json) : Option LineRange :=
  match slots schema json with
  | some [start, stop] => do
    return { start := ← required toWord? start, stop := ← required toWord? stop }
  | _ => none

def toJson (lines : LineRange) : Json :=
  .obj [("start", ofWord lines.start), ("end", ofWord lines.stop)]

end LineRange

def flagsOfJson (names : FlagText.Names width) (json : Json) : Option (BitVec width) :=
  toStr? json >>= FlagText.read names

namespace Declaration

def schema : Schema :=
  [["kind"], ["file"], ["name"], ["modifiers"], ["question"], ["rest"], ["type_annotation"],
    ["initializer"], ["type_parameters"], ["parameters"], ["members"], ["heritage"], ["body"],
    ["var_keyword"], ["returns_value"], ["doc_comment"], ["lines"], ["symbol"]]

/-- Reads what the source says; inferred types are not part of it. -/
def ofJson (json : Json) : Option Declaration :=
  match slots schema json with
  | some [kind, file, name, modifiers, question, rest, typeAnnotation, initializer, typeParameters,
      parameters, members, heritage, body, varKeyword, returnsValue, docComment, lines, symbol] => do
    return {
      kind := ← required (toChoice? DeclKind.ofWord?) kind
      file := ← required FileId.ofJson file
      name := ← required toStr? name
      modifiers := ← withDefault 0 (flagsOfJson Modifiers.names) modifiers
      question := ← withDefault false toBool? question
      rest := ← withDefault false toBool? rest
      typeAnnotation := ← withDefault none (nullable toStr?) typeAnnotation
      initializer := ← withDefault none (nullable toStr?) initializer
      typeParameters := ← withDefault [] (toList? toStr?) typeParameters
      parameters := ← withDefault [] (toList? DeclId.ofJson) parameters
      members := ← withDefault [] (toList? DeclId.ofJson) members
      heritage := ← withDefault [] (toList? toStr?) heritage
      body := ← withDefault none (nullable SymbolId.ofJson) body
      varKeyword := ← withDefault none (nullable (toChoice? VarKeyword.ofWord?)) varKeyword
      returnsValue := ← withDefault false toBool? returnsValue
      docComment := ← withDefault none (nullable toStr?) docComment
      lines := ← withDefault none (nullable LineRange.ofJson) lines
      symbol := ← withDefault none (nullable SymbolId.ofJson) symbol }
  | _ => none

/-- What the source says, without the inferred types. -/
def toJson (decl : Declaration) : Json :=
  .obj [
    ("kind", .str decl.kind.word),
    ("file", decl.file.toJson),
    ("name", .str decl.name),
    ("modifiers", .str (FlagText.write Modifiers.names decl.modifiers)),
    ("question", .bool decl.question),
    ("rest", .bool decl.rest),
    ("type_annotation", ofOption .str decl.typeAnnotation),
    ("initializer", ofOption .str decl.initializer),
    ("type_parameters", ofStrs decl.typeParameters),
    ("parameters", ofList DeclId.toJson decl.parameters),
    ("members", ofList DeclId.toJson decl.members),
    ("heritage", ofStrs decl.heritage),
    ("body", ofOption SymbolId.toJson decl.body),
    ("var_keyword", ofOption (fun keyword => .str keyword.word) decl.varKeyword),
    ("returns_value", .bool decl.returnsValue),
    ("doc_comment", ofOption .str decl.docComment),
    ("lines", ofOption LineRange.toJson decl.lines),
    ("symbol", ofOption SymbolId.toJson decl.symbol)]

def entrySchema : Schema := [["decl"], ["inferred_type"], ["inferred_return_type"]]

/-- Reads a declaration together with its inferred types. -/
def ofEntry (json : Json) : Option Declaration :=
  match slots entrySchema json with
  | some [decl, inferredType, inferredReturnType] => do
    let decl ← required ofJson decl
    return { decl with
      inferredType := ← withDefault none (nullable toStr?) inferredType
      inferredReturnType := ← withDefault none (nullable toStr?) inferredReturnType }
  | _ => none

def toEntry (decl : Declaration) : Json :=
  .obj [
    ("decl", decl.toJson),
    ("inferred_type", ofOption .str decl.inferredType),
    ("inferred_return_type", ofOption .str decl.inferredReturnType)]

end Declaration

namespace Symbol

def schema : Schema := [["name"], ["flags"], ["declarations"], ["parent"]]

/-- Reads a symbol by itself; its exports and its target are not part of it. -/
def ofJson (json : Json) : Option Symbol :=
  match slots schema json with
  | some [name, flags, declarations, parent] => do
    return {
      name := ← required toStr? name
      flags := ← required (flagsOfJson SymbolFlags.names) flags
      declarations := ← withDefault [] (toList? DeclId.ofJson) declarations
      parent := ← withDefault none (nullable SymbolId.ofJson) parent }
  | _ => none

/-- The symbol by itself, without its exports and its target. -/
def toJson (symbol : Symbol) : Json :=
  .obj [
    ("name", .str symbol.name),
    ("flags", .str (FlagText.write SymbolFlags.names symbol.flags)),
    ("declarations", ofList DeclId.toJson symbol.declarations),
    ("parent", ofOption SymbolId.toJson symbol.parent)]

def entrySchema : Schema := [["symbol"], ["exports"], ["alias_of"]]

/-- Reads a symbol together with its exports and its target. -/
def ofEntry (json : Json) : Option Symbol :=
  match slots entrySchema json with
  | some [symbol, exports, aliasOf] => do
    let symbol ← required ofJson symbol
    return { symbol with
      exports := ← withDefault [] (toList? SymbolId.ofJson) exports
      aliasOf := ← withDefault none (nullable SymbolId.ofJson) aliasOf }
  | _ => none

def toEntry (symbol : Symbol) : Json :=
  .obj [
    ("symbol", symbol.toJson),
    ("exports", ofList SymbolId.toJson symbol.exports),
    ("alias_of", ofOption SymbolId.toJson symbol.aliasOf)]

end Symbol

namespace SourceFile

def schema : Schema := [["name"], ["module_symbol"], ["statements"]]

def ofJson (json : Json) : Option SourceFile :=
  match slots schema json with
  | some [name, moduleSymbol, statements] => do
    return {
      name := ← required toStr? name
      moduleSymbol := ← withDefault none (nullable SymbolId.ofJson) moduleSymbol
      statements := ← withDefault [] (toList? SymbolId.ofJson) statements }
  | _ => none

def toJson (file : SourceFile) : Json :=
  .obj [
    ("name", .str file.name),
    ("module_symbol", ofOption SymbolId.toJson file.moduleSymbol),
    ("statements", ofList SymbolId.toJson file.statements)]

end SourceFile

inductive LoadError where
  /-- The text is no JSON, or does not have the form of a program. -/
  | unreadable
  | unsound (defect : Defect)
  deriving DecidableEq

/-- The message, given what the reader of the text has to say. -/
def LoadError.message (cause : String) : LoadError → String
  | unreadable => "invalid program snapshot: " ++ cause
  | unsound defect => defect.message

namespace Program

def schema : Schema := [["files"], ["symbols"], ["declarations"]]

def ofJson (json : Json) : Option Program :=
  match slots schema json with
  | some [files, symbols, declarations] => do
    return {
      files := (← withDefault [] (toList? SourceFile.ofJson) files).toArray
      symbols := (← withDefault [] (toList? Symbol.ofEntry) symbols).toArray
      declarations := (← withDefault [] (toList? Declaration.ofEntry) declarations).toArray }
  | _ => none

def toJson (program : Program) : Json :=
  .obj [
    ("files", ofList SourceFile.toJson program.files.toList),
    ("symbols", ofList Symbol.toEntry program.symbols.toList),
    ("declarations", ofList Declaration.toEntry program.declarations.toList)]

def save (program : Program) : String := program.toJson.write .indented

/-- Accepts a program that has the right form and no defect. -/
def accept (json : Option Json) : Except LoadError Program :=
  match json >>= ofJson with
  | none => .error .unreadable
  | some program =>
    match program.check with
    | .ok () => .ok program
    | .error defect => .error (.unsound defect)

def load (text : String) : Except LoadError Program := accept (Json.read text)

end Program

end ApiDocs
