import ApiDocs.Doc.Basic
import ApiDocs.Json.Record
import ApiDocs.Json.Write
import ApiDocs.Program.Snapshot

/-!
Documents as JSON.
-/

namespace ApiDocs

open Json

namespace DocId

def toJson (id : DocId) : Json := ofWord id.index

def ofJson (json : Json) : Option DocId := (toWord? json).map (⟨·⟩)

end DocId

namespace Access

def all : List Access := [public_, protected_, private_]

def word : Access → String
  | public_ => "public"
  | protected_ => "protected"
  | private_ => "private"

def ofWord? (word : String) : Option Access := all.find? (·.word == word)

end Access

namespace MemberKind

def all : List MemberKind :=
  [property, method, constructor, getAccessor, setAccessor, enumMember, callSignature,
    constructSignature]

def word : MemberKind → String
  | property => "property"
  | method => "method"
  | constructor => "constructor"
  | getAccessor => "get-accessor"
  | setAccessor => "set-accessor"
  | enumMember => "enum-member"
  | callSignature => "call-signature"
  | constructSignature => "construct-signature"

def ofWord? (word : String) : Option MemberKind := all.find? (·.word == word)

end MemberKind

def SourceLocation.toJson (location : SourceLocation) : Json :=
  .obj [
    ("fileName", .str location.fileName),
    ("startLine", ofWord location.startLine),
    ("endLine", ofWord location.endLine)]

def ParameterDoc.toJson (parameter : ParameterDoc) : Json :=
  .obj [
    ("name", .str parameter.name),
    ("type", .str parameter.type),
    ("optional", .bool parameter.optional),
    ("defaultValue", ofOption .str parameter.defaultValue)]

def Signature.fields (signature : Signature) : List (String × Json) :=
  [("typeParameters", ofStrs signature.typeParameters),
    ("parameters", ofList ParameterDoc.toJson signature.parameters),
    ("returnType", .str signature.returnType)]

def Signature.toJson (signature : Signature) : Json := .obj signature.fields

def MemberDoc.toJson (doc : MemberDoc) : Json :=
  .obj [
    ("docType", .str "member"),
    ("name", .str doc.name),
    ("owner", doc.owner.toJson),
    ("memberKind", .str doc.kind.word),
    ("access", .str doc.access.word),
    ("isStatic", .bool doc.isStatic),
    ("optional", .bool doc.optional),
    ("returnType", .str doc.returnType),
    ("parameters", ofOption (ofList ParameterDoc.toJson) doc.parameters),
    ("typeParameters", ofStrs doc.typeParameters),
    ("content", ofOption .str doc.content),
    ("location", ofOption SourceLocation.toJson doc.location)]

/-- The fields that only exports of this kind have. -/
def ExportKind.fields : ExportKind → List (String × Json)
  | class_ typeParameters heritage isAbstract constructor members statics => [
      ("typeParameters", ofStrs typeParameters),
      ("heritage", ofStrs heritage),
      ("isAbstract", .bool isAbstract),
      ("constructor", ofOption DocId.toJson constructor),
      ("members", ofList DocId.toJson members),
      ("statics", ofList DocId.toJson statics)]
  | interface typeParameters heritage members callMember newMember => [
      ("typeParameters", ofStrs typeParameters),
      ("heritage", ofStrs heritage),
      ("members", ofList DocId.toJson members),
      ("callMember", ofOption MemberDoc.toJson callMember),
      ("newMember", ofOption MemberDoc.toJson newMember)]
  | function signature => signature.fields
  | enum members => [("members", ofList DocId.toJson members)]
  | variable_ keyword returnType => [
      ("keyword", .str keyword.word),
      ("returnType", .str returnType)]
  | typeAlias typeParameters definition => [
      ("typeParameters", ofStrs typeParameters),
      ("typeDefinition", ofOption .str definition)]
  | unknown => []

def ExportDoc.toJson (doc : ExportDoc) : Json :=
  .obj ([
    ("name", .str doc.name),
    ("module", doc.module.toJson),
    ("moduleId", .str doc.moduleId),
    ("originalModule", ofOption .str doc.declaredIn),
    ("content", ofOption .str doc.content),
    ("location", ofOption SourceLocation.toJson doc.location),
    ("docType", .str doc.kind.docType)] ++ doc.kind.fields)

def ModuleDoc.toJson (doc : ModuleDoc) : Json :=
  .obj [
    ("docType", .str "module"),
    ("id", .str doc.id),
    ("name", .str doc.name),
    ("fileName", .str doc.fileName),
    ("exports", ofList DocId.toJson doc.exports)]

def Doc.toJson : Doc → Json
  | module doc => doc.toJson
  | export_ doc => doc.toJson
  | member doc => doc.toJson

namespace DocSet

def toJson (set : DocSet) : Json := ofList Doc.toJson set.docs.toList

def write (set : DocSet) (layout : Json.Layout) : String := set.toJson.write layout

end DocSet

end ApiDocs
