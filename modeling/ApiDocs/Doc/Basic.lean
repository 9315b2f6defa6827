import ApiDocs.Member.Basic

/-!
Documents: modules, exports and members in one list, which refer to each other by their place in
it. A module lists its exports, an export its members, and a member names its owner.
-/

namespace ApiDocs

structure DocId where
  index : UInt32
  deriving DecidableEq

instance : ToString DocId := ⟨fun id => toString id.index.toNat⟩

structure MemberDoc extends Member where
  owner : DocId
  deriving DecidableEq

inductive ExportKind where
  | class_ (typeParameters heritage : List String) (isAbstract : Bool)
      (constructor : Option DocId) (members statics : List DocId)
  | interface (typeParameters heritage : List String) (members : List DocId)
      (callMember newMember : Option MemberDoc)
  | function (signature : Signature)
  | enum (members : List DocId)
  | variable_ (keyword : VarKeyword) (returnType : String)
  | typeAlias (typeParameters : List String) (definition : Option String)
  /-- No declaration was found. -/
  | unknown
  deriving DecidableEq

namespace ExportKind

def docType : ExportKind → String
  | class_ .. => "class"
  | interface .. => "interface"
  | function .. => "function"
  | enum .. => "enum"
  | variable_ .. => "variable"
  | typeAlias .. => "type-alias"
  | unknown => "unknown"

/-- The members of an instance, or of an enum. -/
def members : ExportKind → List DocId
  | class_ _ _ _ _ members _ => members
  | interface _ _ members _ _ => members
  | enum members => members
  | _ => []

def callMember? : ExportKind → Option MemberDoc
  | interface _ _ _ callMember _ => callMember
  | _ => none

def newMember? : ExportKind → Option MemberDoc
  | interface _ _ _ _ newMember => newMember
  | _ => none

def returnType? : ExportKind → Option String
  | function signature => some signature.returnType
  | variable_ _ returnType => some returnType
  | _ => none

end ExportKind

structure ExportDoc where
  name : String
  module : DocId
  moduleId : String
  /-- The module that declares it, if it is another one. -/
  declaredIn : Option String
  content : Option String
  location : Option SourceLocation
  kind : ExportKind
  deriving DecidableEq

structure ModuleDoc where
  id : String
  name : String
  fileName : String
  exports : List DocId
  deriving DecidableEq

inductive Doc where
  | module (doc : ModuleDoc)
  | export_ (doc : ExportDoc)
  | member (doc : MemberDoc)
  deriving DecidableEq

namespace Doc

def name : Doc → String
  | module doc => doc.name
  | export_ doc => doc.name
  | member doc => doc.name

def docType : Doc → String
  | module _ => "module"
  | export_ doc => doc.kind.docType
  | member _ => "member"

def module? : Doc → Option ModuleDoc
  | module doc => some doc
  | _ => none

def export? : Doc → Option ExportDoc
  | export_ doc => some doc
  | _ => none

def member? : Doc → Option MemberDoc
  | member doc => some doc
  | _ => none

end Doc

/-- All documents of a run, in the order in which they were made. -/
structure DocSet where
  docs : Array Doc := #[]
  deriving DecidableEq

namespace DocSet

def size (set : DocSet) : Nat := set.docs.size

def nextId (set : DocSet) : DocId := ⟨UInt32.ofNat set.docs.size⟩

def push (set : DocSet) (doc : Doc) : DocSet := ⟨set.docs.push doc⟩

def append (set : DocSet) (docs : List Doc) : DocSet := ⟨set.docs ++ docs.toArray⟩

def get? (set : DocSet) (id : DocId) : Option Doc := set.docs[id.index.toNat]?

def modules (set : DocSet) : List ModuleDoc := set.docs.toList.filterMap Doc.module?

def exports (set : DocSet) : List ExportDoc := set.docs.toList.filterMap Doc.export?

def members (set : DocSet) : List MemberDoc := set.docs.toList.filterMap Doc.member?

def ofType (set : DocSet) (docType : String) : List Doc :=
  set.docs.toList.filter (·.docType == docType)

def find? (set : DocSet) (docType name : String) : Option Doc :=
  set.docs.toList.find? fun doc => doc.docType == docType && doc.name == name

def module? (set : DocSet) (id : String) : Option ModuleDoc := set.modules.find? (·.id == id)

def export? (set : DocSet) (id : DocId) : Option ExportDoc := set.get? id >>= Doc.export?

def member? (set : DocSet) (id : DocId) : Option MemberDoc := set.get? id >>= Doc.member?

def resolveMembers (set : DocSet) (ids : List DocId) : List MemberDoc := ids.filterMap set.member?

def exportsOf (set : DocSet) (module : ModuleDoc) : List ExportDoc :=
  module.exports.filterMap set.export?

end DocSet

end ApiDocs
