import ApiDocs.Doc.ModuleTable
import ApiDocs.Extraction.Log
import ApiDocs.Extraction.Walk

/-!
The documents of a walk. Every export is placed after all earlier documents, with its members right
behind it, and then added to the list of its module.
-/

namespace ApiDocs

def DocId.plus (id : DocId) (distance : Nat) : DocId := ⟨id.index + UInt32.ofNat distance⟩

namespace Description

def placedMembers (description : Description) (id : DocId) : List (Member × DocId) :=
  description.members.zipIdx.map fun (member, index) => (member, id.plus (index + 1))

def memberDocs (description : Description) (id : DocId) : List Doc :=
  description.members.map fun member => .member { member with owner := id }

/-- The kind of the export, given its id: its members are listed by their ids. Of several
constructors the last is listed. -/
def placedKind (description : Description) (id : DocId) : ExportKind :=
  let placed := description.placedMembers id
  match description.form with
  | .class_ typeParameters heritage isAbstract =>
    let constructors := placed.filter fun (member, _) => member.kind = .constructor
    let others := placed.filter fun (member, _) => member.kind ≠ .constructor
    .class_ typeParameters heritage isAbstract
      (constructors.getLast?.map (·.2))
      ((others.filter (!·.1.isStatic)).map (·.2))
      ((others.filter (·.1.isStatic)).map (·.2))
  | .interface typeParameters heritage callMember newMember =>
    .interface typeParameters heritage (placed.map (·.2))
      (callMember.map fun member => { member with owner := id })
      (newMember.map fun member => { member with owner := id })
  | .function signature => .function signature
  | .enum => .enum (placed.map (·.2))
  | .variable_ keyword returnType => .variable_ keyword returnType
  | .typeAlias typeParameters definition => .typeAlias typeParameters definition
  | .unknown => .unknown

/-- The document of an export by the module with the given id and document. -/
def exportDoc (description : Description) (id module : DocId) (moduleId name : String) :
    ExportDoc where
  name
  module
  moduleId
  declaredIn := description.owningModule.filter (· ≠ moduleId)
  content := description.content
  location := description.location
  kind := description.placedKind id

end Description

structure Emission where
  docs : DocSet := {}
  modules : ModuleTable := {}
  log : List LogEntry := []

namespace Emission

/-- Makes sure that a module has a document. -/
def open_ (emission : Emission) (head : ModuleHead) : DocId × Emission :=
  let (doc, docs, modules) :=
    emission.modules.getOrInsert emission.docs head.id head.name head.fileName
  (doc, { emission with docs, modules })

def report (emission : Emission) (entry : LogEntry) : Emission :=
  { emission with log := emission.log ++ [entry] }

/-- Reports an export by what describing it came to. -/
def entryFor (description : Description) (kind : ExportKind) (moduleId name : String) : LogEntry :=
  if description.resolved then .extracted name kind.docType else .unresolved name moduleId

def add (emission : Emission) (head : ModuleHead) (name : String) (description : Description) :
    Emission :=
  let (module, emission) := emission.open_ head
  let id := emission.docs.nextId
  let doc := description.exportDoc id module head.id name
  let docs := (emission.docs.push (.export_ doc)).append (description.memberDocs id)
  { emission with docs := docs.appendExport module id }.report
    (entryFor description doc.kind head.id name)

def step (program : Program) (options : Options) (emission : Emission) :
    Visit → Except Fault Emission
  | .enter head => .ok ((emission.open_ head).2.report (.opened head.id))
  | .meet head export_ => do
    return emission.add head export_.name (← program.describe options export_.target)
  | .leave head => .ok (emission.report (.closed head.id))

end Emission

end ApiDocs
