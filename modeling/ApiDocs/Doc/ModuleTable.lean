import ApiDocs.Doc.Basic

/-!
The documents of modules by module id. Modules with the same id share one document.
-/

namespace ApiDocs

/-- The document of each module id, the latest first. -/
structure ModuleTable where
  entries : List (String × DocId) := []

namespace ModuleTable

def get? (table : ModuleTable) (id : String) : Option DocId := table.entries.lookup id

/-- The document for a module id, which is added if there is none yet. -/
def getOrInsert (table : ModuleTable) (docs : DocSet) (id name fileName : String) :
    DocId × DocSet × ModuleTable :=
  match table.get? id with
  | some doc => (doc, docs, table)
  | none =>
    (docs.nextId, docs.push (.module { id, name, fileName, exports := [] }),
      ⟨(id, docs.nextId) :: table.entries⟩)

end ModuleTable

def ModuleDoc.addExport (doc : ModuleDoc) (id : DocId) : ModuleDoc :=
  { doc with exports := doc.exports ++ [id] }

def DocSet.appendExport (set : DocSet) (module id : DocId) : DocSet where
  docs := set.docs.modify module.index.toNat fun doc =>
    match doc with
    | .module doc => .module (doc.addExport id)
    | doc => doc

end ApiDocs
