import ApiDocs.Proofs.Blocks
import ApiDocs.Proofs.Coverage

/-! Which export a document stands for. Documents of exports come in the order in which the walk
meets the exports, so each of them is made for one entry in the list of a module, and each entry to
document has one. -/

namespace ApiDocs.Proofs.Provenance

open Blocks Coverage

/-- The document at the place is made for this export of the module: it has the same position among
all documents of exports as the export has among all that the walk from the requested files meets. -/
def MadeFor (program : Program) (options : Options) (names : List String) (docs : DocSet)
    (module : SymbolId) (export_ : ResolvedExport) (place : Nat) (doc : ExportDoc) : Prop :=
  ∃ collected visits visited, ∃ head : ModuleHead, ∃ position : Nat,
    program.collectModules names = .ok collected ∧
      program.walk options [] ((collected.map (·.symbol)).map .walk) = .ok (visits, visited) ∧
      head.symbol = module ∧ (met visits)[position]? = some (head, export_) ∧
      (exportsAt docs)[position]? = some (place, doc)

variable {program : Program} {options : Options} {names : List String} {docs : DocSet}
  {module : SymbolId} {export_ : ResolvedExport} {place : Nat} {doc : ExportDoc}

theorem MadeFor.found (made : MadeFor program options names docs module export_ place doc) :
    docs.docs[place]? = some (.export_ doc) := by
  obtain ⟨_, _, _, _, _, _, _, _, _, there⟩ := made
  exact mem_exportsAt.mp (List.mem_of_getElem? there)

theorem MadeFor.reached (made : MadeFor program options names docs module export_ place doc) :
    Reached program options names module ∧
      ∃ position, Documents program options module position export_ := by
  obtain ⟨_, _, _, head, _, found, walked, rfl, here, _⟩ := made
  obtain ⟨reached, _, documents⟩ := documents_of_met found walked (List.mem_of_getElem? here)
  exact ⟨reached, documents⟩

section Runs

variable (returned : program.extract options names = .ok docs) (small : docs.size < UInt32.size)

include returned small

theorem extract_emitted :
    ∃ collected visits visited, program.collectModules names = .ok collected ∧
      program.walk options [] ((collected.map (·.symbol)).map .walk) = .ok (visits, visited) ∧
      Emitted program options visits docs := by
  obtain ⟨emission, ran, rfl⟩ := extract_ok_iff.mp returned
  obtain ⟨collected, visits, visited, found, walked, _, emitted⟩ := run_emitted ran (Nat.le_of_lt small)
  exact ⟨collected, visits, visited, found, walked, emitted⟩

/-- Every document of an export is made for an export. -/
theorem exists_madeFor (found : docs.docs[place]? = some (.export_ doc)) :
    ∃ module export_, MadeFor program options names docs module export_ place doc := by
  obtain ⟨collected, visits, visited, collects, walked, emitted⟩ := extract_emitted returned small
  obtain ⟨position, there⟩ := List.getElem?_of_mem (mem_exportsAt.mpr found)
  have inside : position < (met visits).length := by
    rw [emitted.exports.length_eq]
    exact (List.getElem?_eq_some_iff.mp there).1
  exact ⟨_, _, collected, visits, visited, (met visits)[position].1, position, collects, walked, rfl,
    List.getElem?_eq_getElem inside, there⟩

/-- Every export that a reached module documents has a document. -/
theorem exists_document (reached : Reached program options names module) {position : Nat}
    (documents : Documents program options module position export_) :
    ∃ place doc, MadeFor program options names docs module export_ place doc := by
  obtain ⟨collected, visits, visited, collects, walked, emitted⟩ := extract_emitted returned small
  obtain ⟨head, same, meets⟩ := met_of_documents collects walked reached documents
  obtain ⟨position, here⟩ := List.getElem?_of_mem meets
  have inside : position < (exportsAt docs).length := by
    rw [← emitted.exports.length_eq]
    exact (List.getElem?_eq_some_iff.mp here).1
  exact ⟨_, _, collected, visits, visited, head, position, collects, walked, same, here,
    List.getElem?_eq_getElem inside⟩

/-- A document says what the description of the export's target says. -/
theorem MadeFor.stands (made : MadeFor program options names docs module export_ place doc) :
    ∃ head, program.moduleId options.baseDir module = .ok head.id ∧
      Stands program options docs (head, export_) (place, doc) := by
  obtain ⟨collected, visits, visited, collects, walked, emitted⟩ := extract_emitted returned small
  obtain ⟨_, _, _, head, position, again, walkedAgain, rfl, here, there⟩ := made
  rw [collects] at again
  cases again
  rw [walked] at walkedAgain
  cases walkedAgain
  obtain ⟨_, identified, _⟩ := documents_of_met collects walked (List.mem_of_getElem? here)
  exact ⟨head, identified, related_at emitted.exports here there⟩

theorem MadeFor.described (made : MadeFor program options names docs module export_ place doc) :
    ∃ description, program.describe options export_.target = .ok description ∧
      program.moduleId options.baseDir module = .ok doc.moduleId ∧
      doc = description.exportDoc (docAt place) doc.module doc.moduleId export_.name ∧
      Block docs (place, doc) description.members := by
  obtain ⟨head, identified, description, home, described, same, block⟩ := made.stands returned small
  have named : doc.moduleId = head.id := congrArg ExportDoc.moduleId same
  have placed : doc.module = home := congrArg ExportDoc.module same
  refine ⟨description, described, ?_, ?_, block⟩
  · rw [named]
    exact identified
  · rw [named, placed]
    exact same

end Runs

/-- An entry in the list of a module: its name is that of the listed symbol, its target the one
behind that symbol. -/
theorem listed_of_documents {position : Nat}
    (documents : Documents program options module position export_) :
    ∃ owner listed, program.symbol module = .ok owner ∧ owner.exports[position]? = some export_.symbol ∧
      program.symbol export_.symbol = .ok listed ∧ export_.name = listed.name ∧
      program.resolveAlias export_.symbol = .ok export_.target := by
  obtain ⟨exports, resolved, here, _⟩ := documents
  obtain ⟨owner, found, rest⟩ := bind_ok_iff.mp resolved
  have related := mapM_ok_iff.mp rest
  have inside : position < owner.exports.length := by
    rw [related.length_eq]
    exact (List.getElem?_eq_some_iff.mp here).1
  have there := List.getElem?_eq_getElem inside
  obtain ⟨listed, looked, rest⟩ := bind_ok_iff.mp (related_at related there here)
  obtain ⟨target, aimed, built⟩ := bind_ok_iff.mp rest
  cases built
  exact ⟨owner, listed, found, there, looked, rfl, aimed⟩

end ApiDocs.Proofs.Provenance
