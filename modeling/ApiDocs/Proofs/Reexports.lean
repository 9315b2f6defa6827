import ApiDocs.Proofs.Descriptions
import ApiDocs.Proofs.FileOrder
import ApiDocs.Proofs.Provenance
import ApiDocs.Proofs.Trails

/-! Exports of one symbol by several modules. Documents of a symbol say the same about it, whatever
chains of aliases lead to it. Only the name and the module are those of the export. -/

namespace ApiDocs.Proofs.Reexports

open Trails Blocks Coverage Descriptions FileOrder Provenance

section Aliases

variable {program : Program} {id target : SymbolId}

/-- The chain of aliases from a symbol leads to one that is no alias. -/
inductive Leads (program : Program) : SymbolId → SymbolId → Prop where
  | here {id symbol} (found : program.symbol id = .ok symbol) (own : symbol.isAlias = false) :
      Leads program id id
  | link {id symbol next target} (found : program.symbol id = .ok symbol) (alias_ : symbol.isAlias = true)
      (named : symbol.aliasOf = some next) (rest : Leads program next target) : Leads program id target

/-- The symbol that an alias stands for. -/
def standsFor (symbol : Symbol) : Except Fault (Option SymbolId) :=
  .ok (if symbol.isAlias then symbol.aliasOf else none)

theorem Leads.ends (leads : Leads program id target) :
    ∃ steps symbol, Ends program.symbolSource standsFor steps id (target, symbol) ∧
      symbol.isAlias = false := by
  induction leads with
  | @here id symbol found own =>
    exact ⟨0, symbol, .here found (by simp [standsFor, own]), own⟩
  | @link id symbol next target found alias_ named rest ih =>
    obtain ⟨steps, final, ends, own⟩ := ih
    exact ⟨steps + 1, final, .link found (by simp [standsFor, alias_, named]) ends, own⟩

theorem leads_of_ends {steps : Nat} {final : SymbolId × Symbol}
    (ends : Ends program.symbolSource standsFor steps id final) (own : final.2.isAlias = false) :
    Leads program id final.1 := by
  induction ends with
  | here found last => exact .here found own
  | @link steps id symbol next final found led rest ih =>
    cases alias_ : symbol.isAlias with
    | false => simp [standsFor, alias_] at led
    | true => exact .link found alias_ (by simpa [standsFor, alias_] using led) (ih own)

theorem resolveAlias_some_iff :
    program.resolveAlias id = .ok (some target) ↔ Leads program id target := by
  constructor
  · intro resolved
    obtain ⟨chain, followed, rest⟩ := bind_ok_iff.mp resolved
    split at rest
    next last symbol reached =>
      cases own : symbol.isAlias with
      | true => simp [own, pure, Except.pure] at rest
      | false =>
        simp only [own, Bool.false_eq_true, if_false] at rest
        cases rest
        obtain ⟨steps, ends⟩ := ends_of_follow followed reached (by simp [own])
        exact leads_of_ends ends own
    · cases rest
  · intro leads
    obtain ⟨steps, symbol, ends, own⟩ := leads.ends
    obtain ⟨chain, followed, reached⟩ := follow_of_ends ends [] (by simp)
    refine bind_ok_iff.mpr ⟨chain, followed, ?_⟩
    simp [reached, own, pure, Except.pure]

end Aliases

section Documents

variable {program : Program} {options : Options} {names : List String} {docs : DocSet}
  {module : SymbolId} {export_ : ResolvedExport} {place : Nat} {doc : ExportDoc}

/-- The target of a documented export is the symbol to which its chain of aliases leads. -/
theorem target_iff {position : Nat} (documents : Documents program options module position export_)
    {target : SymbolId} : export_.target = some target ↔ Leads program export_.symbol target := by
  obtain ⟨_, _, _, _, _, _, aimed⟩ := listed_of_documents documents
  rw [← resolveAlias_some_iff, aimed]
  simp

theorem docType_placedKind (description : Description) (id other : DocId) :
    (description.placedKind id).docType = (description.placedKind other).docType := by
  unfold Description.placedKind
  cases description.form <;> rfl

/-- Two documents, of one run or of two, say the same about what is exported. Where they list
members the members themselves are compared, not their places. -/
structure Agree (docs : DocSet) (entry : Nat × ExportDoc) (others : DocSet) (other : Nat × ExportDoc) :
    Prop where
  docType : entry.2.kind.docType = other.2.kind.docType
  content : entry.2.content = other.2.content
  location : entry.2.location = other.2.location
  kind : shownKind docs entry.2.kind = shownKind others other.2.kind
  members : (docs.members.filter (·.owner = docAt entry.1)).map (·.toMember) =
    (others.members.filter (·.owner = docAt other.1)).map (·.toMember)

section Runs

variable (returned : program.extract options names = .ok docs) (small : docs.size < UInt32.size)

include returned small

theorem agree_of_target {last : List String} {others : DocSet} {elsewhere : SymbolId}
    {again : ResolvedExport} {otherPlace : Nat} {other : ExportDoc}
    (made : MadeFor program options names docs module export_ place doc)
    (returnedToo : program.extract options last = .ok others) (smallToo : others.size < UInt32.size)
    (madeToo : MadeFor program options last others elsewhere again otherPlace other)
    (target : export_.target = again.target) :
    Agree docs (place, doc) others (otherPlace, other) := by
  obtain ⟨description, described, _, same, block⟩ := made.described returned small
  obtain ⟨descriptionToo, describedToo, _, sameToo, blockToo⟩ := madeToo.described returnedToo smallToo
  rw [target, describedToo] at described
  cases described
  have kind : doc.kind = description.placedKind (docAt place) := congrArg ExportDoc.kind same
  have kindToo : other.kind = description.placedKind (docAt otherPlace) := congrArg ExportDoc.kind sameToo
  constructor
  · simp only [kind, kindToo]
    exact docType_placedKind description _ _
  · exact (congrArg ExportDoc.content same).trans (congrArg ExportDoc.content sameToo).symm
  · exact (congrArg ExportDoc.location same).trans (congrArg ExportDoc.location sameToo).symm
  · simp only [kind, kindToo]
    rw [shownKind_placed block small, shownKind_placed blockToo smallToo]
  · rw [block.owned, blockToo.owned]

/-- What is not unknown names the module to which the target belongs, unless it is the exporting one. -/
theorem declaredIn_of_known (made : MadeFor program options names docs module export_ place doc)
    (known : doc.kind ≠ .unknown) :
    ∃ target origin, export_.target = some target ∧
      program.owningModuleId options.baseDir target = .ok (some origin) ∧
      doc.declaredIn = if origin = doc.moduleId then none else some origin := by
  obtain ⟨description, described, _, same, _⟩ := made.described returned small
  have kind : doc.kind = description.placedKind (docAt place) := congrArg ExportDoc.kind same
  rw [kind, ne_eq, unknown_placedKind] at known
  obtain ⟨target, origin, aimed, owned, belongs⟩ := owningModule_of_known described known
  refine ⟨target, origin, aimed, owned, ?_⟩
  have declared : doc.declaredIn = description.owningModule.filter (· ≠ doc.moduleId) :=
    congrArg ExportDoc.declaredIn same
  rw [declared, belongs]
  by_cases own : origin = doc.moduleId <;> simp [Option.filter, own]

/-- The name of a document is that of the symbol which its module lists. -/
theorem name_of_listed (made : MadeFor program options names docs module export_ place doc) :
    ∃ owner listed, program.symbol module = .ok owner ∧ export_.symbol ∈ owner.exports ∧
      program.symbol export_.symbol = .ok listed ∧ doc.name = listed.name := by
  obtain ⟨_, position, documents⟩ := made.reached
  obtain ⟨owner, listed, found, here, foundListed, named, _⟩ := listed_of_documents documents
  obtain ⟨description, _, _, same, _⟩ := made.described returned small
  have name : doc.name = export_.name := congrArg ExportDoc.name same
  exact ⟨owner, listed, found, List.mem_of_getElem? here, foundListed, name.trans named⟩

end Runs

/-- Every document of an export is made for an entry in the list of a module. It has the name of the
listed symbol and the id of that module, and if it is not unknown it names the module to which the
target belongs, if that is another one. Two documents agree in all else if the chains of aliases from
their entries lead to the same symbol. -/
theorem extract_reexports {first last : List String} {others : DocSet}
    (returned : program.extract options first = .ok docs) (small : docs.size < UInt32.size)
    (returnedToo : program.extract options last = .ok others) (smallToo : others.size < UInt32.size) :
    (∀ (place : Nat) (doc : ExportDoc), docs.docs[place]? = some (.export_ doc) →
      ∃ module export_, MadeFor program options first docs module export_ place doc) ∧
    (∀ module export_ place doc, MadeFor program options first docs module export_ place doc →
      program.moduleId options.baseDir module = .ok doc.moduleId ∧
      (∃ owner listed, program.symbol module = .ok owner ∧ export_.symbol ∈ owner.exports ∧
        program.symbol export_.symbol = .ok listed ∧ doc.name = listed.name) ∧
      (doc.kind ≠ .unknown → ∃ target origin, Leads program export_.symbol target ∧
        program.owningModuleId options.baseDir target = .ok (some origin) ∧
        doc.declaredIn = if origin = doc.moduleId then none else some origin)) ∧
    ∀ module export_ place doc elsewhere again otherPlace other target,
      MadeFor program options first docs module export_ place doc →
      MadeFor program options last others elsewhere again otherPlace other →
      Leads program export_.symbol target → Leads program again.symbol target →
      Agree docs (place, doc) others (otherPlace, other) := by
  refine ⟨fun place doc => exists_madeFor returned small, ?_, ?_⟩
  · intro module export_ place doc made
    obtain ⟨_, _, identified, _, _⟩ := made.described returned small
    refine ⟨identified, name_of_listed returned small made, ?_⟩
    intro known
    obtain ⟨target, origin, aimed, owned, declared⟩ := declaredIn_of_known returned small made known
    obtain ⟨_, _, documents⟩ := made.reached
    exact ⟨target, origin, (target_iff documents).mp aimed, owned, declared⟩
  · intro module export_ place doc elsewhere again otherPlace other target made madeToo leads leadsToo
    obtain ⟨_, _, documents⟩ := made.reached
    obtain ⟨_, _, documentsToo⟩ := madeToo.reached
    have aimed := (target_iff documents).mpr leads
    have aimedToo := (target_iff documentsToo).mpr leadsToo
    exact agree_of_target returned small made returnedToo smallToo madeToo (aimed.trans aimedToo.symm)

/-- A class that another module exports under a new name, by an alias of an alias. -/
def renamed : Program where
  files := #[{ name := "a", moduleSymbol := some ⟨0⟩ }, { name := "b", moduleSymbol := some ⟨2⟩ }]
  symbols := #[
    { name := "a", flags := SymbolFlags.valueModule, exports := [⟨1⟩] },
    { name := "C", flags := SymbolFlags.class_, declarations := [⟨0⟩], parent := some ⟨0⟩ },
    { name := "b", flags := SymbolFlags.valueModule, exports := [⟨3⟩] },
    { name := "D", flags := SymbolFlags.alias_, parent := some ⟨2⟩, aliasOf := some ⟨4⟩ },
    { name := "E", flags := SymbolFlags.alias_, aliasOf := some ⟨1⟩ }]
  declarations := #[
    { kind := .class_, file := ⟨0⟩, name := "C", members := [⟨1⟩] },
    { kind := .property, file := ⟨0⟩, name := "x" }]

def renamedDocs (file : String) : DocSet := (renamed.extract {} [file]).toOption.getD {}

theorem extract_reexports_renamed :
    renamed.extract {} ["a"] = .ok (renamedDocs "a") ∧ renamed.extract {} ["b"] = .ok (renamedDocs "b") ∧
      Leads renamed ⟨1⟩ ⟨1⟩ ∧ Leads renamed ⟨3⟩ ⟨1⟩ ∧
      ∃ place doc otherPlace other,
        MadeFor renamed {} ["a"] (renamedDocs "a") ⟨0⟩ ⟨"C", ⟨1⟩, some ⟨1⟩⟩ place doc ∧
        MadeFor renamed {} ["b"] (renamedDocs "b") ⟨2⟩ ⟨"D", ⟨3⟩, some ⟨1⟩⟩ otherPlace other ∧
        Agree (renamedDocs "a") (place, doc) (renamedDocs "b") (otherPlace, other) := by
  have returned : renamed.extract {} ["a"] = .ok (renamedDocs "a") := by decide +kernel
  have returnedToo : renamed.extract {} ["b"] = .ok (renamedDocs "b") := by decide +kernel
  have small : (renamedDocs "a").size < UInt32.size := by decide +kernel
  have smallToo : (renamedDocs "b").size < UInt32.size := by decide +kernel
  have found : renamed.collectModules ["a"] = .ok [⟨⟨0⟩, ⟨0⟩⟩] := by decide +kernel
  have foundToo : renamed.collectModules ["b"] = .ok [⟨⟨1⟩, ⟨2⟩⟩] := by decide +kernel
  have exports : renamed.resolveExports ⟨0⟩ = .ok [⟨"C", ⟨1⟩, some ⟨1⟩⟩] := by decide +kernel
  have exportsToo : renamed.resolveExports ⟨2⟩ = .ok [⟨"D", ⟨3⟩, some ⟨1⟩⟩] := by decide +kernel
  have documents : Documents renamed {} ⟨0⟩ 0 ⟨"C", ⟨1⟩, some ⟨1⟩⟩ :=
    ⟨_, exports, rfl, by decide +kernel⟩
  have documentsToo : Documents renamed {} ⟨2⟩ 0 ⟨"D", ⟨3⟩, some ⟨1⟩⟩ :=
    ⟨_, exportsToo, rfl, by decide +kernel⟩
  obtain ⟨place, doc, made⟩ := exists_document returned small
    ⟨_, found, _, List.mem_cons_self, .refl⟩ documents
  obtain ⟨otherPlace, other, madeToo⟩ := exists_document returnedToo smallToo
    ⟨_, foundToo, _, List.mem_cons_self, .refl⟩ documentsToo
  have own : Leads renamed ⟨1⟩ ⟨1⟩ := .here rfl rfl
  have leads : Leads renamed ⟨3⟩ ⟨1⟩ := .link rfl rfl rfl (.link rfl rfl rfl own)
  have agree := (extract_reexports returned small returnedToo smallToo).2.2
  exact ⟨returned, returnedToo, own, leads, place, doc, otherPlace, other, made, madeToo,
    agree _ _ _ _ _ _ _ _ _ made madeToo own leads⟩

end Documents

end ApiDocs.Proofs.Reexports
