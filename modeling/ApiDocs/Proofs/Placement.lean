import ApiDocs.Extraction
import ApiDocs.Proofs.Outcome

/-! What one step of an emission changes. A module is opened by a document at the end of the list,
unless its id has one; an export goes to the end with its members behind it, and one module document
then lists it. Every other document stays as it is. -/

namespace ApiDocs.Proofs

def docAt (index : Nat) : DocId := ⟨UInt32.ofNat index⟩

theorem docAt_toNat {index : Nat} (inside : index < UInt32.size) :
    (docAt index).index.toNat = index := by
  simp only [docAt, UInt32.toNat_ofNat']
  exact Nat.mod_eq_of_lt inside

theorem docAt_index (id : DocId) : docAt id.index.toNat = id := by
  simp [docAt]

theorem nextId_eq (docs : DocSet) : docs.nextId = docAt docs.size := rfl

/-- The documents with an export and its members at the end, listed by the module. -/
def placed (docs : DocSet) (module : DocId) (doc : ExportDoc) (members : List MemberDoc) : DocSet :=
  ((docs.push (.export_ doc)).append (members.map .member)).appendExport module docs.nextId

theorem size_placed (docs : DocSet) (module : DocId) (doc : ExportDoc) (members : List MemberDoc) :
    (placed docs module doc members).size = docs.size + 1 + members.length := by
  simp only [placed, DocSet.size, DocSet.push, DocSet.append, DocSet.appendExport, Array.size_modify,
    Array.size_append, Array.size_push, List.size_toArray, List.length_map]

theorem getElem?_placed {docs : DocSet} {module : DocId} {head : ModuleDoc}
    (opened : docs.get? module = some (.module head)) (doc : ExportDoc) (members : List MemberDoc)
    (index : Nat) :
    (placed docs module doc members).docs[index]? =
      if index = module.index.toNat then some (.module (head.addExport docs.nextId))
      else if index < docs.size then docs.docs[index]?
      else if index = docs.size then some (.export_ doc)
      else (members[index - docs.size - 1]?).map .member := by
  obtain ⟨inside, found⟩ := Array.getElem?_eq_some_iff.mp opened
  have size : docs.docs.size = docs.size := rfl
  simp only [placed, DocSet.appendExport, DocSet.append, DocSet.push]
  rw [Array.getElem?_modify]
  by_cases selected : index = module.index.toNat
  · subst selected
    rw [Array.getElem?_append_left (by simp; omega), Array.getElem?_push_lt inside, found]
    simp
  · rw [if_neg (Ne.symm selected), if_neg selected]
    by_cases old : index < docs.size
    · rw [if_pos old, Array.getElem?_append_left (by simp; omega), Array.getElem?_push, size,
        if_neg (Nat.ne_of_lt old)]
    · rw [if_neg old]
      by_cases new : index = docs.size
      · rw [if_pos new, Array.getElem?_append_left (by simp; omega), Array.getElem?_push, size,
          if_pos new]
      · rw [if_neg new, Array.getElem?_append_right (by simp; omega)]
        simp [size, Nat.sub_sub]

/-- A document of the new list is the module that lists the export, an old document, the export or
one of its members. -/
theorem placed_cases {docs : DocSet} {module : DocId} {head : ModuleDoc}
    (opened : docs.get? module = some (.module head)) {doc : ExportDoc} {members : List MemberDoc}
    {index : Nat} {result : Doc}
    (found : (placed docs module doc members).docs[index]? = some result) :
    index = module.index.toNat ∧ result = .module (head.addExport docs.nextId) ∨
      index ≠ module.index.toNat ∧ docs.docs[index]? = some result ∨
      index = docs.size ∧ result = .export_ doc ∨
      docs.size < index ∧ ∃ member ∈ members, result = .member member := by
  rw [getElem?_placed opened] at found
  split at found
  · exact .inl ⟨‹_›, (Option.some.inj found).symm⟩
  next other =>
    split at found
    · exact .inr (.inl ⟨other, found⟩)
    next notOld =>
      split at found
      · exact .inr (.inr (.inl ⟨‹_›, (Option.some.inj found).symm⟩))
      next notNew =>
        obtain ⟨member, inside, same⟩ := Option.map_eq_some_iff.mp found
        exact .inr (.inr (.inr ⟨by omega, member, List.mem_of_getElem? inside, same.symm⟩))

theorem placed_module_cases {docs : DocSet} {module : DocId} {head other : ModuleDoc}
    (opened : docs.get? module = some (.module head)) {doc : ExportDoc} {members : List MemberDoc}
    {index : Nat} (found : (placed docs module doc members).docs[index]? = some (.module other)) :
    index = module.index.toNat ∧ other = head.addExport docs.nextId ∨
      docs.docs[index]? = some (.module other) := by
  obtain ⟨selected, same⟩ | ⟨_, old⟩ | ⟨_, same⟩ | ⟨_, _, _, same⟩ := placed_cases opened found
  · exact .inl ⟨selected, Doc.module.inj same⟩
  · exact .inr old
  · cases same
  · cases same

theorem placed_export_cases {docs : DocSet} {module : DocId} {head : ModuleDoc} {other : ExportDoc}
    (opened : docs.get? module = some (.module head)) {doc : ExportDoc} {members : List MemberDoc}
    {index : Nat} (found : (placed docs module doc members).docs[index]? = some (.export_ other)) :
    index = docs.size ∧ other = doc ∨ docs.docs[index]? = some (.export_ other) := by
  obtain ⟨_, same⟩ | ⟨_, old⟩ | ⟨last, same⟩ | ⟨_, _, _, same⟩ := placed_cases opened found
  · cases same
  · exact .inr old
  · exact .inl ⟨last, Doc.export_.inj same⟩
  · cases same

def ownedMembers (description : Description) (id : DocId) : List MemberDoc :=
  description.members.map fun member => { member with owner := id }

theorem memberDocs_eq (description : Description) (id : DocId) :
    description.memberDocs id = (ownedMembers description id).map .member := by
  simp [Description.memberDocs, ownedMembers, Function.comp_def]

theorem unknown_placedKind (description : Description) (id : DocId) :
    description.placedKind id = .unknown ↔ description.form = .unknown := by
  unfold Description.placedKind
  cases description.form <;> simp

def created (emission : Emission) (head : ModuleHead) : Emission :=
  { emission with
    docs := emission.docs.push
      (.module { id := head.id, name := head.name, fileName := head.fileName, exports := [] })
    modules := ⟨(head.id, emission.docs.nextId) :: emission.modules.entries⟩ }

theorem created_cases {emission : Emission} {head : ModuleHead} {index : Nat} {doc : Doc}
    (found : (created emission head).docs.docs[index]? = some doc) :
    emission.docs.docs[index]? = some doc ∨
      index = emission.docs.size ∧
        doc = .module { id := head.id, name := head.name, fileName := head.fileName, exports := [] } := by
  simp only [created, DocSet.push, Array.getElem?_push] at found
  split at found
  · exact .inr ⟨‹_›, (Option.some.inj found).symm⟩
  · exact .inl found

theorem open_cases (emission : Emission) (head : ModuleHead) :
    (∃ doc, emission.modules.get? head.id = some doc ∧ emission.open_ head = (doc, emission)) ∨
      emission.modules.get? head.id = none ∧
        emission.open_ head = (emission.docs.nextId, created emission head) := by
  cases known : emission.modules.get? head.id with
  | some doc => exact .inl ⟨doc, rfl, by simp [Emission.open_, ModuleTable.getOrInsert, known]⟩
  | none => exact .inr ⟨rfl, by simp [Emission.open_, ModuleTable.getOrInsert, known, created]⟩

theorem get?_created (emission : Emission) (head : ModuleHead) (id : String) :
    (created emission head).modules.get? id =
      if id = head.id then some emission.docs.nextId else emission.modules.get? id := by
  simp only [created, ModuleTable.get?, List.lookup_cons]
  by_cases same : id = head.id
  · simp [same]
  · simp [same, beq_eq_false_iff_ne.mpr same]

theorem docs_add (emission : Emission) (head : ModuleHead) (name : String)
    (description : Description) :
    (emission.add head name description).docs =
      placed (emission.open_ head).2.docs (emission.open_ head).1
        (description.exportDoc (emission.open_ head).2.docs.nextId (emission.open_ head).1 head.id name)
        (ownedMembers description (emission.open_ head).2.docs.nextId) := by
  simp only [Emission.add, Emission.report, placed, memberDocs_eq]

theorem modules_add (emission : Emission) (head : ModuleHead) (name : String)
    (description : Description) :
    (emission.add head name description).modules = (emission.open_ head).2.modules := rfl

/-- All that a step of an emission can do. -/
theorem step_cases {program : Program} {options : Options} {before after : Emission} {visit : Visit}
    (stepped : Emission.step program options before visit = .ok after) :
    (∃ head, visit = .enter head ∧ after = (before.open_ head).2.report (.opened head.id)) ∨
      (∃ head export_ description, visit = .meet head export_ ∧
        program.describe options export_.target = .ok description ∧
        after = before.add head export_.name description) ∨
      ∃ head, visit = .leave head ∧ after = before.report (.closed head.id) := by
  cases visit with
  | enter head =>
    cases stepped
    exact .inl ⟨head, rfl, rfl⟩
  | meet head export_ =>
    obtain ⟨description, described, added⟩ := bind_ok_iff.mp stepped
    cases added
    exact .inr (.inl ⟨head, export_, description, rfl, described, rfl⟩)
  | leave head =>
    cases stepped
    exact .inr (.inr ⟨head, rfl, rfl⟩)

/-- Listing an export changes nothing that does not depend on the lists of modules. -/
theorem filterMap_appendExport {β : Type} (docs : DocSet) (module id : DocId) (view : Doc → Option β)
    (blind : ∀ doc, view (.module (doc.addExport id)) = view (.module doc)) :
    (docs.appendExport module id).docs.toList.filterMap view = docs.docs.toList.filterMap view := by
  simp only [DocSet.appendExport, Array.toList_modify]
  generalize docs.docs.toList = items
  generalize module.index.toNat = place
  induction items generalizing place with
  | nil => simp
  | cons doc items ih =>
    cases place with
    | zero => cases doc <;> simp [List.filterMap_cons, blind]
    | succ place => simp [List.filterMap_cons, ih]

theorem exports_placed (docs : DocSet) (module : DocId) (doc : ExportDoc) (members : List MemberDoc) :
    (placed docs module doc members).exports = docs.exports ++ [doc] := by
  rw [placed, DocSet.exports, filterMap_appendExport _ _ _ _ (fun _ => rfl)]
  simp [DocSet.append, DocSet.push, DocSet.exports, Doc.export?, Function.comp_def]

def moduleIds (docs : DocSet) : List String := docs.modules.map (·.id)

theorem moduleIds_eq (docs : DocSet) :
    moduleIds docs = docs.docs.toList.filterMap fun doc => doc.module?.map (·.id) := by
  rw [moduleIds, DocSet.modules, List.map_filterMap]

theorem moduleIds_placed (docs : DocSet) (module : DocId) (doc : ExportDoc)
    (members : List MemberDoc) : moduleIds (placed docs module doc members) = moduleIds docs := by
  rw [placed, moduleIds_eq, filterMap_appendExport _ _ _ _ (fun _ => rfl), moduleIds_eq]
  simp [DocSet.append, DocSet.push, Doc.module?]

theorem exports_open (emission : Emission) (head : ModuleHead) :
    (emission.open_ head).2.docs.exports = emission.docs.exports := by
  obtain ⟨doc, _, opened⟩ | ⟨_, opened⟩ := open_cases emission head
  · rw [opened]
  · rw [opened]
    simp [created, DocSet.push, DocSet.exports, Doc.export?]

theorem size_open (emission : Emission) (head : ModuleHead) :
    emission.docs.size ≤ (emission.open_ head).2.docs.size := by
  obtain ⟨doc, _, opened⟩ | ⟨_, opened⟩ := open_cases emission head
  · simp [opened]
  · simp [opened, created, DocSet.size, DocSet.push]

theorem size_step {program : Program} {options : Options} {before after : Emission} {visit : Visit}
    (stepped : Emission.step program options before visit = .ok after) :
    before.docs.size ≤ after.docs.size := by
  obtain ⟨head, _, rfl⟩ | ⟨head, export_, description, _, _, rfl⟩ | ⟨head, _, rfl⟩ :=
    step_cases stepped
  · exact size_open before head
  · rw [docs_add, size_placed]
    have := size_open before head
    omega
  · exact Nat.le_refl _

/-- A run that returns has collected modules, walked them and emitted what it met. -/
theorem run_ok_iff {program : Program} {options : Options} {names : List String}
    {emission : Emission} :
    program.run options names = .ok emission ↔
      ∃ collected visits visited, program.collectModules names = .ok collected ∧
        program.walk options [] (collected.map (.walk ·.symbol)) = .ok (visits, visited) ∧
        visits.foldlM (Emission.step program options) {} = .ok emission := by
  constructor
  · intro returned
    obtain ⟨collected, found, emitted⟩ := bind_ok_iff.mp returned
    obtain ⟨⟨visits, visited⟩, walked, folded⟩ := bind_ok_iff.mp (mapError_ok_iff.mp emitted)
    exact ⟨collected, visits, visited, found, by simpa [Function.comp_def] using walked, folded⟩
  · rintro ⟨collected, visits, visited, found, walked, folded⟩
    refine bind_ok_iff.mpr ⟨collected, found, mapError_ok_iff.mpr ?_⟩
    exact bind_ok_iff.mpr ⟨(visits, visited), by simpa [Function.comp_def] using walked, folded⟩

theorem extract_ok_iff {program : Program} {options : Options} {names : List String} {docs : DocSet} :
    program.extract options names = .ok docs ↔
      ∃ emission, program.run options names = .ok emission ∧ emission.docs = docs :=
  map_ok_iff

end ApiDocs.Proofs
