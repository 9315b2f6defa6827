import ApiDocs.Proofs.Placement
import Mathlib.Data.List.Nodup

/-! The documents of an extraction form a sound graph: modules have distinct ids, and modules and
their exports name each other. Ids of documents have 32 bits, so the statements hold as long as all
places fit into them. -/

namespace ApiDocs.Proofs.DocumentGraph

/-- The module table and the module documents agree, and so do the lists of exports and the exports
themselves. -/
structure Sound (docs : DocSet) (table : ModuleTable) : Prop where
  /-- The table leads to a document with the given id. -/
  leads : ∀ id doc, table.get? id = some doc →
    ∃ module, docs.get? doc = some (.module module) ∧ module.id = id
  /-- The table knows every module document. -/
  knows : ∀ index module, docs.docs[index]? = some (.module module) →
    table.get? module.id = some (docAt index)
  /-- An export follows the document of its module, which lists it. -/
  owned : ∀ index doc, docs.docs[index]? = some (.export_ doc) →
    ∃ module, docs.get? doc.module = some (.module module) ∧ module.id = doc.moduleId ∧
      doc.module.index.toNat < index ∧ docAt index ∈ module.exports
  /-- What a module lists are exports of this module. -/
  listed : ∀ index module, docs.docs[index]? = some (.module module) →
    ∀ id ∈ module.exports, ∃ doc, docs.get? id = some (.export_ doc) ∧ doc.module = docAt index
  increasing : ∀ (index : Nat) module, docs.docs[index]? = some (.module module) →
    module.exports.Pairwise (·.index < ·.index)

theorem initial : Sound {} {} := by
  constructor
  all_goals simp [ModuleTable.get?]

theorem get?_docAt {docs : DocSet} {index : Nat} (inside : index < UInt32.size) :
    docs.get? (docAt index) = docs.docs[index]? := by
  rw [DocSet.get?, docAt_toNat inside]

theorem lt_size_of_get? {docs : DocSet} {id : DocId} {doc : Doc} (found : docs.get? id = some doc) :
    id.index.toNat < docs.size :=
  (Array.getElem?_eq_some_iff.mp found).1

theorem get?_push_of_some {docs : DocSet} {id : DocId} {doc : Doc} (found : docs.get? id = some doc)
    (new : Doc) : (docs.push new).get? id = some doc := by
  have inside : id.index.toNat < docs.docs.size := lt_size_of_get? found
  simp only [DocSet.get?, DocSet.push] at found ⊢
  rw [Array.getElem?_push, if_neg (Nat.ne_of_lt inside)]
  exact found

theorem created_preserves {emission : Emission} {head : ModuleHead}
    (sound : Sound emission.docs emission.modules) (fresh : emission.modules.get? head.id = none)
    (small : emission.docs.size < UInt32.size) :
    Sound (created emission head).docs (created emission head).modules := by
  constructor
  · intro id doc known
    rw [get?_created] at known
    split at known
    · rename_i same
      cases known
      refine ⟨{ id := head.id, name := head.name, fileName := head.fileName, exports := [] }, ?_,
        same.symm⟩
      rw [nextId_eq, get?_docAt small]
      simp [created, DocSet.push, DocSet.size]
    · obtain ⟨module, found, same⟩ := sound.leads id doc known
      exact ⟨module, get?_push_of_some found _, same⟩
  · intro index module found
    rw [get?_created]
    obtain old | ⟨rfl, new⟩ := created_cases found
    · have known := sound.knows index module old
      rw [if_neg]
      · exact known
      · intro same
        rw [same, fresh] at known
        cases known
    · cases new
      rw [if_pos rfl, nextId_eq]
  · intro index doc found
    obtain old | ⟨_, new⟩ := created_cases found
    · obtain ⟨module, home, same, before, listed⟩ := sound.owned index doc old
      exact ⟨module, get?_push_of_some home _, same, before, listed⟩
    · cases new
  · intro index module found id member
    obtain old | ⟨_, new⟩ := created_cases found
    · obtain ⟨doc, listed, home⟩ := sound.listed index module old id member
      exact ⟨doc, get?_push_of_some listed _, home⟩
    · cases new
      cases member
  · intro index module found
    obtain old | ⟨_, new⟩ := created_cases found
    · exact sound.increasing index module old
    · cases new
      exact .nil

theorem open_preserves {emission : Emission} {head : ModuleHead}
    (sound : Sound emission.docs emission.modules)
    (small : (emission.open_ head).2.docs.size ≤ UInt32.size) :
    Sound (emission.open_ head).2.docs (emission.open_ head).2.modules := by
  obtain ⟨doc, _, opened⟩ | ⟨fresh, opened⟩ := open_cases emission head
  · rw [opened]
    exact sound
  · rw [opened] at small ⊢
    refine created_preserves sound fresh ?_
    simp only [created, DocSet.size, DocSet.push, Array.size_push] at small ⊢
    omega

theorem open_known (emission : Emission) (head : ModuleHead) :
    (emission.open_ head).2.modules.get? head.id = some (emission.open_ head).1 := by
  obtain ⟨doc, known, opened⟩ | ⟨_, opened⟩ := open_cases emission head
  · rw [opened]
    exact known
  · rw [opened, get?_created, if_pos rfl]

theorem placed_keeps_module {docs : DocSet} {module id : DocId} {head other : ModuleDoc}
    (opened : docs.get? module = some (.module head)) (doc : ExportDoc) (members : List MemberDoc)
    (found : docs.get? id = some (.module other)) :
    ∃ after, (placed docs module doc members).get? id = some (.module after) ∧ after.id = other.id ∧
      ∀ listed ∈ other.exports, listed ∈ after.exports := by
  rw [DocSet.get?, getElem?_placed opened]
  by_cases selected : id.index.toNat = module.index.toNat
  · have same : head = other := by
      rw [DocSet.get?, selected] at found
      rw [DocSet.get?, found] at opened
      cases opened
      rfl
    subst same
    rw [if_pos selected]
    exact ⟨_, rfl, rfl, fun listed member => List.mem_append_left _ member⟩
  · rw [if_neg selected, if_pos (lt_size_of_get? found)]
    exact ⟨other, found, rfl, fun _ member => member⟩

theorem placed_keeps_export {docs : DocSet} {module id : DocId} {head : ModuleDoc}
    (opened : docs.get? module = some (.module head)) (doc : ExportDoc) (members : List MemberDoc)
    {old : ExportDoc} (found : docs.get? id = some (.export_ old)) :
    (placed docs module doc members).get? id = some (.export_ old) := by
  rw [DocSet.get?, getElem?_placed opened]
  have different : id.index.toNat ≠ module.index.toNat := by
    intro same
    rw [DocSet.get?, same] at found
    rw [DocSet.get?, found] at opened
    cases opened
  rw [if_neg different, if_pos (lt_size_of_get? found)]
  exact found

theorem placed_preserves {docs : DocSet} {table : ModuleTable} {module : DocId} {head : ModuleDoc}
    {doc : ExportDoc} (sound : Sound docs table) (opened : docs.get? module = some (.module head))
    (home : doc.module = module) (named : doc.moduleId = head.id) (members : List MemberDoc)
    (small : docs.size < UInt32.size) : Sound (placed docs module doc members) table := by
  have inside := lt_size_of_get? opened
  have newExport : (placed docs module doc members).get? docs.nextId =
      some (.export_ doc) := by
    rw [nextId_eq, get?_docAt small, getElem?_placed opened, if_neg (by omega),
      if_neg (Nat.lt_irrefl _), if_pos rfl]
  constructor
  · intro id other known
    obtain ⟨before, found, same⟩ := sound.leads id other known
    obtain ⟨after, kept, sameId, _⟩ := placed_keeps_module opened doc members found
    exact ⟨after, kept, sameId.trans same⟩
  · intro index other found
    obtain ⟨rfl, rfl⟩ | old := placed_module_cases opened found
    · exact sound.knows _ head opened
    · exact sound.knows index other old
  · intro index other found
    obtain ⟨rfl, rfl⟩ | old := placed_export_cases opened found
    · refine ⟨head.addExport docs.nextId, ?_, named.symm, ?_, ?_⟩
      · rw [home, DocSet.get?, getElem?_placed opened, if_pos rfl]
      · rw [home]
        exact inside
      · exact List.mem_append_right _ (List.mem_singleton.mpr rfl)
    · obtain ⟨before, found, sameId, earlier, listed⟩ := sound.owned index other old
      obtain ⟨after, kept, afterId, keeps⟩ := placed_keeps_module opened doc members found
      exact ⟨after, kept, afterId.trans sameId, earlier, keeps _ listed⟩
  · intro index other found id member
    obtain ⟨rfl, rfl⟩ | old := placed_module_cases opened found
    · rcases List.mem_append.mp member with member | member
      · obtain ⟨listed, found, owner⟩ := sound.listed _ head opened id member
        exact ⟨listed, placed_keeps_export opened doc members found, owner⟩
      · rw [List.mem_singleton.mp member]
        exact ⟨doc, newExport, home.trans (docAt_index module).symm⟩
    · obtain ⟨listed, found, owner⟩ := sound.listed index other old id member
      exact ⟨listed, placed_keeps_export opened doc members found, owner⟩
  · intro index other found
    obtain ⟨rfl, rfl⟩ | old := placed_module_cases opened found
    · refine List.pairwise_append.mpr ⟨sound.increasing _ head opened, List.pairwise_singleton _ _, ?_⟩
      intro id member new last
      obtain ⟨listed, found, _⟩ := sound.listed _ head opened id member
      rw [List.mem_singleton.mp last, UInt32.lt_iff_toNat_lt, nextId_eq, docAt_toNat small]
      exact lt_size_of_get? found
    · exact sound.increasing index other old

theorem add_preserves {emission : Emission} {head : ModuleHead} {name : String}
    {description : Description} (sound : Sound emission.docs emission.modules)
    (small : (emission.add head name description).docs.size ≤ UInt32.size) :
    Sound (emission.add head name description).docs (emission.add head name description).modules := by
  rw [docs_add, size_placed] at small
  have opened : Sound (emission.open_ head).2.docs (emission.open_ head).2.modules :=
    open_preserves sound (by omega)
  obtain ⟨module, found, same⟩ := opened.leads head.id _ (open_known emission head)
  rw [docs_add, modules_add]
  exact placed_preserves opened found rfl same.symm _ (by omega)

/-- Every step of an emission keeps the graph sound, as long as the ids reach all documents. -/
theorem step_preserves {program : Program} {options : Options} {before after : Emission}
    {visit : Visit} (stepped : Emission.step program options before visit = .ok after)
    (sound : Sound before.docs before.modules) (small : after.docs.size ≤ UInt32.size) :
    Sound after.docs after.modules := by
  obtain ⟨head, _, rfl⟩ | ⟨head, export_, description, _, _, rfl⟩ | ⟨head, _, rfl⟩ :=
    step_cases stepped
  · exact open_preserves sound small
  · exact add_preserves sound small
  · exact sound

theorem run_sound {program : Program} {options : Options} {names : List String}
    {emission : Emission} (returned : program.run options names = .ok emission)
    (small : emission.docs.size ≤ UInt32.size) : Sound emission.docs emission.modules := by
  obtain ⟨collected, visits, visited, _, _, folded⟩ := run_ok_iff.mp returned
  -- The bound is carried inside the invariant: documents are only added, so it reaches back.
  refine foldlM_keeps
    (fun emission => emission.docs.size ≤ UInt32.size → Sound emission.docs emission.modules)
    ?_ folded (fun _ => initial) small
  intro before visit after stepped sound bound
  exact step_preserves stepped (sound (Nat.le_trans (size_step stepped) bound)) bound

theorem modules_pairwise {docs : DocSet} {relation : ModuleDoc → ModuleDoc → Prop}
    (related : ∀ (first last : Nat) earlier later, first < last →
      docs.docs[first]? = some (.module earlier) → docs.docs[last]? = some (.module later) →
      relation earlier later) : docs.modules.Pairwise relation := by
  rw [DocSet.modules, List.pairwise_filterMap, List.pairwise_iff_getElem]
  intro first last firstInside lastInside order earlier isEarlier later isLater
  refine related first last earlier later order ?_ ?_
  · rw [← Array.getElem?_toList, List.getElem?_eq_getElem firstInside]
    cases seen : docs.docs.toList[first] <;> simp_all [Doc.module?]
  · rw [← Array.getElem?_toList, List.getElem?_eq_getElem lastInside]
    cases seen : docs.docs.toList[last] <;> simp_all [Doc.module?]

theorem exists_place {docs : DocSet} {module : ModuleDoc} (member : module ∈ docs.modules) :
    ∃ index : Nat, docs.docs[index]? = some (.module module) := by
  obtain ⟨doc, inside, same⟩ := List.mem_filterMap.mp member
  obtain ⟨index, found⟩ := List.getElem?_of_mem inside
  refine ⟨index, ?_⟩
  rw [← Array.getElem?_toList, found]
  cases doc <;> simp_all [Doc.module?]

theorem docAt_ne {docs : DocSet} {first last : Nat} {doc : Doc} (small : docs.size ≤ UInt32.size)
    (order : first < last) (found : docs.docs[last]? = some doc) : docAt first ≠ docAt last := by
  have inside : last < docs.size := (Array.getElem?_eq_some_iff.mp found).1
  intro same
  have places := congrArg (fun id => id.index.toNat) same
  simp only [docAt_toNat (show first < UInt32.size by omega),
    docAt_toNat (show last < UInt32.size by omega)] at places
  omega

theorem Sound.ids_nodup {docs : DocSet} {table : ModuleTable} (sound : Sound docs table)
    (small : docs.size ≤ UInt32.size) : (docs.modules.map (·.id)).Nodup := by
  rw [List.nodup_iff_pairwise_ne, List.pairwise_map]
  apply modules_pairwise
  intro first last earlier later order foundEarlier foundLater same
  have known := sound.knows first earlier foundEarlier
  rw [same, sound.knows last later foundLater] at known
  exact docAt_ne small order foundLater (Option.some.inj known).symm

/-- No document is listed twice, neither by one module nor by two. -/
theorem Sound.listed_nodup {docs : DocSet} {table : ModuleTable} (sound : Sound docs table)
    (small : docs.size ≤ UInt32.size) : (docs.modules.flatMap (·.exports)).Nodup := by
  rw [List.nodup_iff_pairwise_ne, List.pairwise_flatMap]
  constructor
  · intro module member
    obtain ⟨index, found⟩ := exists_place member
    refine (sound.increasing index module found).imp ?_
    rintro first last order rfl
    exact UInt32.lt_irrefl _ order
  · apply modules_pairwise
    intro first last earlier later order foundEarlier foundLater id member other otherMember same
    subst same
    obtain ⟨doc, listed, owner⟩ := sound.listed first earlier foundEarlier id member
    obtain ⟨doc', listed', owner'⟩ := sound.listed last later foundLater id otherMember
    rw [listed] at listed'
    cases listed'
    exact docAt_ne small order foundLater (owner.symm.trans owner')

/-- The documents of an extraction: no two modules share an id, every export stands behind the one
module that lists it, and modules list exports in increasing order and nothing else. -/
theorem extract_graph {program : Program} {options : Options} {names : List String} {docs : DocSet}
    (returned : program.extract options names = .ok docs) (small : docs.size < UInt32.size) :
    (docs.modules.map (·.id)).Nodup ∧
      (∀ index doc, docs.docs[index]? = some (.export_ doc) →
        ∃ module, docs.get? doc.module = some (.module module) ∧ module.id = doc.moduleId ∧
          doc.module.index.toNat < index ∧ docAt index ∈ module.exports ∧
          (docs.modules.flatMap (·.exports)).count (docAt index) = 1) ∧
      ∀ module ∈ docs.modules,
        (∀ id ∈ module.exports, ∃ doc, docs.get? id = some (.export_ doc)) ∧
          module.exports.Pairwise (·.index < ·.index) := by
  obtain ⟨emission, ran, rfl⟩ := extract_ok_iff.mp returned
  have bound := Nat.le_of_lt small
  have sound := run_sound ran bound
  refine ⟨sound.ids_nodup bound, ?_, ?_⟩
  · intro index doc found
    obtain ⟨module, home, same, earlier, listed⟩ := sound.owned index doc found
    refine ⟨module, home, same, earlier, listed, ?_⟩
    have member : module ∈ emission.docs.modules :=
      List.mem_filterMap.mpr ⟨.module module, Array.mem_toList_iff.mpr (Array.mem_of_getElem? home), rfl⟩
    exact List.count_eq_one_of_mem (sound.listed_nodup bound) (List.mem_flatMap.mpr ⟨module, member, listed⟩)
  · intro module member
    obtain ⟨index, found⟩ := exists_place member
    refine ⟨?_, sound.increasing index module found⟩
    intro id listed
    obtain ⟨doc, isExport, _⟩ := sound.listed index module found id listed
    exact ⟨doc, isExport⟩

/-- A namespace in two files, of which the first part exports itself besides a class. -/
def splitNamespace : Program where
  files := #[{ name := "a", statements := [⟨0⟩] }, { name := "b", statements := [⟨1⟩] }]
  symbols := #[
    { name := "n", flags := SymbolFlags.namespaceModule, exports := [⟨2⟩, ⟨0⟩] },
    { name := "n", flags := SymbolFlags.namespaceModule, exports := [⟨3⟩] },
    { name := "C", flags := SymbolFlags.class_, declarations := [⟨0⟩], parent := some ⟨0⟩ },
    { name := "f", flags := SymbolFlags.function, declarations := [⟨2⟩], parent := some ⟨1⟩ }]
  declarations := #[
    { kind := .class_, file := ⟨0⟩, name := "C", members := [⟨1⟩] },
    { kind := .property, file := ⟨0⟩, name := "x" },
    { kind := .function, file := ⟨1⟩, name := "f" }]

def splitDocs : DocSet := (splitNamespace.extract {} ["a", "b"]).toOption.getD {}

theorem extract_graph_split :
    splitNamespace.extract {} ["a", "b"] = .ok splitDocs ∧ splitDocs.size = 4 ∧
      (splitDocs.modules.map (·.id)).Nodup ∧
      (splitDocs.modules.flatMap (·.exports)).count (docAt 3) = 1 := by
  have returned : splitNamespace.extract {} ["a", "b"] = .ok splitDocs := by decide +kernel
  have graph := extract_graph returned (by decide +kernel)
  obtain ⟨doc, found⟩ : ∃ doc, splitDocs.docs[3]? = some (.export_ doc) :=
    ⟨(splitDocs.exports[1]?).get (by decide +kernel), by decide +kernel⟩
  obtain ⟨module, _, _, _, _, once⟩ := graph.2.1 3 doc found
  exact ⟨returned, by decide +kernel, graph.1, once⟩

end ApiDocs.Proofs.DocumentGraph
