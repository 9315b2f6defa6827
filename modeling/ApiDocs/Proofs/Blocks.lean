import ApiDocs.Proofs.Growth

/-! Blocks of documents. Every export that is met has a document with the documents of its members
right behind it, and no document further on belongs to it. -/

namespace ApiDocs.Proofs.Blocks

open DocumentGraph Growth

section Places

def exportAt? (item : Doc × Nat) : Option (Nat × ExportDoc) := item.1.export?.map (item.2, ·)

/-- The documents of exports in order, with their places. -/
def exportsAt (docs : DocSet) : List (Nat × ExportDoc) := docs.docs.toList.zipIdx.filterMap exportAt?

theorem mem_exportsAt {docs : DocSet} {place : Nat} {doc : ExportDoc} :
    (place, doc) ∈ exportsAt docs ↔ docs.docs[place]? = some (.export_ doc) := by
  simp only [exportsAt, exportAt?, List.mem_filterMap, Prod.exists, Option.map_eq_some_iff,
    Prod.mk.injEq, List.mem_zipIdx_iff_getElem?, Array.getElem?_toList]
  constructor
  · rintro ⟨found, index, inside, other, same, rfl, rfl⟩
    cases found <;> cases same
    exact inside
  · intro inside
    exact ⟨_, place, inside, doc, rfl, rfl, rfl⟩

section Views

variable {β : Type} {view : Doc × Nat → Option β}

/-- A change that a view does not show moves nothing, wherever the numbering starts. -/
theorem filterMap_zipIdx_modify {change : Doc → Doc}
    (blind : ∀ doc index, view (change doc, index) = view (doc, index)) (docs : List Doc)
    (place start : Nat) :
    ((docs.modify place change).zipIdx start).filterMap view = (docs.zipIdx start).filterMap view := by
  induction docs generalizing place start with
  | nil => simp
  | cons doc docs ih =>
    cases place with
    | zero => simp [List.filterMap_cons, blind]
    | succ place => simp [List.filterMap_cons, ih]

/-- A view that does not show the lists of modules shows an export and its members at the end. -/
theorem view_placed
    (blind : ∀ doc id index, view (.module (doc.addExport id), index) = view (.module doc, index))
    (docs : DocSet) (module : DocId) (doc : ExportDoc) (members : List MemberDoc) :
    (placed docs module doc members).docs.toList.zipIdx.filterMap view =
      docs.docs.toList.zipIdx.filterMap view ++
        ((.export_ doc :: members.map .member).zipIdx docs.size).filterMap view := by
  unfold placed DocSet.appendExport
  rw [Array.toList_modify, filterMap_zipIdx_modify]
  · simp [DocSet.append, DocSet.push, DocSet.size, List.zipIdx_append, List.filterMap_append]
  · intro other index
    cases other with
    | module other => exact blind other _ index
    | export_ | member => rfl

theorem view_open (hidden : ∀ doc index, view (.module doc, index) = none) (emission : Emission)
    (head : ModuleHead) :
    (emission.open_ head).2.docs.docs.toList.zipIdx.filterMap view =
      emission.docs.docs.toList.zipIdx.filterMap view := by
  obtain ⟨doc, _, opened⟩ | ⟨_, opened⟩ := open_cases emission head
  · rw [opened]
  · rw [opened]
    simp [created, DocSet.push, List.zipIdx_append, hidden]

end Views

theorem exportsAt_placed (docs : DocSet) (module : DocId) (doc : ExportDoc)
    (members : List MemberDoc) :
    exportsAt (placed docs module doc members) = exportsAt docs ++ [(docs.size, doc)] := by
  have behind : ((members.map Doc.member).zipIdx (docs.size + 1)).filterMap exportAt? = [] := by
    apply List.filterMap_eq_nil_iff.mpr
    rintro ⟨other, place⟩ inside
    have member := List.fst_mem_of_mem_zipIdx inside
    obtain ⟨_, _, rfl⟩ := List.mem_map.mp member
    rfl
  unfold exportsAt
  rw [view_placed (fun _ _ _ => rfl), List.zipIdx_cons, List.filterMap_cons, behind]
  rfl

theorem exportsAt_open (emission : Emission) (head : ModuleHead) :
    exportsAt (emission.open_ head).2.docs = exportsAt emission.docs :=
  view_open (fun _ _ => rfl) emission head

theorem members_placed (docs : DocSet) (module : DocId) (doc : ExportDoc) (members : List MemberDoc) :
    (placed docs module doc members).members = docs.members ++ members := by
  rw [placed, DocSet.members, filterMap_appendExport _ _ _ _ (fun _ => rfl)]
  simp [DocSet.append, DocSet.push, DocSet.members, List.filterMap_cons, Doc.member?,
    Function.comp_def]

theorem members_open (emission : Emission) (head : ModuleHead) :
    (emission.open_ head).2.docs.members = emission.docs.members := by
  obtain ⟨doc, _, opened⟩ | ⟨_, opened⟩ := open_cases emission head
  · rw [opened]
  · rw [opened]
    simp [created, DocSet.push, DocSet.members, Doc.member?]

theorem mem_members {docs : DocSet} {index : Nat} {member : MemberDoc}
    (found : docs.docs[index]? = some (.member member)) : member ∈ docs.members :=
  List.mem_filterMap.mpr ⟨_, Array.mem_toList_iff.mpr (Array.mem_of_getElem? found), rfl⟩

theorem docAt_inj {first last : Nat} (firstSmall : first < UInt32.size) (lastSmall : last < UInt32.size)
    (same : docAt first = docAt last) : first = last := by
  have places := congrArg (fun id => id.index.toNat) same
  simpa only [docAt_toNat firstSmall, docAt_toNat lastSmall] using places

theorem docAt_plus (place distance : Nat) : (docAt place).plus distance = docAt (place + distance) := by
  simp [docAt, DocId.plus, UInt32.ofNat_add]

theorem members_placedMembers (description : Description) (id : DocId) :
    (description.placedMembers id).map (·.1) = description.members := by
  simp [Description.placedMembers, Function.comp_def]

end Places

/-- At the entry stands the document of an export with these members: they follow it in order, and
no other member names it as its owner. -/
structure Block (docs : DocSet) (entry : Nat × ExportDoc) (members : List Member) : Prop where
  export_ : docs.docs[entry.1]? = some (.export_ entry.2)
  behind : ∀ (offset : Nat) (member : Member), members[offset]? = some member →
    docs.docs[entry.1 + 1 + offset]? = some (.member { member with owner := docAt entry.1 })
  only : ∀ (index : Nat) (member : MemberDoc), docs.docs[index]? = some (.member member) →
    member.owner = docAt entry.1 → ∃ offset < members.length, index = entry.1 + 1 + offset
  owned : (docs.members.filter (·.owner = docAt entry.1)).map (·.toMember) = members

namespace Block

variable {docs : DocSet} {entry : Nat × ExportDoc} {members : List Member}

theorem inside (block : Block docs entry members) : entry.1 < docs.size :=
  (Array.getElem?_eq_some_iff.mp block.export_).1

theorem end_le (block : Block docs entry members) : entry.1 + 1 + members.length ≤ docs.size := by
  have inside := block.inside
  cases count : members.length with
  | zero => omega
  | succ last =>
    have final := block.behind last (members[last]) (List.getElem?_eq_getElem (by omega))
    have bound : entry.1 + 1 + last < docs.size := (Array.getElem?_eq_some_iff.mp final).1
    omega

/-- A member that names the export stands at its offset in the block. -/
theorem offset {index : Nat} {member : MemberDoc} (block : Block docs entry members)
    (found : docs.docs[index]? = some (.member member)) (owned : member.owner = docAt entry.1) :
    ∃ offset, index = entry.1 + 1 + offset ∧ members[offset]? = some member.toMember := by
  obtain ⟨offset, inside, rfl⟩ := block.only index member found owned
  have listed := List.getElem?_eq_getElem inside
  have behind := block.behind offset _ listed
  rw [found] at behind
  cases behind
  exact ⟨offset, rfl, listed⟩

theorem opened {emission : Emission} (block : Block emission.docs entry members) (head : ModuleHead) :
    Block (emission.open_ head).2.docs entry members := by
  have grows := open_grows 0 emission head
  constructor
  · exact grows.keeps block.export_ rfl
  · intro offset member listed
    exact grows.keeps (block.behind offset member listed) rfl
  · intro index member found owner
    refine block.only index member ?_ owner
    obtain ⟨doc, _, opened⟩ | ⟨_, opened⟩ := open_cases emission head
    · rw [opened] at found
      exact found
    · rw [opened] at found
      obtain old | ⟨_, new⟩ := created_cases found
      · exact old
      · cases new
  · rw [members_open]
    exact block.owned

/-- A block stays when another export is placed behind it. -/
theorem placed {module : DocId} {head : ModuleDoc} (block : Block docs entry members)
    (opened : docs.get? module = some (.module head)) (small : docs.size < UInt32.size)
    (doc : ExportDoc) {others : List MemberDoc} (named : ∀ other ∈ others, other.owner = docs.nextId) :
    Block (placed docs module doc others) entry members := by
  have grows := placed_grows opened small (Nat.zero_le _) doc others
  have inside := block.inside
  have different : docs.nextId ≠ docAt entry.1 := by
    intro same
    have := docAt_inj small (by omega) same
    omega
  constructor
  · exact grows.keeps block.export_ rfl
  · intro offset member listed
    exact grows.keeps (block.behind offset member listed) rfl
  · intro index member found owner
    obtain ⟨_, same⟩ | ⟨_, old⟩ | ⟨_, same⟩ | ⟨_, other, inside, same⟩ := placed_cases opened found
    · cases same
    · exact block.only index member old owner
    · cases same
    · cases same
      exact absurd ((named _ inside).symm.trans owner) different
  · have none : others.filter (·.owner = docAt entry.1) = [] := by
      apply List.filter_eq_nil_iff.mpr
      intro other inside
      simpa [named other inside] using different
    rw [members_placed, List.filter_append, none, List.append_nil]
    exact block.owned

/-- The export that is placed last has a block, as no earlier member can name it. -/
theorem last {module : DocId} {head : ModuleDoc} (opened : docs.get? module = some (.module head))
    (small : docs.size < UInt32.size)
    (earlier : ∀ member ∈ docs.members, ∃ other < docs.size, member.owner = docAt other)
    (doc : ExportDoc) (description : Description) :
    Block (Proofs.placed docs module doc (ownedMembers description docs.nextId)) (docs.size, doc)
      description.members := by
  have before := lt_size_of_get? opened
  have fresh : ∀ member ∈ docs.members, member.owner ≠ docAt docs.size := by
    intro member inside same
    obtain ⟨other, early, owner⟩ := earlier member inside
    have := docAt_inj (by omega) small (owner.symm.trans same)
    omega
  constructor
  · rw [getElem?_placed opened, if_neg (by omega), if_neg (Nat.lt_irrefl _), if_pos rfl]
  · intro offset member listed
    have place : docs.size + 1 + offset - docs.size - 1 = offset := by omega
    rw [getElem?_placed opened, if_neg (by omega), if_neg (by omega), if_neg (by omega), place,
      ownedMembers, List.getElem?_map, listed]
    rfl
  · intro index member found owner
    rw [getElem?_placed opened] at found
    split at found
    · cases found
    · split at found
      · exact absurd owner (fresh member (mem_members found))
      · split at found
        · cases found
        · obtain ⟨other, listed, _⟩ := Option.map_eq_some_iff.mp found
          have bound := (List.getElem?_eq_some_iff.mp listed).1
          rw [ownedMembers, List.length_map] at bound
          exact ⟨index - docs.size - 1, bound, by simp only; omega⟩
  · have none : docs.members.filter (·.owner = docAt docs.size) = [] := by
      apply List.filter_eq_nil_iff.mpr
      intro member inside
      simpa using fresh member inside
    have all : (ownedMembers description docs.nextId).filter (·.owner = docAt docs.size) =
        ownedMembers description docs.nextId := by
      apply List.filter_eq_self.mpr
      intro member inside
      obtain ⟨_, _, rfl⟩ := List.mem_map.mp inside
      simp [nextId_eq]
    rw [members_placed, List.filter_append, none, all, List.nil_append, ownedMembers, List.map_map]
    exact List.map_id _

end Block

section Emission

variable {program : Program} {options : Options}

/-- The entry documents what was met: the export as it is described, with its members behind it. -/
def Stands (program : Program) (options : Options) (docs : DocSet)
    (pair : ModuleHead × ResolvedExport) (entry : Nat × ExportDoc) : Prop :=
  ∃ description module, program.describe options pair.2.target = .ok description ∧
    entry.2 = description.exportDoc (docAt entry.1) module pair.1.id pair.2.name ∧
    Block docs entry description.members

/-- The exports are those that were met, in order, and all members have an owner among them. -/
structure Emitted (program : Program) (options : Options) (visits : List Visit) (docs : DocSet) :
    Prop where
  exports : List.Forall₂ (Stands program options docs) (met visits) (exportsAt docs)
  owners : ∀ member ∈ docs.members, ∃ entry ∈ exportsAt docs, member.owner = docAt entry.1

theorem emitted_open {visits : List Visit} {emission : Emission}
    (emitted : Emitted program options visits emission.docs) (head : ModuleHead) :
    Emitted program options visits (emission.open_ head).2.docs := by
  constructor
  · rw [exportsAt_open]
    refine emitted.exports.imp ?_
    rintro pair entry ⟨description, module, described, same, block⟩
    exact ⟨description, module, described, same, block.opened head⟩
  · rw [members_open, exportsAt_open]
    exact emitted.owners

theorem emitted_add {visits : List Visit} {emission : Emission} {head : ModuleHead}
    {export_ : ResolvedExport} {description : Description}
    (emitted : Emitted program options visits emission.docs)
    (sound : Sound emission.docs emission.modules)
    (described : program.describe options export_.target = .ok description)
    (small : (emission.add head export_.name description).docs.size ≤ UInt32.size) :
    Emitted program options (visits ++ [.meet head export_])
      (emission.add head export_.name description).docs := by
  rw [docs_add] at small ⊢
  rw [size_placed] at small
  obtain ⟨module, found, _⟩ :=
    (open_preserves sound (show _ ≤ UInt32.size by omega)).leads head.id _ (open_known emission head)
  obtain ⟨exports, owners⟩ := emitted_open emitted head
  generalize (emission.open_ head).2.docs = docs at *
  generalize (emission.open_ head).1 = id at *
  have room : docs.size < UInt32.size := by omega
  have named : ∀ member ∈ ownedMembers description docs.nextId, member.owner = docs.nextId := by
    intro member inside
    obtain ⟨_, _, rfl⟩ := List.mem_map.mp inside
    rfl
  -- Owners are exports that stand already, so nothing names the document that is placed now.
  have earlier : ∀ member ∈ docs.members, ∃ other < docs.size, member.owner = docAt other := by
    intro member inside
    obtain ⟨entry, listed, owner⟩ := owners member inside
    exact ⟨entry.1, (Array.getElem?_eq_some_iff.mp (mem_exportsAt.mp listed)).1, owner⟩
  constructor
  · rw [exportsAt_placed, met_append]
    apply List.rel_append
    · refine exports.imp ?_
      rintro pair entry ⟨description, module, described, same, block⟩
      exact ⟨description, module, described, same, block.placed found room _ named⟩
    · refine .cons ⟨description, id, described, rfl, ?_⟩ .nil
      exact Block.last found room earlier _ description
  · rw [exportsAt_placed, members_placed]
    intro member inside
    rcases List.mem_append.mp inside with old | new
    · obtain ⟨entry, listed, owner⟩ := owners member old
      exact ⟨entry, List.mem_append_left _ listed, owner⟩
    · exact ⟨_, List.mem_append_right _ List.mem_cons_self, named member new⟩

theorem emitted_step {visits : List Visit} {before after : Emission} {visit : Visit}
    (stepped : Emission.step program options before visit = .ok after)
    (emitted : Emitted program options visits before.docs) (sound : Sound before.docs before.modules)
    (small : after.docs.size ≤ UInt32.size) :
    Emitted program options (visits ++ [visit]) after.docs := by
  obtain ⟨head, rfl, rfl⟩ | ⟨head, export_, description, rfl, described, rfl⟩ | ⟨head, rfl, rfl⟩ :=
    step_cases stepped
  · obtain ⟨exports, owners⟩ := emitted_open emitted head
    exact ⟨by simpa using! exports, owners⟩
  · exact emitted_add emitted sound described small
  · exact ⟨by simpa using! emitted.exports, emitted.owners⟩

/-- A run that returns has emitted what its walk met. -/
theorem run_emitted {names : List String} {emission : Emission}
    (returned : program.run options names = .ok emission) (small : emission.docs.size ≤ UInt32.size) :
    ∃ collected visits visited, program.collectModules names = .ok collected ∧
      program.walk options [] ((collected.map (·.symbol)).map .walk) = .ok (visits, visited) ∧
      visits.foldlM (Emission.step program options) {} = .ok emission ∧
      Emitted program options visits emission.docs := by
  obtain ⟨collected, visits, visited, found, walked, folded⟩ := run_ok_iff.mp returned
  refine ⟨collected, visits, visited, found, by simpa [Function.comp_def] using walked, folded, ?_⟩
  have none : ({} : Emission).docs.size ≤ UInt32.size → Sound {} {} ∧ Emitted program options [] {} :=
    fun _ => ⟨initial, .nil, by simp [DocSet.members]⟩
  have kept := foldlM_tracks (fun visits (current : Emission) => current.docs.size ≤ UInt32.size →
    Sound current.docs current.modules ∧ Emitted program options visits current.docs) ?_ folded none
  · exact (kept small).2
  · intro done before visit after stepped holds bound
    have wider := size_step stepped
    obtain ⟨sound, emitted⟩ := holds (by omega)
    exact ⟨step_preserves stepped sound bound, emitted_step stepped emitted sound bound⟩

end Emission

end ApiDocs.Proofs.Blocks
