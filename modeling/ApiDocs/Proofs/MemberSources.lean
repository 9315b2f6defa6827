import ApiDocs.Proofs.MemberBlocks
import ApiDocs.Proofs.Provenance

/-! What documents are made from. Every document of an export shows the description of the export that
was met for it, and every member behind it shows a member of that description, however many documents
there are. -/

namespace ApiDocs.Proofs.MemberSources

open Blocks Coverage Provenance MemberBlocks

section Places

def memberAt? (item : Doc × Nat) : Option (Nat × MemberDoc) := item.1.member?.map (item.2, ·)

/-- The documents of members in order, with their places. -/
def membersAt (docs : DocSet) : List (Nat × MemberDoc) := docs.docs.toList.zipIdx.filterMap memberAt?

theorem mem_membersAt {docs : DocSet} {place : Nat} {member : MemberDoc}
    (found : docs.docs[place]? = some (.member member)) : (place, member) ∈ membersAt docs := by
  apply List.mem_filterMap.mpr
  refine ⟨(.member member, place), ?_, rfl⟩
  rw [List.mem_zipIdx_iff_getElem?, Array.getElem?_toList, found]

theorem membersAt_open (emission : Emission) (head : ModuleHead) :
    membersAt (emission.open_ head).2.docs = membersAt emission.docs :=
  view_open (fun _ _ => rfl) emission head

/-- A member among those with an export that is placed last is an old one or stands behind it. -/
theorem mem_membersAt_placed {docs : DocSet} {module : DocId} {doc : ExportDoc}
    {description : Description} {item : Nat × MemberDoc}
    (inside : item ∈ membersAt (placed docs module doc (ownedMembers description docs.nextId))) :
    item ∈ membersAt docs ∨ ∃ offset, item.1 = docs.size + 1 + offset ∧
      description.members[offset]? = some item.2.toMember ∧ item.2.owner = docAt docs.size := by
  unfold membersAt at inside
  rw [view_placed (fun _ _ _ => rfl), List.zipIdx_cons, List.filterMap_cons_none rfl] at inside
  rcases List.mem_append.mp inside with old | new
  · exact .inl old
  · obtain ⟨⟨other, place⟩, listed, shown⟩ := List.mem_filterMap.mp new
    obtain ⟨behind, there⟩ := List.mk_mem_zipIdx_iff_le_and_getElem?_sub.mp listed
    rw [ownedMembers, List.map_map, List.getElem?_map] at there
    obtain ⟨member, here, rfl⟩ := Option.map_eq_some_iff.mp there
    cases shown
    exact .inr ⟨place - (docs.size + 1), by simp only; omega, here, rfl⟩

end Places

section Emission

variable {program : Program} {options : Options} {visits : List Visit} {docs : DocSet}

/-- What was met, each with the document that is made for it. -/
def made (visits : List Visit) (docs : DocSet) : List ((ModuleHead × ResolvedExport) × (Nat × ExportDoc)) :=
  (met visits).zip (exportsAt docs)

/-- The document and the members behind it show the description of what was met. -/
def Shows (program : Program) (options : Options) (pair : ModuleHead × ResolvedExport)
    (entry : Nat × ExportDoc) : Prop :=
  ∃ description, program.describe options pair.2.target = .ok description ∧
    entry.2.kind = description.placedKind (docAt entry.1)

/-- The member stands behind the document and shows a member of the description of what was met. -/
def Behind (program : Program) (options : Options) (pair : ModuleHead × ResolvedExport)
    (entry : Nat × ExportDoc) (item : Nat × MemberDoc) : Prop :=
  ∃ description offset, program.describe options pair.2.target = .ok description ∧
    item.1 = entry.1 + 1 + offset ∧ description.members[offset]? = some item.2.toMember ∧
    item.2.owner = docAt entry.1

structure Traced (program : Program) (options : Options) (visits : List Visit) (docs : DocSet) : Prop where
  count : (met visits).length = (exportsAt docs).length
  exports : ∀ item ∈ made visits docs, Shows program options item.1 item.2
  members : ∀ member ∈ membersAt docs, ∃ item ∈ made visits docs, Behind program options item.1 item.2 member

theorem traced_open {emission : Emission} (traced : Traced program options visits emission.docs)
    (head : ModuleHead) : Traced program options visits (emission.open_ head).2.docs := by
  have same : made visits (emission.open_ head).2.docs = made visits emission.docs := by
    rw [made, exportsAt_open, made]
  obtain ⟨count, exports, members⟩ := traced
  refine ⟨?_, ?_, ?_⟩
  · rwa [exportsAt_open]
  · rwa [same]
  · rwa [same, membersAt_open]

theorem made_placed (count : (met visits).length = (exportsAt docs).length) (head : ModuleHead)
    (export_ : ResolvedExport) (module : DocId) (doc : ExportDoc) (members : List MemberDoc) :
    made (visits ++ [.meet head export_]) (placed docs module doc members) =
      made visits docs ++ [((head, export_), docs.size, doc)] := by
  rw [made, exportsAt_placed, met_append, List.zip_append count]
  rfl

theorem traced_add {emission : Emission} {head : ModuleHead} {export_ : ResolvedExport}
    {description : Description} (traced : Traced program options visits emission.docs)
    (described : program.describe options export_.target = .ok description) :
    Traced program options (visits ++ [.meet head export_])
      (emission.add head export_.name description).docs := by
  obtain ⟨count, exports, members⟩ := traced_open traced head
  rw [docs_add]
  -- From here on only the documents and the module that is open matter.
  generalize (emission.open_ head).2.docs = docs at *
  generalize (emission.open_ head).1 = module at *
  refine ⟨?_, ?_, ?_⟩
  · rw [exportsAt_placed, met_append, List.length_append, List.length_append, count]
    rfl
  · rw [made_placed count]
    exact List.forall_mem_append.mpr
      ⟨exports, List.forall_mem_singleton.mpr ⟨description, described, rfl⟩⟩
  · rw [made_placed count]
    intro member inside
    obtain old | ⟨offset, place, listed, owner⟩ := mem_membersAt_placed inside
    · obtain ⟨item, known, behind⟩ := members member old
      exact ⟨item, List.mem_append_left _ known, behind⟩
    · refine ⟨_, List.mem_append_right _ List.mem_cons_self, description, offset, described, place, ?_⟩
      exact ⟨listed, owner⟩

/-- A visit that meets nothing leaves the trace as it is. -/
theorem Traced.quiet {visit : Visit} (traced : Traced program options visits docs) (quiet : met [visit] = []) :
    Traced program options (visits ++ [visit]) docs := by
  have same : met (visits ++ [visit]) = met visits := by rw [met_append, quiet, List.append_nil]
  obtain ⟨count, exports, members⟩ := traced
  refine ⟨?_, ?_, ?_⟩
  · rwa [same]
  · rwa [made, same]
  · rwa [made, same]

theorem traced_step {before after : Emission} {visit : Visit}
    (stepped : Emission.step program options before visit = .ok after)
    (traced : Traced program options visits before.docs) :
    Traced program options (visits ++ [visit]) after.docs := by
  obtain ⟨head, rfl, rfl⟩ | ⟨head, export_, description, rfl, described, rfl⟩ | ⟨head, rfl, rfl⟩ :=
    step_cases stepped
  · exact (traced_open traced head).quiet rfl
  · exact traced_add traced described
  · exact traced.quiet rfl

end Emission

section Extraction

variable {program : Program} {options : Options} {names : List String} {docs : DocSet}

theorem extract_traced (returned : program.extract options names = .ok docs) :
    ∃ collected visits visited, program.collectModules names = .ok collected ∧
      program.walk options [] ((collected.map (·.symbol)).map .walk) = .ok (visits, visited) ∧
      Traced program options visits docs := by
  obtain ⟨emission, ran, rfl⟩ := extract_ok_iff.mp returned
  obtain ⟨collected, visits, visited, found, walked, folded⟩ := run_ok_iff.mp ran
  refine ⟨collected, visits, visited, found, by simpa [Function.comp_def] using walked, ?_⟩
  have start : Traced program options [] ({} : Emission).docs := ⟨rfl, by simp [made], by simp [membersAt]⟩
  have traced := foldlM_tracks (fun visits (current : Emission) => Traced program options visits current.docs)
    (fun _ _ _ _ => traced_step) folded start
  rwa [List.nil_append] at traced

theorem madeFor_of_made {collected : List CollectedModule} {visits : List Visit} {visited : List SymbolId}
    (found : program.collectModules names = .ok collected)
    (walked : program.walk options [] ((collected.map (·.symbol)).map .walk) = .ok (visits, visited))
    {head : ModuleHead} {export_ : ResolvedExport} {place : Nat} {doc : ExportDoc}
    (known : ((head, export_), place, doc) ∈ made visits docs) :
    MadeFor program options names docs head.symbol export_ place doc := by
  obtain ⟨position, here⟩ := List.getElem?_of_mem known
  obtain ⟨met, there⟩ := List.getElem?_zip_eq_some.mp here
  exact ⟨collected, visits, visited, head, position, found, walked, rfl, met, there⟩

/-- Every document of an export shows the description of the export that it is made for. -/
theorem exists_description (returned : program.extract options names = .ok docs) {place : Nat}
    {doc : ExportDoc} (found : docs.docs[place]? = some (.export_ doc)) :
    ∃ module export_ description, MadeFor program options names docs module export_ place doc ∧
      program.describe options export_.target = .ok description ∧
      doc.kind = description.placedKind (docAt place) := by
  obtain ⟨collected, visits, visited, collects, walked, traced⟩ := extract_traced returned
  have listed := mem_exportsAt.mpr found
  rw [← List.map_snd_zip (Nat.le_of_eq traced.count.symm)] at listed
  obtain ⟨⟨⟨head, export_⟩, _⟩, known, rfl⟩ := List.mem_map.mp listed
  obtain ⟨description, described, same⟩ := traced.exports _ known
  exact ⟨head.symbol, export_, description, madeFor_of_made collects walked known, described, same⟩

/-- Every document of a member shows a member of the description of its owner, by its place. -/
theorem exists_source (returned : program.extract options names = .ok docs) {index : Nat}
    {member : MemberDoc} (found : docs.docs[index]? = some (.member member)) :
    ∃ module export_ place doc description offset,
      MadeFor program options names docs module export_ place doc ∧
      program.describe options export_.target = .ok description ∧ index = place + 1 + offset ∧
      description.members[offset]? = some member.toMember ∧ member.owner = docAt place := by
  obtain ⟨collected, visits, visited, collects, walked, traced⟩ := extract_traced returned
  obtain ⟨⟨⟨head, export_⟩, place, doc⟩, known, description, offset, described, rest⟩ :=
    traced.members (index, member) (mem_membersAt found)
  exact ⟨head.symbol, export_, place, doc, description, offset, madeFor_of_made collects walked known,
    described, rest⟩

end Extraction

end ApiDocs.Proofs.MemberSources
