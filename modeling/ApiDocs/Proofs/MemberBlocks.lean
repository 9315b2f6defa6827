import ApiDocs.Proofs.Blocks
import ApiDocs.Proofs.Coverage
import ApiDocs.Proofs.Descriptions
import ApiDocs.Proofs.References
import Mathlib.Data.List.Perm.Subperm

/-! The members of exports. A class, an interface and an enum have the members that the layout of
their declarations gives, in its order; the export lists them by the places where they stand. -/

namespace ApiDocs.Proofs.MemberBlocks

open DocumentGraph Growth Blocks Coverage Descriptions References

section Descriptions

/-- The kind of the declarations that give an export its members. -/
def ownerKind? : ExportKind → Option DeclKind
  | .class_ .. => some .class_
  | .interface .. => some .interface
  | .enum .. => some .enum
  | _ => none

def formOwner? : ExportForm → Option DeclKind
  | .class_ .. => some .class_
  | .interface .. => some .interface
  | .enum => some .enum
  | _ => none

/-- The signatures that an interface has itself. -/
def signatures (kind : ExportKind) : List MemberDoc := kind.callMember?.toList ++ kind.newMember?.toList

def formSignatures : ExportForm → List Member
  | .interface _ _ callMember newMember => callMember.toList ++ newMember.toList
  | _ => []

def isSignature (kind : MemberKind) : Bool := kind = .callSignature || kind = .constructSignature

theorem ownerKind?_placedKind (description : Description) (id : DocId) :
    ownerKind? (description.placedKind id) = formOwner? description.form := by
  unfold Description.placedKind
  cases description.form <;> rfl

theorem signatures_placedKind (description : Description) (id : DocId) :
    signatures (description.placedKind id) =
      (formSignatures description.form).map fun member => { member with owner := id } := by
  unfold Description.placedKind
  cases description.form with
  | interface typeParameters heritage callMember newMember =>
    cases callMember <;> cases newMember <;> rfl
  | _ => rfl

/-- The members are those in the layout of the symbol's declarations of the given kind. -/
def LaidOut (program : Program) (options : Options) (target : Option SymbolId) (kind : DeclKind)
    (members : List Member) : Prop :=
  ∃ id symbol decls layout, target = some id ∧ program.symbol id = .ok symbol ∧
    exportKind? symbol.flags = some kind ∧ symbol.declarations.mapM program.identified = .ok decls ∧
    program.layout options ((decls.filter (·.2.kind = kind)).map (·.1)) = .ok layout ∧
    layout.ordered.mapM (program.describeMember options.keeps symbol.name) = .ok members

/-- Members as an export of the given kind has them, which are none if nothing owns members. -/
def MembersOf (program : Program) (options : Options) (target : Option SymbolId) :
    Option DeclKind → List Member → Prop
  | none, members => members = []
  | some kind, members => LaidOut program options target kind members

variable {program : Program} {options : Options}

/-- What a layout says of a member stands in its description unchanged. -/
structure Copied (classified : ClassifiedMember) (member : Member) : Prop where
  name : member.name = classified.name
  kind : member.kind = classified.kind
  access : member.access = classified.access
  isStatic : member.isStatic = classified.isStatic

theorem copied_of_describeMember {keep : String → Bool} {ownerName : String} {classified : ClassifiedMember}
    {member : Member} (described : program.describeMember keep ownerName classified = .ok member) :
    Copied classified member := by
  obtain ⟨decl, _, rest⟩ := bind_ok_iff.mp described
  obtain ⟨_, _, rest⟩ := bind_ok_iff.mp rest
  obtain ⟨_, _, built⟩ := bind_ok_iff.mp rest
  cases built
  exact ⟨rfl, rfl, rfl, rfl⟩

theorem signatureMember_kind {keep : String → Bool} {ownerName name : String} {kind : MemberKind}
    {decl : Option DeclId} {result : Option Member}
    (given : program.signatureMember keep ownerName name kind decl = .ok result) :
    ∀ member ∈ result.toList, member.kind = kind := by
  cases decl with
  | none =>
    cases given
    simp
  | some decl =>
    obtain ⟨member, described, built⟩ := bind_ok_iff.mp given
    cases built
    simpa using (copied_of_describeMember described).kind

/-- What the parameters of a constructor give are properties. -/
theorem parameterProperties_kind {member : ListedMember} {properties : List ClassifiedMember}
    (given : program.parameterProperties options member = .ok properties) :
    ∀ property ∈ properties, property.kind = .property := by
  intro property inside
  unfold Program.parameterProperties at given
  split at given
  · obtain ⟨parameters, _, built⟩ := bind_ok_iff.mp given
    cases built
    obtain ⟨⟨id, decl⟩, _, made⟩ := List.mem_filterMap.mp inside
    simp only [parameterProperty?] at made
    split at made <;> cases made
    rfl
  · cases given
    cases inside

/-- A layout arranges the members that are shown, each with the properties it gives. -/
theorem layout_cases {decls : List DeclId} {layout : MemberLayout}
    (found : program.layout options decls = .ok layout) :
    ∃ listed members, program.listMembers decls = .ok listed ∧
      members.map (·.1) = shownMembers options listed ∧
      (∀ pair ∈ members, ∀ property ∈ pair.2, property.kind = .property) ∧
      layout.ordered = Program.arrange options.sortMembers members := by
  obtain ⟨listed, given, rest⟩ := bind_ok_iff.mp found
  obtain ⟨members, arranged, built⟩ := bind_ok_iff.mp rest
  cases built
  have related := mapM_ok_iff.mp arranged
  refine ⟨listed, members, given, ?_, ?_, rfl⟩
  · rw [← List.forall₂_eq_eq_eq, List.forall₂_map_left_iff]
    refine related.flip.imp ?_
    intro pair member gave
    obtain ⟨properties, _, built⟩ := bind_ok_iff.mp gave
    cases built
    rfl
  · intro pair place
    obtain ⟨member, _, gave⟩ := exists_related related place
    obtain ⟨properties, found, built⟩ := bind_ok_iff.mp gave
    cases built
    exact parameterProperties_kind found

/-- No signature of an interface itself stands in the list of members. -/
theorem layout_kinds {decls : List DeclId} {layout : MemberLayout}
    (found : program.layout options decls = .ok layout) :
    ∀ classified ∈ layout.ordered, isSignature classified.kind = false := by
  obtain ⟨listed, members, _, _, properties, arranged⟩ := layout_cases found
  intro classified inside
  rw [arranged] at inside
  -- A declared member has a kind that the list admits; what a constructor gives is a property.
  obtain ⟨pair, place, declared | given⟩ := mem_arrange inside
  · obtain ⟨kind, known, rfl⟩ := Option.map_eq_some_iff.mp declared
    unfold ListedMember.kind? at known
    split at known
    · cases known
    · cases known
    next notCall notConstruct =>
      rw [known] at notCall notConstruct
      simpa [isSignature] using And.intro notCall notConstruct
  · rw [properties pair place classified given]
    rfl

theorem membersOf_kinds {target : Option SymbolId} {kind : Option DeclKind} {members : List Member}
    (given : MembersOf program options target kind members) :
    ∀ member ∈ members, isSignature member.kind = false := by
  cases kind with
  | none =>
    cases given
    simp
  | some kind =>
    obtain ⟨_, symbol, _, layout, _, _, _, _, found, described⟩ := given
    intro member inside
    obtain ⟨classified, listed, same⟩ := exists_related (mapM_ok_iff.mp described) inside
    rw [(copied_of_describeMember same).kind]
    exact layout_kinds found classified listed

/-- What a form is built from: the members of a layout, or nothing but its own data. -/
theorem formed_members {name : String} {kind : DeclKind} {primary : Declaration} {primaryId : DeclId}
    {decls : List DeclId} {members : List Member} {form : ExportForm}
    (formed : Formed program options name primary primaryId decls kind members form) :
    (∀ member ∈ formSignatures form, isSignature member.kind = true) ∧
      (formOwner? form = none ∧ members = [] ∨
        formOwner? form = some kind ∧ ∃ layout, program.layout options decls = .ok layout ∧
          layout.ordered.mapM (program.describeMember options.keeps name) = .ok members) := by
  cases formed with
  | class_ laid described | enum laid described =>
    exact ⟨by simp [formSignatures], .inr ⟨rfl, _, laid, described⟩⟩
  | interface laid described call new =>
    refine ⟨?_, .inr ⟨rfl, _, laid, described⟩⟩
    intro member inside
    rcases List.mem_append.mp inside with inside | inside
    · rw [signatureMember_kind call member inside]
      rfl
    · rw [signatureMember_kind new member inside]
      rfl
  | function | typeAlias | variable_ => exact ⟨by simp [formSignatures], .inl ⟨rfl, rfl⟩⟩

/-- A description has the members that its form asks for, and of signatures only its own. -/
theorem describe_members {target : Option SymbolId} {description : Description}
    (described : program.describe options target = .ok description) :
    MembersOf program options target (formOwner? description.form) description.members ∧
      ∀ member ∈ formSignatures description.form, isSignature member.kind = true := by
  cases described_of_describe described with
  | nothing | kindless | undeclared => exact ⟨rfl, by simp [formSignatures]⟩
  | @declared id symbol kind decls primaryId primary rest members form location owner found fitting
      listed chosen formed located owned =>
    obtain ⟨own, ⟨unowned, rfl⟩ | ⟨owned, layout, laid, ordered⟩⟩ :=
      formed_members (formed_of_describeForm formed)
    · refine ⟨?_, own⟩
      simp only [unowned]
      rfl
    · refine ⟨?_, own⟩
      simp only [owned]
      refine ⟨id, symbol, decls, layout, rfl, found, fitting, listed, ?_, ordered⟩
      rw [chosen]
      exact laid

end Descriptions

section Listing

def constructor? : ExportKind → Option DocId
  | .class_ _ _ _ constructor _ _ => constructor
  | _ => none

def statics : ExportKind → List DocId
  | .class_ _ _ _ _ _ statics => statics
  | _ => []

/-- The ids by which an export lists its members. -/
def listed (kind : ExportKind) : List DocId :=
  (constructor? kind).toList ++ (kind.members ++ statics kind)

/-- The ids of the documents behind the one at the given place. -/
def idsBehind (place count : Nat) : List DocId :=
  (List.range count).map fun offset => docAt (place + 1 + offset)

/-- The export at the given place lists documents of the block behind it, none of them twice. -/
structure Lists (kind : ExportKind) (place count : Nat) : Prop where
  inside : ∀ id ∈ listed kind, id ∈ idsBehind place count
  distinct : (listed kind).Nodup
  members : kind.members.Pairwise (·.index < ·.index)
  statics : (statics kind).Pairwise (·.index < ·.index)
  whole : ownerKind? kind = some .interface ∨ ownerKind? kind = some .enum →
    kind.members = idsBehind place count

theorem increasing_idsBehind {place count : Nat} (small : place + count < UInt32.size) :
    (idsBehind place count).Pairwise (·.index < ·.index) := by
  rw [idsBehind, List.pairwise_map]
  refine List.pairwise_lt_range.imp_of_mem ?_
  intro first last firstInside lastInside order
  have firstBound := List.mem_range.mp firstInside
  have lastBound := List.mem_range.mp lastInside
  rw [UInt32.lt_iff_toNat_lt, docAt_toNat (by omega), docAt_toNat (by omega)]
  omega

theorem nodup_idsBehind {place count : Nat} (small : place + count < UInt32.size) :
    (idsBehind place count).Nodup := by
  refine (increasing_idsBehind small).imp ?_
  rintro first last order rfl
  exact UInt32.lt_irrefl _ order

theorem ids_placedMembers (description : Description) (place : Nat) :
    (description.placedMembers (docAt place)).map (·.2) = idsBehind place description.members.length := by
  apply List.ext_getElem
  · simp [Description.placedMembers, idsBehind]
  · intro index _ _
    simp only [Description.placedMembers, idsBehind, List.map_map, List.getElem_map,
      List.getElem_zipIdx, List.getElem_range, Function.comp_apply, docAt_plus]
    congr 1
    omega

/-- The last constructor, the members and the statics of a class are parts of one list. -/
theorem parts_subperm (placed : List (Member × DocId)) :
    let constructors := placed.filter fun (member, _) => member.kind = .constructor
    let others := placed.filter fun (member, _) => member.kind ≠ .constructor
    ((constructors.getLast?.map (·.2)).toList ++
      ((others.filter (!·.1.isStatic)).map (·.2) ++ (others.filter (·.1.isStatic)).map (·.2))).Subperm
        (placed.map (·.2)) := by
  intro constructors others
  have byKind : (constructors ++ others).Perm placed := by
    simpa [constructors, others] using List.filter_append_perm
      (fun pair : Member × DocId => decide (pair.1.kind = .constructor)) placed
  have byStatic : (others.filter (!·.1.isStatic) ++ others.filter (·.1.isStatic)).Perm others := by
    simpa using List.filter_append_perm (fun pair : Member × DocId => !pair.1.isStatic) others
  have last : (constructors.getLast?.map (·.2)).toList.Sublist (constructors.map (·.2)) := by
    rw [← List.getLast?_map]
    cases seen : (constructors.map (·.2)).getLast? with
    | none => simp
    | some id => simpa using List.mem_of_getLast? seen
  rw [← List.map_append]
  refine (last.append (.refl _)).subperm.trans ?_
  rw [← List.map_append]
  exact (((byStatic.append_left _).trans byKind).map _).subperm

theorem lists_whole {kind : ExportKind} {place count : Nat} (small : place + count < UInt32.size)
    (unmade : constructor? kind = none) (unshared : statics kind = [])
    (whole : kind.members = idsBehind place count) : Lists kind place count := by
  have all : listed kind = idsBehind place count := by
    rw [listed, unmade, unshared, whole]
    simp
  constructor
  · intro id inside
    rwa [← all]
  · rw [all]
    exact nodup_idsBehind small
  · rw [whole]
    exact increasing_idsBehind small
  · rw [unshared]
    exact .nil
  · intro _
    exact whole

theorem lists_placedKind (description : Description) {place : Nat}
    (small : place + description.members.length < UInt32.size) :
    Lists (description.placedKind (docAt place)) place description.members.length := by
  have ids := ids_placedMembers description place
  have increasing := increasing_idsBehind small
  have distinct := nodup_idsBehind small
  unfold Description.placedKind
  cases description.form with
  | class_ typeParameters heritage isAbstract =>
    have parts := parts_subperm (description.placedMembers (docAt place))
    rw [ids] at parts
    have ordered : ∀ first last : Member × DocId → Bool,
        ((((description.placedMembers (docAt place)).filter first).filter last).map (·.2)).Pairwise
          (·.index < ·.index) := by
      intro first last
      refine increasing.sublist ?_
      rw [← ids]
      exact (List.filter_sublist.trans List.filter_sublist).map _
    refine ⟨fun _ inside => parts.subset inside, ?_, ordered _ _, ordered _ _, by simp [ownerKind?]⟩
    obtain ⟨chosen, same, within⟩ := parts
    exact same.nodup_iff.mp (distinct.sublist within)
  | interface typeParameters heritage callMember newMember =>
    exact lists_whole small rfl rfl ids
  | enum => exact lists_whole small rfl rfl ids
  | function signature | variable_ keyword returnType | typeAlias typeParameters definition | unknown =>
    exact ⟨by simp [listed, constructor?, statics, ExportKind.members], .nil, .nil, .nil,
      by simp [ownerKind?]⟩

end Listing

section Extraction

variable {program : Program} {options : Options} {names : List String} {docs : DocSet}
  {visits : List Visit}

/-- What stands for an export: its description, whose members make up the block behind it. -/
theorem stands_members {pair : ModuleHead × ResolvedExport} {entry : Nat × ExportDoc}
    (stands : Stands program options docs pair entry) (small : docs.size < UInt32.size) :
    ∃ description, program.describe options pair.2.target = .ok description ∧
      entry.2 = description.exportDoc (docAt entry.1) entry.2.module pair.1.id pair.2.name ∧
      MembersOf program options pair.2.target (ownerKind? entry.2.kind) description.members ∧
      Block docs entry description.members ∧ Lists entry.2.kind entry.1 description.members.length ∧
      ∀ signature ∈ signatures entry.2.kind,
        signature.owner = docAt entry.1 ∧ isSignature signature.kind = true := by
  obtain ⟨description, module, described, same, block⟩ := stands
  obtain ⟨members, own⟩ := describe_members described
  have room := block.end_le
  have kind : entry.2.kind = description.placedKind (docAt entry.1) := by
    rw [same]
    rfl
  refine ⟨description, described, ?_, ?_, block, ?_, ?_⟩
  · rw [same]
    rfl
  · rw [kind, ownerKind?_placedKind]
    exact members
  · rw [kind]
    exact lists_placedKind description (by omega)
  · intro signature listed
    rw [kind, signatures_placedKind] at listed
    obtain ⟨member, inside, rfl⟩ := List.mem_map.mp listed
    exact ⟨rfl, own member inside⟩

theorem emitted_kinds (emitted : Emitted program options visits docs)
    (small : docs.size < UInt32.size) :
    ∀ member ∈ docs.members, isSignature member.kind = false := by
  intro member inside
  obtain ⟨entry, listed, owner⟩ := emitted.owners member inside
  obtain ⟨pair, _, stands⟩ := exists_related emitted.exports listed
  obtain ⟨description, _, _, members, block, _⟩ := stands_members stands small
  refine membersOf_kinds members member.toMember ?_
  rw [← block.owned]
  exact List.mem_map.mpr ⟨member, List.mem_filter.mpr ⟨inside, by simpa using owner⟩, rfl⟩

/-- A member belongs to an export with members, and all that stands between them belongs to it too. -/
theorem emitted_owner (emitted : Emitted program options visits docs) (small : docs.size < UInt32.size)
    {index : Nat} {member : MemberDoc} (found : docs.docs[index]? = some (.member member)) :
    ∃ owner doc, docs.docs[owner]? = some (.export_ doc) ∧ member.owner = docAt owner ∧
      (ownerKind? doc.kind).isSome ∧ owner < index ∧
      ∀ between, owner < between → between ≤ index →
        ∃ other, docs.docs[between]? = some (.member other) ∧ other.owner = docAt owner := by
  obtain ⟨entry, listed, owner⟩ := emitted.owners member (mem_members found)
  obtain ⟨pair, _, stands⟩ := exists_related emitted.exports listed
  obtain ⟨description, _, _, members, block, _⟩ := stands_members stands small
  obtain ⟨offset, bound, place⟩ := block.only index member found owner
  refine ⟨entry.1, entry.2, block.export_, owner, ?_, by omega, ?_⟩
  · cases kind : ownerKind? entry.2.kind with
    | none =>
      rw [kind] at members
      rw [show description.members = [] from members] at bound
      cases bound
    | some kind => rfl
  · intro between behind before
    have inside : between - entry.1 - 1 < description.members.length := by omega
    have stands := block.behind _ _ (List.getElem?_eq_getElem inside)
    rw [show entry.1 + 1 + (between - entry.1 - 1) = between by omega] at stands
    exact ⟨_, stands, rfl⟩

/-- Right behind the document of an export stand its members, in the order of their layout and
nothing else, and the export lists them by their places. Signatures that an interface has itself
are kept in its document only. Every member stands behind its owner in this way. -/
theorem extract_members (returned : program.extract options names = .ok docs)
    (small : docs.size < UInt32.size) :
    (∀ index doc, docs.docs[index]? = some (.export_ doc) →
      ∃ module position export_ description,
        Reached program options names module ∧
        program.moduleId options.baseDir module = .ok doc.moduleId ∧
        Documents program options module position export_ ∧
        program.describe options export_.target = .ok description ∧
        doc = description.exportDoc (docAt index) doc.module doc.moduleId export_.name ∧
        MembersOf program options export_.target (ownerKind? doc.kind) description.members ∧
        Block docs (index, doc) description.members ∧
        Lists doc.kind index description.members.length ∧
        ∀ signature ∈ signatures doc.kind,
          signature.owner = docAt index ∧ signature ∉ docs.members) ∧
    ∀ index member, docs.docs[index]? = some (.member member) →
      ∃ owner doc, docs.docs[owner]? = some (.export_ doc) ∧ member.owner = docAt owner ∧
        (ownerKind? doc.kind).isSome ∧ owner < index ∧
        ∀ between, owner < between → between ≤ index →
          ∃ other, docs.docs[between]? = some (.member other) ∧ other.owner = docAt owner := by
  obtain ⟨emission, ran, rfl⟩ := extract_ok_iff.mp returned
  obtain ⟨collected, visits, visited, found, walked, _, emitted⟩ :=
    run_emitted ran (Nat.le_of_lt small)
  refine ⟨?_, fun index member => emitted_owner emitted small⟩
  intro index doc place
  obtain ⟨⟨head, export_⟩, member, stands⟩ :=
    exists_related emitted.exports (mem_exportsAt.mpr place)
  obtain ⟨description, described, same, members, block, lists, own⟩ := stands_members stands small
  obtain ⟨reached, identified, position, documents⟩ := documents_of_met found walked member
  have named : doc.moduleId = head.id := congrArg ExportDoc.moduleId same
  refine ⟨head.symbol, position, export_, description, reached, ?_, documents, described, ?_,
    members, block, lists, ?_⟩
  · rw [named]
    exact identified
  · rw [named]
    exact same
  · intro signature listed
    obtain ⟨owner, kind⟩ := own signature listed
    refine ⟨owner, fun inside => ?_⟩
    rw [emitted_kinds emitted small signature inside] at kind
    cases kind

/-- A class with a constructor and a static property, and an interface that can be called. -/
def shapes : Program where
  files := #[{ name := "a", moduleSymbol := some ⟨0⟩ }]
  symbols := #[
    { name := "a", flags := SymbolFlags.valueModule, exports := [⟨1⟩, ⟨2⟩] },
    { name := "C", flags := SymbolFlags.class_, declarations := [⟨0⟩], parent := some ⟨0⟩ },
    { name := "I", flags := SymbolFlags.interface, declarations := [⟨5⟩], parent := some ⟨0⟩ }]
  declarations := #[
    { kind := .class_, file := ⟨0⟩, name := "C", members := [⟨1⟩, ⟨2⟩, ⟨4⟩] },
    { kind := .property, file := ⟨0⟩, name := "count", modifiers := Modifiers.static },
    { kind := .constructor, file := ⟨0⟩, name := "", parameters := [⟨3⟩] },
    { kind := .parameter, file := ⟨0⟩, name := "size", modifiers := Modifiers.public_ },
    { kind := .method, file := ⟨0⟩, name := "run" },
    { kind := .interface, file := ⟨0⟩, name := "I", members := [⟨6⟩, ⟨7⟩] },
    { kind := .callSignature, file := ⟨0⟩, name := "" },
    { kind := .property, file := ⟨0⟩, name := "x" }]

def shapesDocs : DocSet := (shapes.extract {} ["a"]).toOption.getD {}

theorem extract_members_shapes :
    shapes.extract {} ["a"] = .ok shapesDocs ∧ shapesDocs.size = 8 ∧
      (∃ doc members, shapesDocs.docs[1]? = some (.export_ doc) ∧
        listed doc.kind = [docAt 3, docAt 4, docAt 5, docAt 2] ∧
        Block shapesDocs (1, doc) members ∧ Lists doc.kind 1 members.length) ∧
      ∃ doc signature, shapesDocs.docs[6]? = some (.export_ doc) ∧ signatures doc.kind = [signature] ∧
        signature.owner = docAt 6 ∧ signature ∉ shapesDocs.members := by
  have returned : shapes.extract {} ["a"] = .ok shapesDocs := by decide +kernel
  have blocks := (extract_members returned (by decide +kernel)).1
  obtain ⟨doc, found, ids⟩ : ∃ doc, shapesDocs.docs[1]? = some (.export_ doc) ∧
      listed doc.kind = [docAt 3, docAt 4, docAt 5, docAt 2] :=
    ⟨(shapesDocs.exports[0]?).get (by decide +kernel), by decide +kernel, by decide +kernel⟩
  obtain ⟨other, foundToo, one⟩ : ∃ doc, shapesDocs.docs[6]? = some (.export_ doc) ∧
      (signatures doc.kind).length = 1 :=
    ⟨(shapesDocs.exports[1]?).get (by decide +kernel), by decide +kernel, by decide +kernel⟩
  obtain ⟨signature, own⟩ := List.length_eq_one_iff.mp one
  obtain ⟨_, _, _, description, _, _, _, _, _, _, block, lists, _⟩ := blocks 1 doc found
  obtain ⟨_, _, _, _, _, _, _, _, _, _, _, _, kept⟩ := blocks 6 other foundToo
  exact ⟨returned, by decide +kernel, ⟨doc, description.members, found, ids, block, lists⟩,
    other, signature, foundToo, own, kept signature (by rw [own]; exact List.mem_singleton.mpr rfl)⟩

end Extraction

end ApiDocs.Proofs.MemberBlocks
