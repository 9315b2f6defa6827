import ApiDocs.Proofs.MemberBlocks
import ApiDocs.Proofs.Provenance

/-! Which members their owners list. Of two constructors of a class only the last is listed, and a
class has two exactly if it shows a static one and another one. Every other member is listed once. -/

namespace ApiDocs.Proofs.ListedMembers

open DocumentGraph Blocks Coverage Descriptions References MemberBlocks Provenance

section Layouts

variable {program : Program} {options : Options}

theorem firstOfEachKey_keys {α κ : Type} [DecidableEq κ] (key : α → κ) (seen : List κ)
    (values : List α) :
    ((firstOfEachKey key seen values).map key).Nodup ∧
      ∀ value ∈ firstOfEachKey key seen values, key value ∉ seen := by
  induction values generalizing seen with
  | nil => exact ⟨.nil, by simp [firstOfEachKey]⟩
  | cons value rest ih =>
    rw [firstOfEachKey]
    by_cases known : key value ∈ seen
    · rw [if_pos known]
      exact ih seen
    · obtain ⟨distinct, fresh⟩ := ih (key value :: seen)
      rw [if_neg known]
      constructor
      · apply List.nodup_cons.mpr
        refine ⟨?_, distinct⟩
        intro again
        obtain ⟨other, inside, same⟩ := List.mem_map.mp again
        exact fresh other inside (same ▸ List.mem_cons_self)
      · intro other inside
        rcases List.mem_cons.mp inside with rfl | inside
        · exact known
        · exact fun seenToo => fresh other inside (List.mem_cons_of_mem _ seenToo)

theorem shownMembers_keys (options : Options) (listed : List ListedMember) :
    ((shownMembers options listed).map (·.key)).Nodup := by
  have distinct := (firstOfEachKey_keys ListedMember.key [] (listed.filter (·.kind?.isSome))).1
  exact List.Nodup.sublist (List.filter_sublist.map _) distinct

/-- A test that no property passes selects the same members in both arrangements. -/
theorem filter_arrange (sorted : Bool) {members : List (ListedMember × List ClassifiedMember)}
    {test : ClassifiedMember → Bool}
    (fails : ∀ pair ∈ members, ∀ property ∈ pair.2, test property = false) :
    (Program.arrange sorted members).filter test =
      (members.filterMap (·.1.classified?)).filter test := by
  have none : ∀ pair ∈ members, pair.2.filter test = [] := by
    intro pair inside
    apply List.filter_eq_nil_iff.mpr
    intro property given
    simp [fails pair inside property given]
  cases sorted with
  | false =>
    have trailing : (members.flatMap (·.2)).filter test = [] := by
      rw [List.filter_flatMap]
      exact List.flatMap_eq_nil_iff.mpr none
    simp [Program.arrange, trailing]
  | true =>
    simp only [Program.arrange, if_true]
    induction members with
    | nil => rfl
    | cons pair rest ih =>
      have others := ih (fun other inside => fails other (List.mem_cons_of_mem _ inside))
        (fun other inside => none other (List.mem_cons_of_mem _ inside))
      rw [List.flatMap_cons, List.filter_append, List.filter_append, none pair List.mem_cons_self,
        others, List.append_nil, ← List.singleton_append (l := rest), List.filterMap_append,
        List.filter_append]
      cases known : pair.1.classified? <;> simp [known]

theorem constructor_of_ofDecl? {kind : DeclKind} (made : MemberKind.ofDecl? kind = some .constructor) :
    kind = .constructor := by
  cases kind <;> simp_all [MemberKind.ofDecl?]

/-- All constructors have the same name, so it takes a modifier to tell two of them apart. -/
theorem key_of_constructor {member : ListedMember} {classified : ClassifiedMember}
    (known : member.classified? = some classified) (made : classified.kind = .constructor) :
    member.key = ("constructor", classified.isStatic) := by
  obtain ⟨kind, listed, rfl⟩ := Option.map_eq_some_iff.mp known
  obtain rfl : kind = .constructor := made
  have declared : member.decl.kind = .constructor := by
    unfold ListedMember.kind? at listed
    split at listed
    · cases listed
    · cases listed
    · exact constructor_of_ofDecl? listed
  simp [ListedMember.key, ListedMember.name, declared]

/-- Two constructors of one owner: one of them is static. -/
def ApartIfConstructors (first last : MemberKind × Bool) : Prop :=
  first.1 = .constructor → last.1 = .constructor → first.2 ≠ last.2

theorem layout_constructors {decls : List DeclId} {layout : MemberLayout}
    (found : program.layout options decls = .ok layout) :
    (layout.ordered.map fun member => (member.kind, member.isStatic)).Pairwise ApartIfConstructors := by
  obtain ⟨listed, members, _, shown, properties, arranged⟩ := layout_cases found
  have keys : members.Pairwise fun first last => first.1.key ≠ last.1.key := by
    have distinct := shownMembers_keys options listed
    rw [← shown, List.map_map] at distinct
    exact List.pairwise_map.mp distinct
  have declared : (members.filterMap (·.1.classified?)).Pairwise fun first last =>
      first.kind = .constructor → last.kind = .constructor → first.isStatic ≠ last.isStatic := by
    apply keys.filterMap
    intro first last different one isOne other isOther made madeToo same
    rw [key_of_constructor isOne made, key_of_constructor isOther madeToo, same] at different
    exact different rfl
  -- Only declared members can be constructors, so it is enough to compare these.
  have constructors := declared.sublist (List.filter_sublist (p := (·.kind = .constructor)))
  rw [← filter_arrange options.sortMembers (by
    intro pair inside property given
    simp [properties pair inside property given]), ← arranged, List.pairwise_filter] at constructors
  apply List.pairwise_map.mpr
  apply constructors.imp
  intro first last apart made madeToo
  exact apart (by simpa using made) (by simpa using madeToo) made madeToo

theorem laidOut_constructors {target : Option SymbolId} {kind : DeclKind} {members : List Member}
    (laidOut : LaidOut program options target kind members) :
    (members.map fun member => (member.kind, member.isStatic)).Pairwise ApartIfConstructors := by
  obtain ⟨_, symbol, _, layout, _, _, _, _, found, described⟩ := laidOut
  have same : members.map (fun member => (member.kind, member.isStatic)) =
      layout.ordered.map fun member => (member.kind, member.isStatic) := by
    rw [← List.forall₂_eq_eq_eq, List.forall₂_map_left_iff, List.forall₂_map_right_iff]
    apply (mapM_ok_iff.mp described).flip.imp
    intro member classified given
    have copied := copied_of_describeMember given
    rw [copied.kind, copied.isStatic]
  rw [same]
  exact layout_constructors found

end Layouts

section Places

/-- Of the items that pass a test the last is the one behind which no other passes. -/
theorem getLast?_filter_iff {α : Type} {front back : List α} {item : α} {test : α → Bool}
    (absent : item ∉ back) (passes : test item = true) :
    ((front ++ item :: back).filter test).getLast? = some item ↔ ∀ other ∈ back, test other = false := by
  rw [List.filter_append, List.filter_cons_of_pos passes, List.getLast?_append_cons]
  cases others : back.filter test with
  | nil =>
    refine iff_of_true (by simp) ?_
    simpa [List.filter_eq_nil_iff] using others
  | cons next rest =>
    have inside : ∀ other ∈ next :: rest, other ∈ back ∧ test other = true := by
      intro other member
      rw [← others] at member
      exact List.mem_filter.mp member
    refine iff_of_false ?_ ?_
    · intro last
      have member : item ∈ next :: rest := List.mem_of_getLast? (by simpa using last)
      exact absent (inside item member).1
    · intro none
      obtain ⟨member, passesToo⟩ := inside next List.mem_cons_self
      simp [none next member] at passesToo

variable {description : Description} {place offset : Nat} {member : Member}

theorem getElem?_placedMembers (description : Description) (place offset : Nat) :
    (description.placedMembers (docAt place))[offset]? =
      (description.members[offset]?).map fun member => (member, docAt (place + 1 + offset)) := by
  simp only [Description.placedMembers, List.getElem?_map, List.getElem?_zipIdx, Option.map_map]
  congr 1
  funext member
  simp only [Function.comp_apply, docAt_plus, Nat.zero_add]
  congr 2
  omega

/-- A class lists the last of its constructors, and every member that is none. -/
theorem mem_parts_iff {placed front back : List (Member × DocId)} {pair : Member × DocId}
    (split : placed = front ++ pair :: back) (distinct : (placed.map (·.2)).Nodup) :
    let constructors := placed.filter fun (member, _) => member.kind = .constructor
    let others := placed.filter fun (member, _) => member.kind ≠ .constructor
    pair.2 ∈ (constructors.getLast?.map (·.2)).toList ++
        ((others.filter (!·.1.isStatic)).map (·.2) ++ (others.filter (·.1.isStatic)).map (·.2)) ↔
      (pair.1.kind = .constructor → ∀ later ∈ back, later.1.kind ≠ .constructor) := by
  intro constructors others
  have here : pair ∈ placed := split ▸ List.mem_append_right _ List.mem_cons_self
  have alone : ∀ other ∈ placed, other.2 = pair.2 → other = pair := by
    intro other inside same
    exact List.inj_on_of_nodup_map distinct inside here same
  have absent : pair ∉ back := by
    intro again
    rw [split, List.map_append, List.map_cons] at distinct
    have fresh := (List.nodup_cons.mp (List.nodup_append.mp distinct).2.1).1
    exact fresh (List.mem_map.mpr ⟨pair, again, rfl⟩)
  by_cases made : pair.1.kind = .constructor
  · have unlisted : ∀ test : Member × DocId → Bool, pair.2 ∉ (others.filter test).map (·.2) := by
      intro test listed
      obtain ⟨other, inside, same⟩ := List.mem_map.mp listed
      obtain ⟨member, plain⟩ := List.mem_filter.mp (List.mem_of_mem_filter inside)
      rw [alone other member same] at plain
      simp [made] at plain
    have last : pair.2 ∈ (constructors.getLast?.map (·.2)).toList ↔ constructors.getLast? = some pair := by
      simp only [Option.mem_toList, Option.map_eq_some_iff]
      constructor
      · rintro ⟨other, found, same⟩
        have member := List.mem_of_mem_filter (List.mem_of_getLast? found)
        rw [found, alone other member same]
      · intro found
        exact ⟨pair, found, rfl⟩
    rw [List.mem_append, List.mem_append, last]
    simp only [unlisted, or_false, made, forall_const]
    refine (split ▸ getLast?_filter_iff absent (by simpa using made)).trans ?_
    simp
  · have member : pair ∈ others := List.mem_filter.mpr ⟨here, by simpa using made⟩
    refine iff_of_true ?_ (fun impossible => absurd impossible made)
    apply List.mem_append_right
    rw [← List.map_append]
    apply List.mem_map.mpr
    refine ⟨pair, ?_, rfl⟩
    cases static : pair.1.isStatic with
    | false => exact List.mem_append_left _ (List.mem_filter.mpr ⟨member, by simp [static]⟩)
    | true => exact List.mem_append_right _ (List.mem_filter.mpr ⟨member, by simp [static]⟩)

/-- The export lists a member by its place unless it is a constructor of a class and another one
follows. -/
theorem mem_listed_iff (small : place + description.members.length < UInt32.size)
    (owner : (formOwner? description.form).isSome) (here : description.members[offset]? = some member) :
    docAt (place + 1 + offset) ∈ listed (description.placedKind (docAt place)) ↔
      (formOwner? description.form = some .class_ → member.kind = .constructor →
        ∀ later ∈ description.members.drop (offset + 1), later.kind ≠ .constructor) := by
  have ids := ids_placedMembers description place
  have distinct := nodup_idsBehind small
  have inside := (List.getElem?_eq_some_iff.mp here).1
  have own : docAt (place + 1 + offset) ∈ idsBehind place description.members.length :=
    List.mem_map.mpr ⟨offset, List.mem_range.mpr inside, rfl⟩
  unfold Description.placedKind
  cases form : description.form with
  | class_ typeParameters heritage isAbstract =>
    have found := getElem?_placedMembers description place offset
    rw [here, Option.map_some] at found
    obtain ⟨bound, same⟩ := List.getElem?_eq_some_iff.mp found
    have split := List.take_append_drop offset (description.placedMembers (docAt place))
    rw [List.drop_eq_getElem_cons bound, same] at split
    refine (mem_parts_iff split.symm (ids ▸ distinct)).trans ?_
    have later : ((description.placedMembers (docAt place)).drop (offset + 1)).map (·.1) =
        description.members.drop (offset + 1) := by
      rw [List.map_drop, members_placedMembers]
    simp only [← later, List.forall_mem_map, formOwner?, forall_const]
  | interface typeParameters heritage callMember newMember =>
    refine iff_of_true ?_ (by simp [formOwner?])
    simpa [listed, constructor?, statics, ExportKind.members, ids] using own
  | enum =>
    refine iff_of_true ?_ (by simp [formOwner?])
    simpa [listed, constructor?, statics, ExportKind.members, ids] using own
  | function signature | variable_ keyword returnType | typeAlias typeParameters definition | unknown =>
    simp [form, formOwner?] at owner

end Places

section Extraction

variable {program : Program} {options : Options} {names : List String} {docs : DocSet}

/-- The owner of the member lists it, and lists it once. -/
def ListedOnce (docs : DocSet) (index : Nat) (member : MemberDoc) : Prop :=
  ∃ doc, docs.get? member.owner = some (.export_ doc) ∧ (ownerKind? doc.kind).isSome ∧
    (listed doc.kind).count (docAt index) = 1

/-- The member is a constructor of a class, and so is a later member of the same owner. -/
def Superseded (docs : DocSet) (index : Nat) (member : MemberDoc) : Prop :=
  ∃ doc, docs.get? member.owner = some (.export_ doc) ∧ ownerKind? doc.kind = some .class_ ∧
    member.kind = .constructor ∧ ∃ (place : Nat) (later : MemberDoc), index < place ∧
      docs.docs[place]? = some (.member later) ∧ later.owner = member.owner ∧ later.kind = .constructor

/-- The class shows a static constructor and one that is not static. -/
def TwoConstructors (program : Program) (options : Options) (target : Option SymbolId) : Prop :=
  ∃ members, LaidOut program options target .class_ members ∧
    ∀ static : Bool, ∃ member ∈ members, member.kind = .constructor ∧ member.isStatic = static

theorem exists_later_iff {entry : Nat × ExportDoc} {members : List Member} {offset : Nat}
    (block : Block docs entry members) (test : Member → Prop) :
    (∃ member ∈ members.drop (offset + 1), test member) ↔
      ∃ (place : Nat) (later : MemberDoc), entry.1 + 1 + offset < place ∧
        docs.docs[place]? = some (.member later) ∧ later.owner = docAt entry.1 ∧ test later.toMember := by
  constructor
  · rintro ⟨member, behind, passes⟩
    obtain ⟨distance, found⟩ := List.getElem?_of_mem behind
    rw [List.getElem?_drop] at found
    exact ⟨_, _, by omega, block.behind _ _ found, rfl, passes⟩
  · rintro ⟨place, later, behind, found, owned, passes⟩
    obtain ⟨position, rfl, listed⟩ := block.offset found owned
    refine ⟨later.toMember, List.mem_of_getElem? (i := position - (offset + 1)) ?_, passes⟩
    rw [List.getElem?_drop, show offset + 1 + (position - (offset + 1)) = position by omega]
    exact listed

variable {index : Nat} {member : MemberDoc}

section Members

variable (returned : program.extract options names = .ok docs) (small : docs.size < UInt32.size)
  (found : docs.docs[index]? = some (.member member))

include returned small found

/-- The owner of a member, whose block holds it. -/
theorem exists_owner :
    ∃ owner doc module export_ description offset,
      docs.get? member.owner = some (.export_ doc) ∧ member.owner = docAt owner ∧
      (ownerKind? doc.kind).isSome ∧ MadeFor program options names docs module export_ owner doc ∧
      program.describe options export_.target = .ok description ∧
      doc.kind = description.placedKind (docAt owner) ∧ Block docs (owner, doc) description.members ∧
      index = owner + 1 + offset ∧ description.members[offset]? = some member.toMember := by
  obtain ⟨_, visits, _, _, _, emitted⟩ := extract_emitted returned small
  obtain ⟨owner, doc, stands, owned, owns, _, _⟩ := emitted_owner emitted small found
  obtain ⟨module, export_, made⟩ := exists_madeFor returned small stands
  obtain ⟨description, described, _, same, block⟩ := made.described returned small
  obtain ⟨offset, place, listed⟩ := block.offset found owned
  have inside : owner < docs.size := block.inside
  refine ⟨owner, doc, module, export_, description, offset, ?_, owned, owns, made, described,
    congrArg ExportDoc.kind same, block, place, listed⟩
  rw [owned, get?_docAt (Nat.lt_trans inside small)]
  exact stands

/-- A member is listed once unless another constructor supersedes it. -/
theorem listedOnce_iff : ListedOnce docs index member ↔ ¬ Superseded docs index member := by
  obtain ⟨owner, doc, _, _, description, offset, home, owned, owns, _, _, kind, block, rfl, listed⟩ :=
    exists_owner returned small found
  have room := block.end_le
  have bound : owner + description.members.length < UInt32.size := by
    simp only at room
    omega
  have lists := lists_placedKind description bound
  have form := ownerKind?_placedKind description (docAt owner)
  rw [← kind] at lists form
  have placed := mem_listed_iff bound (form ▸ owns) listed
  rw [← kind, ← form] at placed
  rw [owned] at home
  simp only [ListedOnce, Superseded, home, owned, Option.some.injEq, Doc.export_.injEq,
    exists_eq_left', owns, true_and]
  rw [← exists_later_iff block (·.kind = .constructor), lists.distinct.count]
  simp [placed]

/-- A class with a superseded constructor shows two. -/
theorem exists_twoConstructors (superseded : Superseded docs index member) :
    ∃ module position export_, Reached program options names module ∧
      Documents program options module position export_ ∧
      TwoConstructors program options export_.target := by
  obtain ⟨owner, doc, module, export_, description, offset, home, owned, _, made, described, kind, block,
    rfl, listed⟩ := exists_owner returned small found
  obtain ⟨reached, position, documents⟩ := made.reached
  obtain ⟨other, again, isClass, isConstructor, place, later, behind, foundLater, ownedToo, laterToo⟩ :=
    superseded
  rw [home] at again
  cases again
  have laidOut := (describe_members described).1
  rw [← ownerKind?_placedKind description (docAt owner), ← kind, isClass] at laidOut
  obtain ⟨last, rfl, listedLater⟩ := block.offset foundLater (ownedToo.trans owned)
  obtain ⟨bound, first⟩ := List.getElem?_eq_some_iff.mp listed
  obtain ⟨boundLater, second⟩ := List.getElem?_eq_some_iff.mp listedLater
  have apart := List.pairwise_iff_getElem.mp (List.pairwise_map.mp (laidOut_constructors laidOut))
    offset last bound boundLater (by simp only at behind; omega)
  rw [first, second] at apart
  have different : member.isStatic ≠ later.isStatic := apart isConstructor laterToo
  refine ⟨module, position, export_, reached, documents, description.members, laidOut, ?_⟩
  intro static
  by_cases same : member.isStatic = static
  · exact ⟨member.toMember, List.mem_of_getElem? listed, isConstructor, same⟩
  · refine ⟨later.toMember, List.mem_of_getElem? listedLater, laterToo, ?_⟩
    exact (Bool.eq_not_of_ne different.symm).trans (Bool.eq_not_of_ne (Ne.symm same)).symm

end Members

theorem layout_nil {layout : MemberLayout} (laid : program.layout options [] = .ok layout) :
    layout.ordered = [] := by
  obtain ⟨listed, members, given, shown, _, arranged⟩ := layout_cases laid
  cases given
  rw [List.map_eq_nil_iff.mp shown] at arranged
  rw [arranged]
  cases options.sortMembers <;> rfl

/-- A layout of a class with a member is the one its description shows. -/
theorem describe_of_laidOut {target : Option SymbolId} {description : Description} {members : List Member}
    (described : program.describe options target = .ok description)
    (laidOut : LaidOut program options target .class_ members) (shown : members ≠ []) :
    formOwner? description.form = some .class_ ∧ description.members = members := by
  obtain ⟨id, symbol, decls, layout, rfl, found, fitting, listed, laid, ordered⟩ := laidOut
  cases described_of_describe described with
  | kindless foundAgain unfit =>
    rw [found] at foundAgain
    cases foundAgain
    rw [fitting] at unfit
    cases unfit
  | undeclared foundAgain fittingAgain listedAgain none =>
    rw [found] at foundAgain
    cases foundAgain
    rw [fitting] at fittingAgain
    cases fittingAgain
    rw [listed] at listedAgain
    cases listedAgain
    rw [none] at laid
    rw [layout_nil laid] at ordered
    cases ordered
    exact absurd rfl shown
  | declared foundAgain fittingAgain listedAgain chosen formed =>
    rw [found] at foundAgain
    cases foundAgain
    rw [fitting] at fittingAgain
    cases fittingAgain
    rw [listed] at listedAgain
    cases listedAgain
    rw [chosen] at laid
    obtain ⟨layoutAgain, laidAgain, rest⟩ := bind_ok_iff.mp formed
    cases laidAgain.symm.trans laid
    obtain ⟨membersAgain, orderedAgain, built⟩ := bind_ok_iff.mp rest
    cases built
    exact ⟨rfl, Except.ok.inj (orderedAgain.symm.trans ordered)⟩

/-- Of two constructors in the block of a class the earlier is superseded. -/
theorem superseded_of_block {place first last : Nat} {doc : ExportDoc} {members : List Member}
    {early late : Member} (block : Block docs (place, doc) members) (small : docs.size < UInt32.size)
    (isClass : ownerKind? doc.kind = some .class_) (order : first < last)
    (foundEarly : members[first]? = some early) (foundLate : members[last]? = some late)
    (made : early.kind = .constructor) (madeToo : late.kind = .constructor) :
    ∃ index member, docs.docs[index]? = some (.member member) ∧ Superseded docs index member := by
  have home : docs.get? (docAt place) = some (.export_ doc) := by
    rw [get?_docAt (Nat.lt_trans block.inside small)]
    exact block.export_
  exact ⟨_, _, block.behind first early foundEarly, doc, home, isClass, made, _, _, by simp only; omega,
    block.behind last late foundLate, rfl, madeToo⟩

theorem exists_superseded (returned : program.extract options names = .ok docs)
    (small : docs.size < UInt32.size) {module : SymbolId} {position : Nat} {export_ : ResolvedExport}
    (reached : Reached program options names module)
    (documents : Documents program options module position export_)
    (two : TwoConstructors program options export_.target) :
    ∃ index member, docs.docs[index]? = some (.member member) ∧ Superseded docs index member := by
  obtain ⟨members, laidOut, both⟩ := two
  obtain ⟨own, inside, made, static⟩ := both false
  obtain ⟨shared, insideToo, madeToo, staticToo⟩ := both true
  obtain ⟨place, doc, madeFor⟩ := exists_document returned small reached documents
  obtain ⟨description, described, _, same, block⟩ := madeFor.described returned small
  obtain ⟨isClass, rfl⟩ := describe_of_laidOut described laidOut (List.ne_nil_of_mem inside)
  rw [← ownerKind?_placedKind description (docAt place)] at isClass
  have kind : doc.kind = description.placedKind (docAt place) := congrArg ExportDoc.kind same
  rw [← kind] at isClass
  obtain ⟨first, found⟩ := List.getElem?_of_mem inside
  obtain ⟨last, foundToo⟩ := List.getElem?_of_mem insideToo
  rcases Nat.lt_trichotomy first last with order | rfl | order
  · exact superseded_of_block block small isClass order found foundToo made madeToo
  · rw [found] at foundToo
    cases foundToo
    rw [static] at staticToo
    cases staticToo
  · exact superseded_of_block block small isClass order foundToo found madeToo made

/-- A member is listed once by its owner unless it is a constructor of a class and a later one is
too. All members are listed exactly if no documented class shows a static constructor beside one that
is not static. -/
theorem extract_lists_members (returned : program.extract options names = .ok docs)
    (small : docs.size < UInt32.size) :
    (∀ (index : Nat) (member : MemberDoc), docs.docs[index]? = some (.member member) →
      (ListedOnce docs index member ↔ ¬ Superseded docs index member)) ∧
    ((∀ (index : Nat) (member : MemberDoc), docs.docs[index]? = some (.member member) →
        ListedOnce docs index member) ↔
      ∀ module position export_, Reached program options names module →
        Documents program options module position export_ →
        ¬ TwoConstructors program options export_.target) := by
  have each : ∀ (index : Nat) (member : MemberDoc), docs.docs[index]? = some (.member member) →
      (ListedOnce docs index member ↔ ¬ Superseded docs index member) :=
    fun _ _ found => listedOnce_iff returned small found
  refine ⟨each, ?_, ?_⟩
  · intro all module position export_ reached documents two
    obtain ⟨index, member, found, superseded⟩ :=
      exists_superseded returned small reached documents two
    exact (each index member found).mp (all index member found) superseded
  · intro none index member found
    apply (each index member found).mpr
    intro superseded
    obtain ⟨module, position, export_, reached, documents, two⟩ :=
      exists_twoConstructors returned small found superseded
    exact none module position export_ reached documents two

/-- A class with a static constructor and another one. -/
def makers : Program where
  files := #[{ name := "a.ts", moduleSymbol := some ⟨0⟩ }]
  symbols := #[
    { name := "a", flags := SymbolFlags.valueModule, exports := [⟨1⟩] },
    { name := "C", flags := SymbolFlags.class_, declarations := [⟨0⟩], parent := some ⟨0⟩ }]
  declarations := #[
    { kind := .class_, file := ⟨0⟩, name := "C", members := [⟨1⟩, ⟨2⟩] },
    { kind := .constructor, file := ⟨0⟩, name := "", modifiers := Modifiers.static },
    { kind := .constructor, file := ⟨0⟩, name := "" }]

def makersDocs : DocSet := (makers.extract {} ["a.ts"]).toOption.getD {}

def maker (static : Bool) : MemberDoc where
  owner := docAt 1
  name := "constructor"
  kind := .constructor
  access := .public_
  isStatic := static
  optional := false
  returnType := "C"
  parameters := some []
  typeParameters := []
  content := none
  location := none

theorem extract_lists_members_makers :
    makers.extract {} ["a.ts"] = .ok makersDocs ∧ makersDocs.size = 4 ∧
      makersDocs.docs[2]? = some (.member (maker true)) ∧ ¬ ListedOnce makersDocs 2 (maker true) ∧
      ∃ module position export_, Reached makers {} ["a.ts"] module ∧
        Documents makers {} module position export_ ∧ TwoConstructors makers {} export_.target := by
  have returned : makers.extract {} ["a.ts"] = .ok makersDocs := by decide +kernel
  have found : makersDocs.docs[2]? = some (.member (maker true)) := by decide +kernel
  have superseded : Superseded makersDocs 2 (maker true) := by
    refine ⟨(makersDocs.exports[0]?).get (by decide +kernel), by decide +kernel, by decide +kernel, rfl, 3,
      maker false, by decide, by decide +kernel, rfl, rfl⟩
  obtain ⟨each, all⟩ := extract_lists_members returned (by decide +kernel)
  have unlisted : ¬ ListedOnce makersDocs 2 (maker true) :=
    fun once => (each 2 _ found).mp once superseded
  refine ⟨returned, by decide +kernel, found, unlisted, ?_⟩
  by_contra none
  refine unlisted (all.mpr ?_ 2 _ found)
  intro module position export_ reached documents two
  exact none ⟨module, position, export_, reached, documents, two⟩

/-- The program passes the check, but the class lists its later constructor only. -/
theorem makers_unlisted :
    makers.check = .ok () ∧ makers.extract {} ["a.ts"] = .ok makersDocs ∧ makersDocs.size = 4 ∧
      makersDocs.docs[2]? = some (.member (maker true)) ∧ ¬ ListedOnce makersDocs 2 (maker true) := by
  refine ⟨by decide +kernel, by decide +kernel, by decide +kernel, by decide +kernel, ?_⟩
  rintro ⟨doc, home, _, once⟩
  have owner : makersDocs.get? (docAt 1) =
      some (.export_ ((makersDocs.exports[0]?).get (by decide +kernel))) := by decide +kernel
  cases home.symm.trans owner
  exact absurd once (by decide +kernel)

end Extraction

end ApiDocs.Proofs.ListedMembers
