import ApiDocs.Proofs.Layouts
import Mathlib.Data.List.Induction

/-! Which members a layout declares, by their places in the lists of the owners. Of the members with
one key the first is shown, unless the options hide it, and then none of the others is shown in its
stead. Signatures and other declarations take no part in this. -/

namespace ApiDocs.Proofs.DeclaredMembers

open References ParameterProperties Layouts

/-- The kinds of declarations that stand in the list of members. -/
def memberKinds : List DeclKind :=
  [.property, .method, .constructor, .getAccessor, .setAccessor, .enumMember]

/-- The item at this place passes the test, and none before it does. -/
def FirstAt {α : Type} (test : α → Prop) (items : List α) (place : Nat) : Prop :=
  (∃ item ∈ items[place]?, test item) ∧ ∀ earlier < place, ∀ item ∈ items[earlier]?, ¬ test item

instance {α : Type} (test : α → Prop) [DecidablePred test] (items : List α) (place : Nat) :
    Decidable (FirstAt test items place) :=
  inferInstanceAs (Decidable (_ ∧ _))

/-- The options hide this member of a class. -/
def Hidden (options : Options) (member : ListedMember) : Prop :=
  options.hidePrivate = true ∧ member.ofClass = true ∧ member.decl.kind ≠ .constructor ∧
    (member.access = .private_ ∨ member.name.toList.head? = some '_')

instance (options : Options) (member : ListedMember) : Decidable (Hidden options member) :=
  inferInstanceAs (Decidable (_ ∧ _))

/-- At this place stands the first member with its key, and it is not hidden. -/
def DeclaresAt (options : Options) (listed : List ListedMember) (place : Nat) : Prop :=
  ∃ member ∈ listed[place]?, ¬ Hidden options member ∧
    FirstAt (fun other => other.decl.kind ∈ memberKinds ∧ other.key = member.key) listed place

instance (options : Options) (listed : List ListedMember) (place : Nat) :
    Decidable (DeclaresAt options listed place) :=
  inferInstanceAs (Decidable (∃ member ∈ listed[place]?, _))

/-- The entry is that of the member. -/
structure EntryOf (member : ListedMember) (entry : ClassifiedMember) : Prop where
  decl : entry.decl = member.id
  name : entry.name = if member.decl.kind = .constructor then "constructor" else member.decl.name
  kind : MemberKind.ofDecl? member.decl.kind = some entry.kind
  access : entry.access = .ofModifiers member.decl.modifiers
  isStatic : entry.isStatic = covers member.decl.modifiers Modifiers.static
  source : entry.source = .declared

variable {program : Program} {options : Options} {owners : List DeclId} {listed : List ListedMember}
  {member : ListedMember} {place : Nat}

section Places

theorem firstAt_append_of_lt {α : Type} {test : α → Prop} {items : List α} (inside : place < items.length)
    (item : α) : FirstAt test (items ++ [item]) place ↔ FirstAt test items place := by
  unfold FirstAt
  rw [List.getElem?_append_left inside]
  refine and_congr_right fun _ => forall₂_congr fun earlier before => ?_
  rw [List.getElem?_append_left (Nat.lt_trans before inside)]

theorem firstAt_last {α : Type} {test : α → Prop} {items : List α} {item : α} :
    FirstAt test (items ++ [item]) items.length ↔ test item ∧ ∀ other ∈ items, ¬ test other := by
  unfold FirstAt
  rw [List.getElem?_concat_length]
  refine and_congr (by simp) ?_
  constructor
  · intro none other inside
    obtain ⟨earlier, before, rfl⟩ := List.mem_iff_getElem.mp inside
    exact none earlier before _ (by simp [List.getElem?_append_left before, before])
  · intro none earlier before other here
    rw [List.getElem?_append_left before] at here
    exact none other (List.mem_of_getElem? here)

theorem isSome_kind?_iff : member.kind?.isSome ↔ member.decl.kind ∈ memberKinds := by
  unfold ListedMember.kind?
  cases member.decl.kind <;> simp [MemberKind.ofDecl?, memberKinds]

theorem isHidden_iff : member.isHidden options = true ↔ Hidden options member := by
  simp only [ListedMember.isHidden, Options.hides, Hidden, Bool.and_eq_true, Bool.or_eq_true, bne_iff_ne,
    decide_eq_true_eq, beq_iff_eq]
  tauto

theorem mem_keys_leaders {key : String × Bool} :
    key ∈ (leaders listed).map (·.key) ↔ ∃ member ∈ listed, member.kind?.isSome ∧ member.key = key := by
  constructor
  · intro known
    obtain ⟨leader, leads, same⟩ := List.mem_map.mp known
    obtain ⟨inside, stands⟩ := List.mem_filter.mp (mem_of_mem_firstOfEachKey leads)
    exact ⟨leader, inside, stands, same⟩
  · rintro ⟨member, inside, stands, rfl⟩
    have candidate : member ∈ listed.filter (·.kind?.isSome) := List.mem_filter.mpr ⟨inside, stands⟩
    obtain ⟨leader, first⟩ : ∃ leader,
        (listed.filter (·.kind?.isSome)).find? (·.key = member.key) = some leader :=
      Option.isSome_iff_exists.mp (List.find?_isSome.mpr ⟨member, candidate, decide_eq_true rfl⟩)
    have same : leader.key = member.key := by simpa using List.find?_some first
    refine List.mem_map.mpr ⟨leader, mem_firstOfEachKey_iff.mpr ⟨List.not_mem_nil, ?_⟩, same⟩
    rw [same]
    exact first

theorem declaresAt_append_of_lt (inside : place < listed.length) (member : ListedMember) :
    DeclaresAt options (listed ++ [member]) place ↔ DeclaresAt options listed place := by
  unfold DeclaresAt
  rw [List.getElem?_append_left inside]
  simp only [firstAt_append_of_lt inside]

theorem declaresAt_last :
    DeclaresAt options (listed ++ [member]) listed.length ↔
      IsFresh listed member ∧ member.isHidden options = false := by
  unfold DeclaresAt IsFresh
  rw [List.getElem?_concat_length, mem_keys_leaders, ← Bool.not_eq_true, isHidden_iff, isSome_kind?_iff]
  simp only [Option.mem_def, Option.some.injEq, exists_eq_left', firstAt_last, isSome_kind?_iff, not_exists,
    not_and]
  tauto

/-- The members that are shown stand, in their order, at the places that declare one. -/
theorem shownMembers_places (options : Options) (listed : List ListedMember) :
    List.Forall₂ (fun place member => listed[place]? = some member)
      ((List.range listed.length).filter (DeclaresAt options listed ·)) (shownMembers options listed) := by
  -- A place depends on nothing behind it, so members are added at the end.
  induction listed using List.reverseRecOn with
  | nil => exact .nil
  | append_singleton listed member ih =>
    have before : (List.range listed.length).filter (DeclaresAt options (listed ++ [member]) ·) =
        (List.range listed.length).filter (DeclaresAt options listed ·) := by
      apply List.filter_congr
      intro place inside
      rw [decide_eq_decide]
      exact declaresAt_append_of_lt (List.mem_range.mp inside) member
    rw [shownMembers_append, List.length_append, List.length_singleton, List.range_succ, List.filter_append,
      before]
    refine List.rel_append (ih.imp fun place other here => ?_) ?_
    · exact (List.getElem?_append_left (List.getElem?_eq_some_iff.mp here).1).trans here
    · rw [List.filter_singleton]
      by_cases declares : DeclaresAt options (listed ++ [member]) listed.length
      · rw [if_pos (declaresAt_last.mp declares), decide_eq_true declares]
        exact .cons List.getElem?_concat_length .nil
      · rw [if_neg fun fresh => declares (declaresAt_last.mpr fresh), decide_eq_false declares]
        exact .nil

theorem find?_eq_some_iff_firstAt {α : Type} {test : α → Bool} {items : List α} {item : α} :
    items.find? test = some item ↔
      ∃ place, items[place]? = some item ∧ FirstAt (test · = true) items place := by
  rw [List.find?_eq_some_iff_getElem]
  constructor
  · rintro ⟨passes, place, inside, rfl, none⟩
    refine ⟨place, by simp [inside], ⟨_, by simp [inside], passes⟩, fun earlier before other here => ?_⟩
    obtain ⟨_, rfl⟩ := List.getElem?_eq_some_iff.mp here
    simpa using none earlier before
  · rintro ⟨place, here, ⟨found, again, passes⟩, none⟩
    cases here.symm.trans again
    obtain ⟨inside, rfl⟩ := List.getElem?_eq_some_iff.mp here
    refine ⟨passes, place, inside, rfl, fun earlier before => ?_⟩
    simpa using none earlier before _ (by simp [Nat.lt_trans before inside])

end Places

section Layouts

theorem entryOf_classified? {entry : ClassifiedMember} (classified : member.classified? = some entry) :
    EntryOf member entry := by
  obtain ⟨kind, known, rfl⟩ := Option.map_eq_some_iff.mp classified
  refine ⟨rfl, rfl, ?_, rfl, rfl, rfl⟩
  unfold ListedMember.kind? at known
  split at known
  · cases known
  · cases known
  · exact known

theorem classified?_of_leads (leads : member ∈ leaders listed) :
    ∃ entry, member.classified? = some entry := by
  have stands := (List.mem_filter.mp (mem_of_mem_firstOfEachKey leads)).2
  obtain ⟨kind, known⟩ := Option.isSome_iff_exists.mp stands
  exact ⟨_, Option.map_eq_some_iff.mpr ⟨kind, known, rfl⟩⟩

theorem classified?_of_shown (shown : member ∈ shownMembers options listed) :
    ∃ entry, member.classified? = some entry :=
  classified?_of_leads (List.mem_filter.mp shown).1

theorem entries_places (program : Program) (options : Options) (listed : List ListedMember) :
    List.Forall₂ (fun place entry => ∃ member ∈ listed[place]?, EntryOf member entry)
      ((List.range listed.length).filter (DeclaresAt options listed ·))
      ((laidOut program options listed).ordered.filter (·.source = .declared)) := by
  rw [declared_laidOut]
  have entries := related_filterMap (shownMembers_places options listed) fun _ => classified?_of_shown
  refine entries.imp fun place entry ⟨member, here, classified⟩ => ?_
  exact ⟨member, here, entryOf_classified? classified⟩

theorem signature_firstAt (kind : DeclKind) (listed : List ListedMember) (id : DeclId) :
    (listed.find? (·.decl.kind = kind)).map (·.id) = some id ↔
      ∃ place, ∃ member ∈ listed[place]?, member.id = id ∧ FirstAt (·.decl.kind = kind) listed place := by
  simp only [Option.map_eq_some_iff, find?_eq_some_iff_firstAt, decide_eq_true_eq, Option.mem_def]
  constructor
  · rintro ⟨member, ⟨place, here, first⟩, same⟩
    exact ⟨place, member, here, same, first⟩
  · rintro ⟨place, member, here, same, first⟩
    exact ⟨member, ⟨place, here, first⟩, same⟩

/-- The declared entries of a layout are, in the order of the lists of members, those of the members that
come first with their key and are not hidden; the signatures are the first of their kind. One pass over
the members finds all of it. -/
theorem layout_declares (options : Options) (accepted : program.check = .ok ())
    (held : DeclsHeld program owners) :
    ∃ listed layout, program.listMembers owners = .ok listed ∧ Lists program owners listed ∧
      program.layout options owners = .ok layout ∧ onePass program options owners = .ok layout ∧
      List.Forall₂ (fun place entry => ∃ member ∈ listed[place]?, EntryOf member entry)
        ((List.range listed.length).filter (DeclaresAt options listed ·))
        (layout.ordered.filter (·.source = .declared)) ∧
      (∀ id, layout.callSignature = some id ↔ ∃ place, ∃ member ∈ listed[place]?,
        member.id = id ∧ FirstAt (·.decl.kind = .callSignature) listed place) ∧
      ∀ id, layout.constructSignature = some id ↔ ∃ place, ∃ member ∈ listed[place]?,
        member.id = id ∧ FirstAt (·.decl.kind = .constructSignature) listed place := by
  have closed := closed_of_check accepted
  obtain ⟨listed, found, inside, laid⟩ := layout_eq closed held
  exact ⟨listed, laidOut program options listed, found, lists_of_listMembers found, laid options,
    onePass_eq closed options found inside, entries_places program options listed,
    signature_firstAt .callSignature listed, signature_firstAt .constructSignature listed⟩

/-- A class and an interface of one name. The class has a private overload of a method before a public one;
the interface has signatures of both kinds, one index signature and a member that begins with an
underscore. -/
def merged : Program where
  files := #[{ name := "a.ts" }]
  declarations := #[
    { kind := .class_, file := ⟨0⟩, name := "C", members := [⟨2⟩, ⟨3⟩, ⟨4⟩] },
    { kind := .interface, file := ⟨0⟩, name := "C", members := [⟨5⟩, ⟨6⟩, ⟨7⟩, ⟨8⟩, ⟨9⟩] },
    { kind := .method, file := ⟨0⟩, name := "run", modifiers := Modifiers.private_ },
    { kind := .method, file := ⟨0⟩, name := "run" },
    { kind := .constructor, file := ⟨0⟩, name := "" },
    { kind := .constructSignature, file := ⟨0⟩, name := "" },
    { kind := .callSignature, file := ⟨0⟩, name := "" },
    { kind := .indexSignature, file := ⟨0⟩, name := "" },
    { kind := .callSignature, file := ⟨0⟩, name := "" },
    { kind := .property, file := ⟨0⟩, name := "_size" }]

/-- With private members hidden, the constructor and the member of the interface are declared, but neither
overload of the method: the private one uses up their key. -/
theorem layout_declares_merged :
    merged.check = .ok () ∧ DeclsHeld merged [⟨0⟩, ⟨1⟩] ∧
      ∃ layout, merged.layout { hidePrivate := true } [⟨0⟩, ⟨1⟩] = .ok layout ∧
        (layout.ordered.filter (·.source = .declared)).length = 2 ∧ layout.callSignature = some ⟨6⟩ := by
  have accepted : merged.check = .ok () := by decide +kernel
  have held : DeclsHeld merged [⟨0⟩, ⟨1⟩] := by simp [DeclsHeld]; decide
  obtain ⟨listed, layout, found, _, laid, _, declared, call, _⟩ :=
    layout_declares { hidePrivate := true } accepted held
  cases (show merged.listMembers [⟨0⟩, ⟨1⟩] = .ok _ from rfl).symm.trans found
  refine ⟨accepted, held, layout, laid, ?_, ?_⟩
  · rw [← declared.length_eq]
    decide +kernel
  · exact (call ⟨6⟩).mpr ⟨4, _, rfl, rfl, by decide +kernel⟩

end Layouts

end ApiDocs.Proofs.DeclaredMembers
