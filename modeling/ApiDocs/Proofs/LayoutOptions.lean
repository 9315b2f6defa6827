import ApiDocs.Proofs.DeclaredMembers
import Mathlib.Data.List.Perm.Basic

/-! What the options change in a layout. Sorting decides where the properties of constructors stand and
nothing else. Hiding takes entries of a class away and changes nothing in what is left: a hidden entry
makes room for no other one. Outside classes it takes away properties of constructors only. -/

namespace ApiDocs.Proofs.LayoutOptions

open References ParameterProperties ListedMembers Layouts DeclaredMembers

variable {program : Program} {options : Options} {owners : List DeclId} {listed : List ListedMember}

theorem constructor_iff {member : ListedMember} {entry : ClassifiedMember} (own : EntryOf member entry) :
    entry.kind = .constructor ↔ member.decl.kind = .constructor := by
  have kind := own.kind
  constructor
  · intro made
    rw [made] at kind
    exact constructor_of_ofDecl? kind
  · intro made
    rw [made] at kind
    exact (Option.some.inj kind).symm

section Sorting

/-- A declared member, and the properties among the parameters of a constructor in their order. -/
structure IsRun (program : Program) (options : Options) (entry : ClassifiedMember)
    (properties : List ClassifiedMember) : Prop where
  declared : entry.source = .declared
  parameters : ∀ property ∈ properties, property.source = .parameter
  inOrder : ∃ decl, program.declaration entry.decl = .ok decl ∧
    properties =
      if entry.kind = .constructor then decl.parameters.filterMap (propertyOf? program options) else []

/-- The properties in a layout are those of the members that are shown, in their order. -/
theorem parameters_laidOut (program : Program) (options : Options) (listed : List ListedMember) :
    (laidOut program options listed).ordered.filter (·.source = .parameter) =
      (shownMembers options listed).flatMap (propertiesOf program options) := by
  have none : ∀ member : ListedMember, member.classified?.toList.filter (·.source = .parameter) = [] := by
    intro member
    cases classified : member.classified? with
    | none => rfl
    | some entry => simp [source_of_classified? classified]
  have own : ∀ member, (propertiesOf program options member).filter (·.source = .parameter) =
      propertiesOf program options member := by
    intro member
    apply List.filter_eq_self.mpr
    intro property given
    simp [propertiesOf_source given]
  unfold laidOut Program.arrange groupsOf
  cases options.sortMembers with
  | false =>
    simp only [Bool.false_eq_true, if_false, List.filter_append, List.filterMap_eq_flatMap_toList,
      List.flatMap_map, List.filter_flatMap, none, own]
    simp
  | true =>
    simp only [if_true, List.flatMap_map, List.filter_flatMap, List.filter_append, none, own,
      List.nil_append]

theorem flatMap_runs {members : List ListedMember} (properties : ListedMember → List ClassifiedMember)
    (all : ∀ member ∈ members, ∃ entry, member.classified? = some entry) :
    members.flatMap (fun member => member.classified?.toList ++ properties member) =
      (members.filterMap fun member => member.classified?.map fun entry => (entry, properties member)).flatMap
        fun run => run.1 :: run.2 := by
  induction members with
  | nil => rfl
  | cons member members ih =>
    obtain ⟨entry, classified⟩ := all member List.mem_cons_self
    have others := ih fun other inside => all other (List.mem_cons_of_mem _ inside)
    simp [classified, others]

/-- With sorting on, a layout consists of the declared members, each followed by its properties. -/
theorem laidOut_runs (options : Options) (lists : Lists program owners listed)
    (sorted : options.sortMembers = true) :
    ∃ runs : List (ClassifiedMember × List ClassifiedMember),
      (laidOut program options listed).ordered = runs.flatMap (fun run => run.1 :: run.2) ∧
      ∀ run ∈ runs, IsRun program options run.1 run.2 := by
  refine ⟨(shownMembers options listed).filterMap fun member =>
    member.classified?.map fun entry => (entry, propertiesOf program options member), ?_, ?_⟩
  · rw [laidOut, sorted, Program.arrange, if_pos rfl, groupsOf, List.flatMap_map]
    exact flatMap_runs _ fun _ => classified?_of_shown
  · intro run inside
    obtain ⟨member, shown, made⟩ := List.mem_filterMap.mp inside
    obtain ⟨entry, classified, rfl⟩ := Option.map_eq_some_iff.mp made
    have own := entryOf_classified? classified
    refine ⟨own.source, fun _ => propertiesOf_source, member.decl, ?_, ?_⟩
    · rw [own.decl]
      exact lists.found (mem_of_mem_shownMembers shown)
    · simp only [constructor_iff own]
      rfl

/-- An entry comes from a declaration or from a parameter. -/
theorem sources_perm (entries : List ClassifiedMember) :
    (entries.filter (·.source = .declared) ++ entries.filter (·.source = .parameter)).Perm entries := by
  have other : (fun entry : ClassifiedMember => decide (entry.source = .parameter)) =
      fun entry => !decide (entry.source = .declared) := by
    funext entry
    cases entry.source <;> rfl
  rw [other]
  exact List.filter_append_perm _ entries

theorem perm_of_sources {entries others : List ClassifiedMember}
    (declared : entries.filter (·.source = .declared) = others.filter (·.source = .declared))
    (parameters : entries.filter (·.source = .parameter) = others.filter (·.source = .parameter)) :
    entries.Perm others := by
  have perm := sources_perm entries
  rw [declared, parameters] at perm
  exact perm.symm.trans (sources_perm others)

/-- Layouts with and without sorting have the same declared entries and the same properties, each in the
same order, and the same signatures. Without sorting all properties come last; with sorting they
follow their constructor. -/
theorem layout_sorting (options : Options) (accepted : program.check = .ok ())
    (held : DeclsHeld program owners) :
    ∃ sorted unsorted,
      program.layout { options with sortMembers := true } owners = .ok sorted ∧
      program.layout { options with sortMembers := false } owners = .ok unsorted ∧
      sorted.ordered.filter (·.source = .declared) = unsorted.ordered.filter (·.source = .declared) ∧
      sorted.ordered.filter (·.source = .parameter) = unsorted.ordered.filter (·.source = .parameter) ∧
      sorted.ordered.Perm unsorted.ordered ∧
      sorted.callSignature = unsorted.callSignature ∧
      sorted.constructSignature = unsorted.constructSignature ∧
      unsorted.ordered =
        unsorted.ordered.filter (·.source = .declared) ++ unsorted.ordered.filter (·.source = .parameter) ∧
      ∃ runs : List (ClassifiedMember × List ClassifiedMember),
        sorted.ordered = runs.flatMap (fun run => run.1 :: run.2) ∧
        ∀ run ∈ runs, IsRun program options run.1 run.2 := by
  obtain ⟨listed, found, _, laid⟩ := layout_eq (closed_of_check accepted) held
  -- Neither the members that are shown nor their properties depend on the order.
  have declared := declared_laidOut program { options with sortMembers := true } listed
  have parameters := parameters_laidOut program { options with sortMembers := true } listed
  have declaredToo := declared_laidOut program { options with sortMembers := false } listed
  have parametersToo := parameters_laidOut program { options with sortMembers := false } listed
  refine ⟨_, _, laid _, laid _, declared.trans declaredToo.symm, parameters.trans parametersToo.symm,
    perm_of_sources (declared.trans declaredToo.symm) (parameters.trans parametersToo.symm), rfl, rfl, ?_, ?_⟩
  · rw [declaredToo, parametersToo, laidOut, Program.arrange, if_neg Bool.false_ne_true, groupsOf,
      List.filterMap_map, List.flatMap_map]
    rfl
  · obtain ⟨runs, joined, each⟩ :=
      laidOut_runs { options with sortMembers := true } (lists_of_listMembers found) rfl
    refine ⟨runs, joined, fun run inside => ?_⟩
    exact ⟨(each run inside).declared, (each run inside).parameters, (each run inside).inOrder⟩

/-- A class with a method after its constructor, of whose parameters two are properties. -/
def point : Program where
  files := #[{ name := "a.ts" }]
  declarations := #[
    { kind := .class_, file := ⟨0⟩, name := "Point", members := [⟨1⟩, ⟨5⟩] },
    { kind := .constructor, file := ⟨0⟩, name := "", parameters := [⟨2⟩, ⟨3⟩, ⟨4⟩] },
    { kind := .parameter, file := ⟨0⟩, name := "x", modifiers := Modifiers.public_ },
    { kind := .parameter, file := ⟨0⟩, name := "unit" },
    { kind := .parameter, file := ⟨0⟩, name := "y", modifiers := Modifiers.readonly },
    { kind := .method, file := ⟨0⟩, name := "norm" }]

theorem layout_sorting_point :
    point.check = .ok () ∧ DeclsHeld point [⟨0⟩] ∧
      ∃ sorted unsorted, point.layout { sortMembers := true } [⟨0⟩] = .ok sorted ∧
        point.layout { sortMembers := false } [⟨0⟩] = .ok unsorted ∧
        sorted.ordered.map (·.name) = ["constructor", "x", "y", "norm"] ∧
        unsorted.ordered.map (·.name) = ["constructor", "norm", "x", "y"] ∧
        sorted.ordered.Perm unsorted.ordered := by
  have accepted : point.check = .ok () := by decide +kernel
  have held : DeclsHeld point [⟨0⟩] := by simp [DeclsHeld]; decide
  obtain ⟨sorted, unsorted, on, off, _, _, perm, _⟩ := layout_sorting {} accepted held
  cases (show point.layout { sortMembers := true } [⟨0⟩] = .ok _ from rfl).symm.trans on
  cases (show point.layout { sortMembers := false } [⟨0⟩] = .ok _ from rfl).symm.trans off
  exact ⟨accepted, held, _, _, on, off, by decide +kernel, by decide +kernel, perm⟩

end Sorting

section Hiding

/-- The entry is that of a constructor, or neither private nor named as if it were. -/
def staysVisible (entry : ClassifiedMember) : Bool :=
  entry.kind = .constructor || !(entry.access = .private_ || entry.name.toList.head? == some '_')

theorem flatMap_kept {α β : Type} {items : List α} {gone : α → Bool} {before after : α → List β}
    {test : β → Bool}
    (each : ∀ item ∈ items, (before item).filter test = if gone item then [] else after item) :
    (items.filter (!gone ·)).flatMap after = (items.flatMap before).filter test := by
  induction items with
  | nil => rfl
  | cons item items ih =>
    have others := ih fun other inside => each other (List.mem_cons_of_mem _ inside)
    rw [List.flatMap_cons, List.filter_append, each item List.mem_cons_self, ← others]
    cases hidden : gone item <;> simp [hidden]

/-- Leaving out the members that are gone is the same as leaving out their entries, in both orders. -/
theorem arrange_kept (sorted : Bool) {members : List ListedMember} {gone : ListedMember → Bool}
    {before after : ListedMember → List ClassifiedMember} {test : ClassifiedMember → Bool}
    (entries : ∀ member ∈ members, member.classified?.toList.filter test =
      if gone member then [] else member.classified?.toList)
    (properties : ∀ member ∈ members, (before member).filter test =
      if gone member then [] else after member) :
    Program.arrange sorted ((members.filter (!gone ·)).map fun member => (member, after member)) =
      (Program.arrange sorted (members.map fun member => (member, before member))).filter test := by
  have both : ∀ member ∈ members, (member.classified?.toList ++ before member).filter test =
      if gone member then [] else member.classified?.toList ++ after member := by
    intro member inside
    rw [List.filter_append, entries member inside, properties member inside]
    cases gone member <;> rfl
  cases sorted with
  | false =>
    simp only [Program.arrange, Bool.false_eq_true, if_false, List.filterMap_eq_flatMap_toList,
      List.flatMap_map, List.filter_append]
    rw [flatMap_kept entries, flatMap_kept properties]
  | true =>
    simp only [Program.arrange, if_true, List.flatMap_map]
    exact flatMap_kept both

theorem shownMembers_visible (options : Options) (listed : List ListedMember) :
    shownMembers { options with hidePrivate := false } listed = leaders listed := by
  apply List.filter_eq_self.mpr
  intro member _
  simp [ListedMember.isHidden, Options.hides]

theorem propertyOf?_hiding (options : Options) (id : DeclId) :
    propertyOf? program { options with hidePrivate := true } id =
      (propertyOf? program { options with hidePrivate := false } id).filter staysVisible := by
  unfold propertyOf?
  cases program.declaration id with
  | error _ => rfl
  | ok decl =>
    simp only [parameterProperty?, Options.hides, Bool.true_and, Bool.false_and, Bool.not_false,
      Bool.and_true]
    cases meets decl.modifiers Modifiers.parameterProperty with
    | false => rfl
    | true => simp [Option.filter, staysVisible]

theorem propertiesOf_hiding (options : Options) (member : ListedMember) :
    propertiesOf program { options with hidePrivate := true } member =
      (propertiesOf program { options with hidePrivate := false } member).filter staysVisible := by
  unfold propertiesOf
  split
  · rw [List.filter_filterMap]
    simp only [propertyOf?_hiding]
  · rfl

/-- In a class, hidden members are those whose entries are. -/
theorem isHidden_iff_entry {member : ListedMember} {entry : ClassifiedMember} (own : EntryOf member entry)
    (inClass : member.ofClass = true) :
    member.isHidden { options with hidePrivate := true } = !staysVisible entry := by
  have name : entry.name = member.name := own.name
  have access : entry.access = member.access := own.access
  unfold ListedMember.isHidden staysVisible Options.hides
  rw [name, access, inClass]
  by_cases made : member.decl.kind = .constructor
  · simp [made, (constructor_iff own).mpr made]
  · rw [bne_iff_ne.mpr made]
    simp [mt (constructor_iff own).mp made]

theorem laidOut_hiding (program : Program) (options : Options)
    (inClass : ∀ member ∈ listed, member.ofClass = true) :
    (laidOut program { options with hidePrivate := true } listed).ordered =
      (laidOut program { options with hidePrivate := false } listed).ordered.filter staysVisible := by
  have entry : ∀ member ∈ leaders listed, ∃ entry, member.classified? = some entry ∧
      member.isHidden { options with hidePrivate := true } = !staysVisible entry := by
    intro member leads
    obtain ⟨entry, classified⟩ := classified?_of_leads leads
    have inside := (List.mem_filter.mp (mem_of_mem_firstOfEachKey leads)).1
    exact ⟨entry, classified, isHidden_iff_entry (entryOf_classified? classified) (inClass member inside)⟩
  have entries : ∀ member ∈ leaders listed, member.classified?.toList.filter staysVisible =
      if member.isHidden { options with hidePrivate := true } then [] else member.classified?.toList := by
    intro member leads
    obtain ⟨entry, classified, hidden⟩ := entry member leads
    rw [classified, hidden]
    cases visible : staysVisible entry <;> simp [visible]
  have properties : ∀ member ∈ leaders listed,
      (propertiesOf program { options with hidePrivate := false } member).filter staysVisible =
        if member.isHidden { options with hidePrivate := true } then []
        else propertiesOf program { options with hidePrivate := true } member := by
    intro member _
    rw [propertiesOf_hiding]
    split
    next hidden =>
      -- Constructors are never hidden, and other members have no properties to lose.
      have other : member.decl.kind ≠ .constructor := (isHidden_iff.mp hidden).2.2.1
      simp [propertiesOf, other]
    · rfl
  rw [laidOut, laidOut, groupsOf, groupsOf, shownMembers_visible]
  exact arrange_kept options.sortMembers entries properties

/-- For classes the layout with private members hidden is the layout of all members without the entries
that are private or begin with an underscore. Constructors stay, and so do both signatures. -/
theorem layout_hiding (options : Options) (accepted : program.check = .ok ())
    (held : DeclsHeld program owners)
    (classes : ∀ owner ∈ owners, ∀ decl, program.declaration owner = .ok decl → decl.kind = .class_) :
    ∃ layout, program.layout { options with hidePrivate := false } owners = .ok layout ∧
      program.layout { options with hidePrivate := true } owners =
        .ok { layout with ordered := layout.ordered.filter staysVisible } := by
  obtain ⟨listed, found, _, laid⟩ := layout_eq (closed_of_check accepted) held
  have inClass : ∀ member ∈ listed, member.ofClass = true :=
    fun _ => (lists_of_listMembers found).ofClass classes
  refine ⟨_, laid _, (laid _).trans (congrArg _ ?_)⟩
  rw [← laidOut_hiding program options inClass]
  rfl

/-- A class whose first member is private, with a public overload after it, and whose private constructor
has a private and a public property. -/
def vault : Program where
  files := #[{ name := "a.ts" }]
  declarations := #[
    { kind := .class_, file := ⟨0⟩, name := "Vault", members := [⟨1⟩, ⟨2⟩, ⟨3⟩, ⟨4⟩] },
    { kind := .method, file := ⟨0⟩, name := "open", modifiers := Modifiers.private_ },
    { kind := .method, file := ⟨0⟩, name := "open" },
    { kind := .property, file := ⟨0⟩, name := "_door" },
    { kind := .constructor, file := ⟨0⟩, name := "", modifiers := Modifiers.private_,
      parameters := [⟨5⟩, ⟨6⟩] },
    { kind := .parameter, file := ⟨0⟩, name := "code", modifiers := Modifiers.private_ },
    { kind := .parameter, file := ⟨0⟩, name := "size", modifiers := Modifiers.public_ }]

theorem layout_hiding_vault :
    vault.check = .ok () ∧ DeclsHeld vault [⟨0⟩] ∧ (vault.declaration ⟨0⟩).map (·.kind) = .ok .class_ ∧
      ∃ layout, vault.layout { hidePrivate := false } [⟨0⟩] = .ok layout ∧
        layout.ordered.map (·.name) = ["open", "_door", "constructor", "code", "size"] ∧
        (layout.ordered.filter staysVisible).map (·.name) = ["constructor", "size"] ∧
        vault.layout { hidePrivate := true } [⟨0⟩] =
          .ok { layout with ordered := layout.ordered.filter staysVisible } := by
  have accepted : vault.check = .ok () := by decide +kernel
  have held : DeclsHeld vault [⟨0⟩] := by simp [DeclsHeld]; decide
  have classes : ∀ owner ∈ [⟨0⟩], ∀ decl, vault.declaration owner = .ok decl → decl.kind = .class_ := by
    intro owner inside decl found
    cases List.mem_singleton.mp inside
    cases found
    rfl
  obtain ⟨layout, off, on⟩ := layout_hiding {} accepted held classes
  cases (show vault.layout { hidePrivate := false } [⟨0⟩] = .ok _ from rfl).symm.trans off
  exact ⟨accepted, held, rfl, _, off, by decide +kernel, by decide +kernel, on⟩

end Hiding

section OutsideClasses

/-- The entry is declared, or it stays visible in a class as well. -/
def staysOutside (entry : ClassifiedMember) : Bool := entry.source = .declared || staysVisible entry

/-- The parameter is a property that is private or named as if it were. -/
def HiddenProperty (program : Program) (id : DeclId) : Prop :=
  ∃ decl, program.declaration id = .ok decl ∧ meets decl.modifiers Modifiers.parameterProperty = true ∧
    (Access.ofModifiers decl.modifiers = .private_ ∨ decl.name.toList.head? = some '_')

theorem laidOut_hiding_outside (program : Program) (options : Options)
    (outside : ∀ member ∈ listed, member.ofClass = false) :
    (laidOut program { options with hidePrivate := true } listed).ordered =
      (laidOut program { options with hidePrivate := false } listed).ordered.filter staysOutside := by
  have shown : ∀ member ∈ leaders listed,
      member.isHidden { options with hidePrivate := true } = false := by
    intro member leads
    have inside := (List.mem_filter.mp (mem_of_mem_firstOfEachKey leads)).1
    simp [ListedMember.isHidden, outside member inside]
  have entries : ∀ member ∈ leaders listed, member.classified?.toList.filter staysOutside =
      if member.isHidden { options with hidePrivate := true } then [] else member.classified?.toList := by
    intro member leads
    obtain ⟨entry, classified⟩ := classified?_of_leads leads
    have declared := source_of_classified? classified
    rw [shown member leads, classified]
    simp [staysOutside, declared]
  have properties : ∀ member ∈ leaders listed,
      (propertiesOf program { options with hidePrivate := false } member).filter staysOutside =
        if member.isHidden { options with hidePrivate := true } then []
        else propertiesOf program { options with hidePrivate := true } member := by
    intro member leads
    rw [shown member leads, propertiesOf_hiding]
    apply List.filter_congr
    intro property given
    simp [staysOutside, propertiesOf_source given]
  rw [laidOut, laidOut, groupsOf, groupsOf, shownMembers_visible]
  exact arrange_kept options.sortMembers entries properties

/-- The properties in a layout are those of the constructors that lead. -/
theorem mem_laidOut_parameter_iff {entry : ClassifiedMember} :
    entry ∈ (laidOut program options listed).ordered ∧ entry.source = .parameter ↔
      ∃ member, Leads listed member ∧ member.decl.kind = .constructor ∧
        ∃ id ∈ member.decl.parameters, ∃ decl, program.declaration id = .ok decl ∧
          parameterProperty? options id decl = some entry := by
  have chosen : entry ∈ (laidOut program options listed).ordered.filter (·.source = .parameter) ↔
      entry ∈ (laidOut program options listed).ordered ∧ entry.source = .parameter := by
    rw [List.mem_filter, decide_eq_true_iff]
  rw [← chosen, parameters_laidOut, List.mem_flatMap]
  refine exists_congr fun member => ?_
  rw [mem_propertiesOf_iff, ← and_assoc, ← and_assoc]
  refine and_congr_left fun _ => and_congr_left fun made => ?_
  exact constructor_shown_iff made

/-- A layout has an entry to lose outside classes exactly if a constructor that leads has a property that
hiding applies to. -/
theorem laidOut_staysOutside_iff (program : Program) (options : Options) (listed : List ListedMember) :
    (∀ entry ∈ (laidOut program { options with hidePrivate := false } listed).ordered,
        staysOutside entry = true) ↔
      ∀ member, Leads listed member → member.decl.kind = .constructor →
        ∀ id ∈ member.decl.parameters, ¬ HiddenProperty program id := by
  constructor
  · rintro all member leads made id parameter ⟨decl, known, modified, private_⟩
    have apparent : Options.hides { options with hidePrivate := false } decl.name
        (.ofModifiers decl.modifiers) = false := rfl
    obtain ⟨inside, _⟩ := mem_laidOut_parameter_iff.mpr ⟨member, leads, made, id, parameter, decl, known,
      parameterProperty?_eq_some_iff.mpr ⟨modified, apparent, rfl⟩⟩
    have stays := all _ inside
    simp only [staysOutside, staysVisible, reduceCtorEq, decide_false, Bool.false_or, Bool.not_eq_true',
      Bool.or_eq_false_iff, decide_eq_false_iff_not, beq_eq_false_iff_ne] at stays
    exact private_.elim stays.1 stays.2
  · intro none entry inside
    cases source : entry.source with
    | declared => simp [staysOutside, source]
    | parameter =>
      obtain ⟨member, leads, made, id, parameter, decl, known, gave⟩ :=
        mem_laidOut_parameter_iff.mp ⟨inside, source⟩
      obtain ⟨modified, _, rfl⟩ := parameterProperty?_eq_some_iff.mp gave
      have visible := fun private_ => none member leads made id parameter ⟨decl, known, modified, private_⟩
      simpa [staysOutside, staysVisible] using visible

/-- Outside classes hiding leaves all declared members alone and takes away the properties of
constructors that are private or begin with an underscore. So the layout is the same with and without
hiding if and only if no constructor that leads has such a property, as when no owner lists a
constructor. -/
theorem layout_hiding_outside (options : Options) (accepted : program.check = .ok ())
    (held : DeclsHeld program owners)
    (others : ∀ owner ∈ owners, ∀ decl, program.declaration owner = .ok decl → decl.kind ≠ .class_) :
    ∃ listed layout, program.listMembers owners = .ok listed ∧
      program.layout { options with hidePrivate := false } owners = .ok layout ∧
      program.layout { options with hidePrivate := true } owners =
        .ok { layout with ordered := layout.ordered.filter staysOutside } ∧
      (program.layout { options with hidePrivate := true } owners =
          program.layout { options with hidePrivate := false } owners ↔
        ∀ member, Leads listed member → member.decl.kind = .constructor →
          ∀ id ∈ member.decl.parameters, ¬ HiddenProperty program id) := by
  obtain ⟨listed, found, _, laid⟩ := layout_eq (closed_of_check accepted) held
  have outside : ∀ member ∈ listed, member.ofClass = false :=
    fun _ => (lists_of_listMembers found).ofOther others
  have hidden : program.layout { options with hidePrivate := true } owners =
      .ok { laidOut program { options with hidePrivate := false } listed with
        ordered := (laidOut program { options with hidePrivate := false } listed).ordered.filter
          staysOutside } := by
    rw [laid, ← laidOut_hiding_outside program options outside]
    rfl
  refine ⟨listed, _, found, laid _, hidden, ?_⟩
  rw [hidden, laid, ← laidOut_staysOutside_iff program options, ← List.filter_eq_self]
  constructor
  · intro same
    exact congrArg MemberLayout.ordered (Except.ok.inj same)
  · intro same
    rw [same]

/-- An interface with members that a class would hide, and with a constructor one of whose properties is
private. -/
def factory : Program where
  files := #[{ name := "a.ts" }]
  declarations := #[
    { kind := .interface, file := ⟨0⟩, name := "Factory", members := [⟨1⟩, ⟨2⟩, ⟨3⟩] },
    { kind := .property, file := ⟨0⟩, name := "_made" },
    { kind := .method, file := ⟨0⟩, name := "seal", modifiers := Modifiers.private_ },
    { kind := .constructor, file := ⟨0⟩, name := "", parameters := [⟨4⟩, ⟨5⟩] },
    { kind := .parameter, file := ⟨0⟩, name := "tag", modifiers := Modifiers.private_ },
    { kind := .parameter, file := ⟨0⟩, name := "size", modifiers := Modifiers.public_ }]

theorem layout_hiding_outside_factory :
    factory.check = .ok () ∧ DeclsHeld factory [⟨0⟩] ∧
      (factory.declaration ⟨0⟩).map (·.kind) = .ok .interface ∧
      ∃ layout, factory.layout { hidePrivate := false } [⟨0⟩] = .ok layout ∧
        layout.ordered.map (·.name) = ["_made", "seal", "constructor", "tag", "size"] ∧
        (layout.ordered.filter staysOutside).map (·.name) = ["_made", "seal", "constructor", "size"] ∧
        factory.layout { hidePrivate := true } [⟨0⟩] =
          .ok { layout with ordered := layout.ordered.filter staysOutside } := by
  have accepted : factory.check = .ok () := by decide +kernel
  have held : DeclsHeld factory [⟨0⟩] := by simp [DeclsHeld]; decide
  have others : ∀ owner ∈ [⟨0⟩], ∀ decl, factory.declaration owner = .ok decl → decl.kind ≠ .class_ := by
    intro owner inside decl found
    cases List.mem_singleton.mp inside
    cases found
    decide
  obtain ⟨_, layout, _, off, on, _⟩ := layout_hiding_outside {} accepted held others
  cases (show factory.layout { hidePrivate := false } [⟨0⟩] = .ok _ from rfl).symm.trans off
  exact ⟨accepted, held, rfl, _, off, by decide +kernel, by decide +kernel, on⟩

/-- The program passes the check and the owner is an interface, but hiding changes its layout. -/
theorem factory_hides :
    factory.check = .ok () ∧ (factory.declaration ⟨0⟩).map (·.kind) = .ok .interface ∧
      factory.layout { hidePrivate := true } [⟨0⟩] ≠ factory.layout { hidePrivate := false } [⟨0⟩] := by
  refine ⟨by decide +kernel, rfl, ?_⟩
  decide +kernel

end OutsideClasses

end ApiDocs.Proofs.LayoutOptions
