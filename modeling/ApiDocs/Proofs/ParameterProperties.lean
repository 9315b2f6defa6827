import ApiDocs.Proofs.Descriptions
import ApiDocs.Proofs.References

/-! Which constructor parameters are documented as properties. Of all members with one key the first
stands for the others, so the parameters of a later constructor give no properties. -/

namespace ApiDocs.Proofs.ParameterProperties

open References Descriptions

section Leaders

theorem mem_firstOfEachKey_iff {α κ : Type} [DecidableEq κ] {key : α → κ} {seen : List κ}
    {values : List α} {value : α} :
    value ∈ firstOfEachKey key seen values ↔
      key value ∉ seen ∧ values.find? (key · = key value) = some value := by
  induction values generalizing seen with
  | nil => simp [firstOfEachKey]
  | cons first rest ih =>
    rw [firstOfEachKey, List.find?_cons]
    by_cases same : key first = key value
    · simp only [same, decide_true, Option.some.injEq]
      by_cases known : key value ∈ seen
      · simp [ih, known]
      · -- The first value takes the key, so no later one can have it.
        simp [ih, known, eq_comm]
    · have different : value ≠ first := fun equal => same (equal ▸ rfl)
      by_cases known : key first ∈ seen
      · simp [ih, known, same]
      · simp [ih, known, same, Ne.symm same, different]

/-- The member is the first that stands in the list with its key. -/
def Leads (listed : List ListedMember) (member : ListedMember) : Prop :=
  listed.find? (fun other => other.kind?.isSome && other.key = member.key) = some member

theorem mem_shownMembers_iff {options : Options} {listed : List ListedMember} {member : ListedMember} :
    member ∈ shownMembers options listed ↔ Leads listed member ∧ member.isHidden options = false := by
  rw [shownMembers, List.mem_filter, mem_firstOfEachKey_iff, List.find?_filter, Leads]
  simp

/-- The option to hide private members leaves constructors alone. -/
theorem constructor_shown_iff {options : Options} {listed : List ListedMember} {member : ListedMember}
    (made : member.decl.kind = .constructor) :
    member ∈ shownMembers options listed ↔ Leads listed member := by
  rw [mem_shownMembers_iff]
  simp [ListedMember.isHidden, made]

end Leaders

section Layouts

variable {program : Program} {options : Options}

/-- The declaration has a modifier that makes a parameter a property, and the options do not hide it. -/
def IsProperty (program : Program) (options : Options) (id : DeclId) : Prop :=
  ∃ decl, program.declaration id = .ok decl ∧ meets decl.modifiers Modifiers.parameterProperty = true ∧
    options.hides decl.name (.ofModifiers decl.modifiers) = false

/-- The layout shows the parameter as a property. -/
def ShowsParameter (layout : MemberLayout) (id : DeclId) : Prop :=
  ∃ entry ∈ layout.ordered, entry.source = .parameter ∧ entry.decl = id

instance (layout : MemberLayout) (id : DeclId) : Decidable (ShowsParameter layout id) :=
  inferInstanceAs (Decidable (∃ entry ∈ layout.ordered, entry.source = .parameter ∧ entry.decl = id))

theorem parameterProperty?_eq_some_iff {id : DeclId} {decl : Declaration} {entry : ClassifiedMember} :
    parameterProperty? options id decl = some entry ↔
      meets decl.modifiers Modifiers.parameterProperty = true ∧
      options.hides decl.name (.ofModifiers decl.modifiers) = false ∧
      entry = { decl := id, name := decl.name, kind := .property, access := .ofModifiers decl.modifiers,
                isStatic := false, source := .parameter } := by
  simp only [parameterProperty?, Option.ite_none_right_eq_some, Bool.and_eq_true, Bool.not_eq_true',
    Option.some.injEq, and_assoc, eq_comm (b := entry)]

/-- A constructor gives a property for each parameter that is one, and nothing else. -/
theorem mem_parameterProperties_iff {member : ListedMember} {properties : List ClassifiedMember}
    (given : program.parameterProperties options member = .ok properties) {entry : ClassifiedMember} :
    entry ∈ properties ↔ member.decl.kind = .constructor ∧ ∃ id ∈ member.decl.parameters, ∃ decl,
      program.declaration id = .ok decl ∧ parameterProperty? options id decl = some entry := by
  unfold Program.parameterProperties at given
  split at given
  next made =>
    obtain ⟨parameters, listed, built⟩ := bind_ok_iff.mp given
    cases built
    simp only [List.mem_filterMap, Prod.exists, mem_identified listed, made, true_and]
    simp [and_assoc]
  next other =>
    cases given
    simp [other]

theorem source_of_classified? {member : ListedMember} {entry : ClassifiedMember}
    (known : member.classified? = some entry) : entry.source = .declared := by
  obtain ⟨kind, _, rfl⟩ := Option.map_eq_some_iff.mp known
  rfl

theorem mem_arrange_of_mem {sorted : Bool} {members : List (ListedMember × List ClassifiedMember)}
    {pair : ListedMember × List ClassifiedMember} {entry : ClassifiedMember} (inside : pair ∈ members)
    (given : entry ∈ pair.2) : entry ∈ Program.arrange sorted members := by
  cases sorted with
  | false => exact List.mem_append_right _ (List.mem_flatMap.mpr ⟨pair, inside, given⟩)
  | true => exact List.mem_flatMap.mpr ⟨pair, inside, List.mem_append_right _ given⟩

/-- The parameters in a layout are those of the constructors that are shown. -/
theorem showsParameter_iff {owners : List DeclId} {listed : List ListedMember} {layout : MemberLayout}
    (members : program.listMembers owners = .ok listed)
    (found : program.layout options owners = .ok layout) (id : DeclId) :
    ShowsParameter layout id ↔ ∃ member, Leads listed member ∧ member.decl.kind = .constructor ∧
      id ∈ member.decl.parameters ∧ IsProperty program options id := by
  obtain ⟨again, membersToo, rest⟩ := bind_ok_iff.mp found
  cases members.symm.trans membersToo
  obtain ⟨pairs, given, built⟩ := bind_ok_iff.mp rest
  cases built
  have related := mapM_ok_iff.mp given
  constructor
  · rintro ⟨entry, inside, source, rfl⟩
    obtain ⟨pair, place, declared | listed⟩ := mem_arrange inside
    · rw [source_of_classified? declared] at source
      cases source
    · obtain ⟨member, shown, gave⟩ := exists_related related place
      obtain ⟨properties, gives, built⟩ := bind_ok_iff.mp gave
      cases built
      obtain ⟨made, id, parameter, decl, known, property⟩ := (mem_parameterProperties_iff gives).mp listed
      obtain ⟨modified, apparent, rfl⟩ := parameterProperty?_eq_some_iff.mp property
      exact ⟨member, (constructor_shown_iff made).mp shown, made, parameter, decl, known, modified, apparent⟩
  · rintro ⟨member, leads, made, parameter, decl, known, modified, apparent⟩
    obtain ⟨pair, place, gave⟩ := exists_related related.flip ((constructor_shown_iff made).mpr leads)
    obtain ⟨properties, gives, built⟩ := bind_ok_iff.mp gave
    cases built
    have inside := (mem_parameterProperties_iff gives).mpr
      ⟨made, id, parameter, decl, known, parameterProperty?_eq_some_iff.mpr ⟨modified, apparent, rfl⟩⟩
    exact ⟨_, mem_arrange_of_mem place inside, rfl, rfl⟩

/-- A layout shows the parameter properties of the constructors that lead, and no others. So it shows
all of them if and only if no other constructor has properties of its own. -/
theorem layout_parameters (options : Options) {owners : List DeclId} (accepted : program.check = .ok ())
    (held : DeclsHeld program owners) :
    ∃ listed layout, program.listMembers owners = .ok listed ∧
      program.layout options owners = .ok layout ∧
      (∀ id, ShowsParameter layout id ↔ ∃ member, Leads listed member ∧ member.decl.kind = .constructor ∧
        id ∈ member.decl.parameters ∧ IsProperty program options id) ∧
      ((∀ member ∈ listed, member.decl.kind = .constructor → ∀ id ∈ member.decl.parameters,
          IsProperty program options id → ShowsParameter layout id) ↔
        ∀ member ∈ listed, member.decl.kind = .constructor → ¬ Leads listed member →
          ∀ id ∈ member.decl.parameters, IsProperty program options id →
            ∃ leader, Leads listed leader ∧ leader.decl.kind = .constructor ∧
              id ∈ leader.decl.parameters) := by
  have closed := closed_of_check accepted
  obtain ⟨listed, members, _⟩ := listMembers_returns closed held
  obtain ⟨layout, found, _⟩ := layout_returns closed options held
  have shown := showsParameter_iff members found
  refine ⟨listed, layout, members, found, shown, ?_⟩
  constructor
  · intro all member inside made _ id parameter property
    obtain ⟨leader, leads, madeToo, shared, _⟩ := (shown id).mp (all member inside made id parameter property)
    exact ⟨leader, leads, madeToo, shared⟩
  · intro others member inside made id parameter property
    apply (shown id).mpr
    by_cases leads : Leads listed member
    · exact ⟨member, leads, made, parameter, property⟩
    · obtain ⟨leader, leads, madeToo, shared⟩ := others member inside made leads id parameter property
      exact ⟨leader, leads, madeToo, shared, property⟩

/-- A class with an overload of its constructor before the constructor itself. -/
def overloads : Program where
  files := #[{ name := "a.ts", moduleSymbol := some ⟨0⟩ }]
  symbols := #[
    { name := "a", flags := SymbolFlags.valueModule, exports := [⟨1⟩] },
    { name := "C", flags := SymbolFlags.class_, declarations := [⟨0⟩], parent := some ⟨0⟩ }]
  declarations := #[
    { kind := .class_, file := ⟨0⟩, name := "C", members := [⟨1⟩, ⟨2⟩] },
    { kind := .constructor, file := ⟨0⟩, name := "", parameters := [⟨3⟩] },
    { kind := .constructor, file := ⟨0⟩, name := "", parameters := [⟨4⟩] },
    { kind := .parameter, file := ⟨0⟩, name := "x", typeAnnotation := some "number" },
    { kind := .parameter, file := ⟨0⟩, name := "x", modifiers := Modifiers.public_,
      typeAnnotation := some "number" }]

def overload : ListedMember where
  ofClass := true
  id := ⟨1⟩
  decl := { kind := .constructor, file := ⟨0⟩, name := "", parameters := [⟨3⟩] }

def implementation : ListedMember where
  ofClass := true
  id := ⟨2⟩
  decl := { kind := .constructor, file := ⟨0⟩, name := "", parameters := [⟨4⟩] }

theorem overloads_listed : overloads.listMembers [⟨0⟩] = .ok [overload, implementation] := rfl

theorem property_overloads : IsProperty overloads {} ⟨4⟩ := ⟨_, rfl, by decide, by decide⟩

/-- The overload leads, so the parameter of the constructor itself is not shown. -/
theorem layout_parameters_overloads :
    overloads.check = .ok () ∧ DeclsHeld overloads [⟨0⟩] ∧
      ∃ layout, overloads.layout {} [⟨0⟩] = .ok layout ∧ ¬ ShowsParameter layout ⟨4⟩ := by
  have accepted : overloads.check = .ok () := by decide +kernel
  have held : DeclsHeld overloads [⟨0⟩] := by simp [DeclsHeld]; decide
  obtain ⟨listed, layout, members, found, shown, _⟩ := layout_parameters {} accepted held
  cases overloads_listed.symm.trans members
  refine ⟨accepted, held, layout, found, fun shows => ?_⟩
  obtain ⟨member, leads, _, parameter, _⟩ := (shown _).mp shows
  have inside := List.mem_of_find?_eq_some leads
  simp only [List.mem_cons, List.not_mem_nil, or_false] at inside
  rcases inside with rfl | rfl
  · exact absurd parameter (by decide)
  · have first : Leads [overload, implementation] overload := rfl
    cases Option.some.inj (first.symm.trans leads)

/-- The program passes the check, and a constructor of the class has a public parameter that the layout
does not show. -/
theorem overloads_unshown :
    overloads.check = .ok () ∧ (overloads.declaration ⟨0⟩).map (·.kind) = .ok .class_ ∧
      overloads.listMembers [⟨0⟩] = .ok [overload, implementation] ∧
      implementation.decl.kind = .constructor ∧ ⟨4⟩ ∈ implementation.decl.parameters ∧
      IsProperty overloads {} ⟨4⟩ ∧
      ∃ layout, overloads.layout {} [⟨0⟩] = .ok layout ∧ ¬ ShowsParameter layout ⟨4⟩ := by
  refine ⟨by decide +kernel, rfl, overloads_listed, rfl, by decide, property_overloads, ?_⟩
  exact ⟨_, rfl, by decide +kernel⟩

end Layouts

end ApiDocs.Proofs.ParameterProperties
