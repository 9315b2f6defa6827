import ApiDocs.Proofs.ListedMembers
import ApiDocs.Proofs.ParameterProperties
import ApiDocs.Proofs.References

/-! Layouts as functions of the members that the owners list. In a sound program a layout never fails.
One pass over the members, which keeps the keys it has met and puts off the properties of constructors
if they are not to follow them at once, comes to the same layout. -/

namespace ApiDocs.Proofs.Layouts

open References ParameterProperties ListedMembers

variable {program : Program} {options : Options} {owners : List DeclId} {listed : List ListedMember}

section Listing

/-- The members of the owners, one list after the other, each with its declaration. -/
def Lists (program : Program) (owners : List DeclId) (listed : List ListedMember) : Prop :=
  ∃ decls, List.Forall₂ (fun owner decl => program.declaration owner = .ok decl) owners decls ∧
    List.Forall₂ (fun (slot : Bool × DeclId) member =>
        slot = (member.ofClass, member.id) ∧ program.declaration member.id = .ok member.decl)
      (decls.flatMap fun decl => decl.members.map fun id => (decide (decl.kind = .class_), id)) listed

theorem lists_of_listMembers (found : program.listMembers owners = .ok listed) :
    Lists program owners listed := by
  obtain ⟨groups, grouped, built⟩ := bind_ok_iff.mp found
  cases built
  clear found
  induction mapM_ok_iff.mp grouped with
  | nil => exact ⟨[], .nil, .nil⟩
  | @cons owner group owners groups given related ih =>
    obtain ⟨decls, others, rest⟩ := ih (mapM_ok_iff.mpr related)
    obtain ⟨decl, declared, members⟩ := bind_ok_iff.mp given
    refine ⟨decl :: decls, .cons declared others, List.rel_append ?_ rest⟩
    rw [List.forall₂_map_left_iff]
    refine (mapM_ok_iff.mp members).imp fun id member looked => ?_
    obtain ⟨memberDecl, known, made⟩ := bind_ok_iff.mp looked
    cases made
    exact ⟨rfl, known⟩

theorem Lists.found (lists : Lists program owners listed) {member : ListedMember} (inside : member ∈ listed) :
    program.declaration member.id = .ok member.decl := by
  obtain ⟨decls, _, related⟩ := lists
  obtain ⟨_, _, _, known⟩ := exists_related related inside
  exact known

/-- A member knows whether the owner that lists it is a class. -/
theorem Lists.owner (lists : Lists program owners listed) {member : ListedMember} (inside : member ∈ listed) :
    ∃ owner ∈ owners, ∃ decl, program.declaration owner = .ok decl ∧
      member.ofClass = decide (decl.kind = .class_) := by
  obtain ⟨decls, declared, related⟩ := lists
  obtain ⟨slot, place, same, _⟩ := exists_related related inside
  obtain ⟨decl, known, listed⟩ := List.mem_flatMap.mp place
  obtain ⟨id, _, rfl⟩ := List.mem_map.mp listed
  obtain ⟨owner, owns, found⟩ := exists_related declared known
  exact ⟨owner, owns, decl, found, (congrArg Prod.fst same).symm⟩

theorem Lists.ofClass (lists : Lists program owners listed)
    (classes : ∀ owner ∈ owners, ∀ decl, program.declaration owner = .ok decl → decl.kind = .class_)
    {member : ListedMember} (inside : member ∈ listed) : member.ofClass = true := by
  obtain ⟨owner, owns, decl, found, same⟩ := lists.owner inside
  exact same.trans (decide_eq_true (classes owner owns decl found))

theorem Lists.ofOther (lists : Lists program owners listed)
    (others : ∀ owner ∈ owners, ∀ decl, program.declaration owner = .ok decl → decl.kind ≠ .class_)
    {member : ListedMember} (inside : member ∈ listed) : member.ofClass = false := by
  obtain ⟨owner, owns, decl, found, same⟩ := lists.owner inside
  exact same.trans (decide_eq_false (others owner owns decl found))

end Listing

section Forms

/-- The property that a constructor parameter stands for, if it is in the table. -/
def propertyOf? (program : Program) (options : Options) (id : DeclId) : Option ClassifiedMember :=
  match program.declaration id with
  | .ok decl => parameterProperty? options id decl
  | .error _ => none

def propertiesOf (program : Program) (options : Options) (member : ListedMember) : List ClassifiedMember :=
  if member.decl.kind = .constructor then member.decl.parameters.filterMap (propertyOf? program options)
  else []

/-- The members that are shown, each with the properties it gives. -/
def groupsOf (program : Program) (options : Options) (listed : List ListedMember) :
    List (ListedMember × List ClassifiedMember) :=
  (shownMembers options listed).map fun member => (member, propertiesOf program options member)

/-- What a layout is, in terms of the members that the owners list. -/
def laidOut (program : Program) (options : Options) (listed : List ListedMember) : MemberLayout where
  ordered := Program.arrange options.sortMembers (groupsOf program options listed)
  callSignature := (listed.find? (·.decl.kind = .callSignature)).map (·.id)
  constructSignature := (listed.find? (·.decl.kind = .constructSignature)).map (·.id)

theorem filterMap_identified {ids : List DeclId} {decls : List (DeclId × Declaration)}
    (found : ids.mapM program.identified = .ok decls) :
    decls.filterMap (fun (id, decl) => parameterProperty? options id decl) =
      ids.filterMap (propertyOf? program options) := by
  induction mapM_ok_iff.mp found with
  | nil => rfl
  | @cons id pair ids pairs looked related ih =>
    obtain ⟨decl, known, built⟩ := bind_ok_iff.mp looked
    cases built
    have others := ih (mapM_ok_iff.mpr related)
    simp only [List.filterMap_cons, others, propertyOf?, known]

theorem parameterProperties_eq (closed : Closed program) (options : Options) {member : ListedMember}
    (inside : DeclHeld program member.decl) :
    program.parameterProperties options member = .ok (propertiesOf program options member) := by
  unfold Program.parameterProperties propertiesOf
  split
  · obtain ⟨decls, found, _⟩ :=
      Returns.mapM fun id held => identified_returns closed (inside.parameters id held)
    rw [found, ← filterMap_identified found]
    rfl
  · rfl

/-- In a sound program every choice of options gives a layout of the same members. -/
theorem layout_eq (closed : Closed program) (held : DeclsHeld program owners) :
    ∃ listed, program.listMembers owners = .ok listed ∧
      (∀ member ∈ listed, DeclHeld program member.decl) ∧
      ∀ options, program.layout options owners = .ok (laidOut program options listed) := by
  obtain ⟨listed, found, all⟩ := listMembers_returns closed held
  refine ⟨listed, found, fun member inside => (all member inside).2, fun options => ?_⟩
  have each : ∀ member ∈ shownMembers options listed,
      (do return (member, ← program.parameterProperties options member) : Except Fault _) =
        pure (member, propertiesOf program options member) := by
    intro member shown
    rw [parameterProperties_eq closed options (all member (mem_of_mem_shownMembers shown)).2]
    rfl
  rw [Program.layout, found]
  simp only [bind, Except.bind] at each ⊢
  rw [mapM_eq_map each]
  rfl

theorem mem_propertiesOf_iff {member : ListedMember} {property : ClassifiedMember} :
    property ∈ propertiesOf program options member ↔
      member.decl.kind = .constructor ∧ ∃ id ∈ member.decl.parameters, ∃ decl,
        program.declaration id = .ok decl ∧ parameterProperty? options id decl = some property := by
  unfold propertiesOf
  split
  next made =>
    simp only [made, true_and, List.mem_filterMap]
    refine exists_congr fun id => and_congr_right fun _ => ?_
    unfold propertyOf?
    cases program.declaration id <;> simp
  next other => simp [other]

theorem propertiesOf_source {member : ListedMember} {property : ClassifiedMember}
    (given : property ∈ propertiesOf program options member) : property.source = .parameter := by
  obtain ⟨_, id, _, decl, _, gave⟩ := mem_propertiesOf_iff.mp given
  obtain ⟨_, _, rfl⟩ := parameterProperty?_eq_some_iff.mp gave
  rfl

/-- The declared members in a layout are those that are shown, in their order. -/
theorem declared_laidOut (program : Program) (options : Options) (listed : List ListedMember) :
    (laidOut program options listed).ordered.filter (·.source = .declared) =
      (shownMembers options listed).filterMap (·.classified?) := by
  have fails : ∀ group ∈ groupsOf program options listed, ∀ property ∈ group.2,
      decide (property.source = .declared) = false := by
    intro group inside property given
    obtain ⟨member, _, rfl⟩ := List.mem_map.mp inside
    simp [propertiesOf_source given]
  have passes : ∀ entry ∈ (shownMembers options listed).filterMap (·.classified?),
      decide (entry.source = .declared) = true := by
    intro entry inside
    obtain ⟨member, _, classified⟩ := List.mem_filterMap.mp inside
    simp [source_of_classified? classified]
  rw [laidOut, filter_arrange options.sortMembers fails, groupsOf, List.filterMap_map]
  exact List.filter_eq_self.mpr passes

end Forms

section Leaders

theorem firstOfEachKey_append_singleton {α κ : Type} [DecidableEq κ] (key : α → κ) (seen : List κ)
    (values : List α) (value : α) :
    firstOfEachKey key seen (values ++ [value]) = firstOfEachKey key seen values ++
      if key value ∈ seen ∨ key value ∈ (firstOfEachKey key seen values).map key then [] else [value] := by
  induction values generalizing seen with
  | nil => simp [firstOfEachKey]
  | cons first rest ih =>
    rw [List.cons_append, firstOfEachKey, firstOfEachKey]
    split
    · exact ih seen
    · rw [ih, List.cons_append, List.map_cons]
      simp only [List.mem_cons, or_assoc, or_left_comm]

/-- The first member of each key, hidden or not. -/
def leaders (listed : List ListedMember) : List ListedMember :=
  firstOfEachKey ListedMember.key [] (listed.filter (·.kind?.isSome))

/-- The member stands in the list of members, and none of those before has its key. -/
def IsFresh (listed : List ListedMember) (member : ListedMember) : Prop :=
  member.kind?.isSome ∧ member.key ∉ (leaders listed).map (·.key)

instance (listed : List ListedMember) (member : ListedMember) : Decidable (IsFresh listed member) :=
  inferInstanceAs (Decidable (_ ∧ _))

theorem leaders_append (listed : List ListedMember) (member : ListedMember) :
    leaders (listed ++ [member]) = leaders listed ++ if IsFresh listed member then [member] else [] := by
  by_cases stands : member.kind?.isSome
  · rw [leaders, List.filter_append, List.filter_singleton, stands, cond_true,
      firstOfEachKey_append_singleton]
    by_cases fresh : IsFresh listed member
    · rw [if_pos fresh]
      exact congrArg _ (if_neg (not_or.mpr ⟨List.not_mem_nil, fresh.2⟩))
    · rw [if_neg fresh]
      exact congrArg _ (if_pos (.inr (not_not.mp fun unknown => fresh ⟨stands, unknown⟩)))
  · rw [if_neg fun fresh => stands fresh.1]
    simp [leaders, stands]

theorem shownMembers_append (options : Options) (listed : List ListedMember) (member : ListedMember) :
    shownMembers options (listed ++ [member]) = shownMembers options listed ++
      if IsFresh listed member ∧ member.isHidden options = false then [member] else [] := by
  have whole := congrArg (List.filter (!·.isHidden options)) (leaders_append listed member)
  rw [List.filter_append] at whole
  refine whole.trans (congrArg _ ?_)
  by_cases fresh : IsFresh listed member
  · cases hidden : member.isHidden options <;> simp [fresh, hidden]
  · simp [fresh]

end Leaders

section OnePass

/-- What a pass over the members has come to. -/
structure Pass where
  seen : List (String × Bool) := []
  ordered : List ClassifiedMember := []
  /-- Properties that come after all declared members. -/
  trailing : List ClassifiedMember := []
  callSignature : Option DeclId := none
  constructSignature : Option DeclId := none

namespace Pass

/-- Takes in one member. A hidden member leaves its key behind and nothing else. -/
def step (program : Program) (options : Options) (pass : Pass) (member : ListedMember) :
    Except Fault Pass :=
  if member.decl.kind = .callSignature then
    return { pass with callSignature := pass.callSignature.or (some member.id) }
  else if member.decl.kind = .constructSignature then
    return { pass with constructSignature := pass.constructSignature.or (some member.id) }
  else
    match member.classified? with
    | none => return pass
    | some entry =>
      if member.key ∈ pass.seen then return pass
      else if member.isHidden options then return { pass with seen := member.key :: pass.seen }
      else do
        let properties ← program.parameterProperties options member
        let pass := { pass with seen := member.key :: pass.seen, ordered := pass.ordered ++ [entry] }
        if options.sortMembers then return { pass with ordered := pass.ordered ++ properties }
        else return { pass with trailing := pass.trailing ++ properties }

def layout (pass : Pass) : MemberLayout where
  ordered := pass.ordered ++ pass.trailing
  callSignature := pass.callSignature
  constructSignature := pass.constructSignature

end Pass

/-- Takes in the members of all owners, each as soon as it is looked up. -/
def onePass (program : Program) (options : Options) (owners : List DeclId) : Except Fault MemberLayout := do
  let pass ← owners.foldlM (fun pass owner => do
    let ownerDecl ← program.declaration owner
    ownerDecl.members.foldlM (fun pass id => do
      pass.step program options ⟨ownerDecl.kind = .class_, id, ← program.declaration id⟩) pass)
    ({} : Pass)
  return pass.layout

/-- Where a pass stands after these members. -/
def passAfter (program : Program) (options : Options) (listed : List ListedMember) : Pass where
  seen := ((leaders listed).map (·.key)).reverse
  ordered :=
    if options.sortMembers then
      (groupsOf program options listed).flatMap fun (member, properties) =>
        member.classified?.toList ++ properties
    else (groupsOf program options listed).filterMap (·.1.classified?)
  trailing := if options.sortMembers then [] else (groupsOf program options listed).flatMap (·.2)
  callSignature := (listed.find? (·.decl.kind = .callSignature)).map (·.id)
  constructSignature := (listed.find? (·.decl.kind = .constructSignature)).map (·.id)

theorem layout_passAfter (program : Program) (options : Options) (listed : List ListedMember) :
    (passAfter program options listed).layout = laidOut program options listed := by
  unfold Pass.layout passAfter laidOut Program.arrange
  cases options.sortMembers <;> simp

theorem groupsOf_append (program : Program) (options : Options) (listed : List ListedMember)
    (member : ListedMember) :
    groupsOf program options (listed ++ [member]) = groupsOf program options listed ++
      if IsFresh listed member ∧ member.isHidden options = false then
        [(member, propertiesOf program options member)]
      else [] := by
  rw [groupsOf, shownMembers_append, List.map_append, apply_ite (List.map _)]
  rfl

theorem not_fresh_of_kind? {member : ListedMember} (kindless : member.kind? = none) :
    ¬ IsFresh listed member := by
  simp [IsFresh, kindless]

/-- A member that is neither fresh nor a signature changes nothing. -/
theorem passAfter_of_stale {member : ListedMember} (stale : ¬ IsFresh listed member)
    (notCall : member.decl.kind ≠ .callSignature) (notConstruct : member.decl.kind ≠ .constructSignature) :
    passAfter program options (listed ++ [member]) = passAfter program options listed := by
  simp [passAfter, leaders_append, groupsOf_append, stale, notCall, notConstruct]

/-- Taking in a member leads from the members so far to one more. -/
theorem step_passAfter (listed : List ListedMember) {member : ListedMember}
    (given : program.parameterProperties options member = .ok (propertiesOf program options member)) :
    (passAfter program options listed).step program options member =
      .ok (passAfter program options (listed ++ [member])) := by
  unfold Pass.step
  -- Only a member that is fresh adds to the keys, and only one that is shown as well adds to the lists.
  split
  next call =>
    have stale : ¬ IsFresh listed member :=
      not_fresh_of_kind? (by simp [ListedMember.kind?, MemberKind.ofDecl?, call])
    simp [passAfter, leaders_append, groupsOf_append, stale, call, pure, Except.pure]
  split
  next _ construct =>
    have stale : ¬ IsFresh listed member :=
      not_fresh_of_kind? (by simp [ListedMember.kind?, MemberKind.ofDecl?, construct])
    simp [passAfter, leaders_append, groupsOf_append, stale, construct, pure, Except.pure]
  next notCall notConstruct =>
    split
    next unclassified =>
      have stale : ¬ IsFresh listed member := not_fresh_of_kind? (Option.map_eq_none_iff.mp unclassified)
      rw [passAfter_of_stale stale notCall notConstruct]
      rfl
    next entry classified =>
      split
      next seen =>
        have stale : ¬ IsFresh listed member := fun fresh => fresh.2 (List.mem_reverse.mp seen)
        rw [passAfter_of_stale stale notCall notConstruct]
        rfl
      next unseen =>
        have fresh : IsFresh listed member := by
          obtain ⟨kind, known, _⟩ := Option.map_eq_some_iff.mp classified
          exact ⟨by simp [known], fun seen => unseen (List.mem_reverse.mpr seen)⟩
        split
        next hidden =>
          simp [passAfter, leaders_append, groupsOf_append, fresh, hidden, notCall, notConstruct, pure,
            Except.pure]
        next shown =>
          rw [given]
          cases sorted : options.sortMembers <;>
            simp [passAfter, leaders_append, groupsOf_append, fresh, shown, classified, notCall,
              notConstruct, sorted, bind, Except.bind, pure, Except.pure]

/-- Taking in all members leads to where the pass stands after them. -/
theorem foldlM_step {rest : List ListedMember} (done : List ListedMember)
    (given : ∀ member ∈ rest,
      program.parameterProperties options member = .ok (propertiesOf program options member)) :
    rest.foldlM (Pass.step program options) (passAfter program options done) =
      .ok (passAfter program options (done ++ rest)) := by
  induction rest generalizing done with
  | nil => simp [pure, Except.pure]
  | cons member rest ih =>
    have onward := ih (done ++ [member]) fun other inside => given other (List.mem_cons_of_mem _ inside)
    rw [List.append_assoc] at onward
    rw [List.foldlM_cons, step_passAfter done (given member List.mem_cons_self)]
    exact onward

/-- Looking up the members on the way is as good as looking them all up first. -/
theorem foldlM_listMembers {σ : Type} (step : σ → ListedMember → Except Fault σ)
    (found : program.listMembers owners = .ok listed) (start : σ) :
    owners.foldlM (fun state owner => do
      let ownerDecl ← program.declaration owner
      ownerDecl.members.foldlM (fun state id => do
        step state ⟨ownerDecl.kind = .class_, id, ← program.declaration id⟩) state) start =
      listed.foldlM step start := by
  obtain ⟨groups, grouped, built⟩ := bind_ok_iff.mp found
  cases built
  clear found
  induction mapM_ok_iff.mp grouped generalizing start with
  | nil => rfl
  | @cons owner group owners groups given related ih =>
    obtain ⟨decl, declared, members⟩ := bind_ok_iff.mp given
    have here := foldlM_related (mapM_ok_iff.mp members) step start
    simp only [bind_assoc, pure_bind] at here
    rw [List.foldlM_cons, List.flatten_cons, List.foldlM_append, declared, ← here]
    exact congrArg _ (funext fun state => ih state (mapM_ok_iff.mpr related))

theorem onePass_eq (closed : Closed program) (options : Options)
    (found : program.listMembers owners = .ok listed)
    (inside : ∀ member ∈ listed, DeclHeld program member.decl) :
    onePass program options owners = .ok (laidOut program options listed) := by
  have whole := foldlM_step [] fun member listed =>
    parameterProperties_eq closed options (inside member listed)
  have start : passAfter program options [] = {} := by
    simp [passAfter, leaders, groupsOf, shownMembers, firstOfEachKey]
  rw [List.nil_append, start] at whole
  rw [onePass, foldlM_listMembers _ found, whole, ← layout_passAfter]
  rfl

end OnePass

end ApiDocs.Proofs.Layouts
