import ApiDocs.Proofs.DeclaredTypes
import ApiDocs.Proofs.Numbering
import Mathlib.Logic.Equiv.Basic

/-! Documents of programs inside other programs. Descriptions hold no ids, so a program gives the same
documents under every numbering of its symbols and declarations, and in every larger program. -/

namespace ApiDocs.Proofs

open Trails References

namespace Numbering

variable (numbering : Numbering)

def classified (member : ClassifiedMember) : ClassifiedMember :=
  { member with decl := numbering.declId member.decl }

def listed (member : ListedMember) : ListedMember :=
  { member with id := numbering.declId member.id, decl := numbering.declaration member.decl }

def layout (layout : MemberLayout) : MemberLayout where
  ordered := layout.ordered.map numbering.classified
  callSignature := layout.callSignature.map numbering.declId
  constructSignature := layout.constructSignature.map numbering.declId

theorem accessorParameter?_declaration (decl : Declaration) :
    (numbering.declaration decl).accessorParameter? = decl.accessorParameter?.map numbering.declId := by
  unfold Declaration.accessorParameter? Numbering.declaration
  split
  · exact List.head?_map
  · rfl

theorem classified?_listed (member : ListedMember) :
    (numbering.listed member).classified? = member.classified?.map numbering.classified := by
  unfold ListedMember.classified?
  rw [Option.map_map]
  rfl

theorem parameterProperty?_declaration (options : Options) (id : DeclId) (decl : Declaration) :
    parameterProperty? options (numbering.declId id) (numbering.declaration decl) =
      (parameterProperty? options id decl).map numbering.classified := by
  simp only [parameterProperty?]
  rw [apply_ite (Option.map numbering.classified)]
  rfl

end Numbering

/-- Keys decide which values are taken, so values can be changed if their keys stay. -/
theorem firstOfEachKey_map {α β κ : Type} [DecidableEq κ] {key : α → κ} {otherKey : β → κ}
    {change : α → β} (same : ∀ value, otherKey (change value) = key value) (seen : List κ) (values : List α) :
    firstOfEachKey otherKey seen (values.map change) = (firstOfEachKey key seen values).map change := by
  induction values generalizing seen with
  | nil => rfl
  | cons value values ih =>
    simp only [List.map_cons, firstOfEachKey, same]
    split
    · exact ih seen
    · rw [ih, List.map_cons]

theorem shownMembers_listed (numbering : Numbering) (options : Options) (listed : List ListedMember) :
    shownMembers options (listed.map numbering.listed) =
      (shownMembers options listed).map numbering.listed := by
  unfold shownMembers
  have keys : ∀ member, (numbering.listed member).key = member.key := fun _ => rfl
  rw [List.filter_map, firstOfEachKey_map keys, List.filter_map]
  rfl

theorem arrange_listed (numbering : Numbering) (sorted : Bool)
    (members : List (ListedMember × List ClassifiedMember)) :
    Program.arrange sorted (members.map (Prod.map numbering.listed (List.map numbering.classified))) =
      (Program.arrange sorted members).map numbering.classified := by
  unfold Program.arrange
  split
  · rw [List.flatMap_map, List.map_flatMap]
    apply List.flatMap_congr
    intro pair _
    simp [numbering.classified?_listed, Option.toList_map]
  · rw [List.map_append, List.filterMap_map, List.map_filterMap, List.flatMap_map, List.map_flatMap]
    congr 1
    apply List.filterMap_congr
    intro pair _
    exact numbering.classified?_listed pair.1

namespace Embeds

variable {numbering : Numbering} {program other : Program}
  (embeds : Embeds numbering program other) (closed : Closed program)

include embeds closed

theorem typeGiver_carries {decl : DeclId} (held : program.holds (.decl decl)) :
    Carries numbering.fault numbering.declaration (program.typeGiver decl)
      (other.typeGiver (numbering.declId decl)) := by
  have chain : Carries numbering.fault (List.map (Prod.map numbering.declId numbering.declaration))
      (Trail.follow program.declSource (fun decl => .ok decl.accessorParameter?) [] decl)
      (Trail.follow other.declSource (fun decl => .ok decl.accessorParameter?) []
        (numbering.declId decl)) := by
    apply follow_carries embeds.declIds (fun id => program.holds (.decl id)) _ _ [] decl held
    · intro id held
      exact embeds.declaration_carries closed held
    · intro id held
      apply (declaration_returns closed held).weaken
      intro entry _ inside
      refine ⟨.ok (numbering.accessorParameter?_declaration entry), ?_⟩
      intro parameter named
      exact DeclaredTypes.accessorParameter?_held inside (Except.ok.inj named)
  apply chain.bind
  intro passed _
  rw [List.getLast?_map]
  cases passed.getLast? with
  | none => rfl
  | some last =>
    simp only [Option.map_some, Prod.map, numbering.accessorParameter?_declaration, Option.isSome_map]
    split <;> rfl

theorem declaredType_carries (keep : String → Bool) {decl : DeclId} (held : program.holds (.decl decl)) :
    Carries numbering.fault id (program.declaredType keep decl)
      (other.declaredType keep (numbering.declId decl)) := by
  apply (embeds.typeGiver_carries closed held).bind
  intro giver _
  rfl

theorem parameterDoc_carries (keep : String → Bool) {parameter : DeclId}
    (held : program.holds (.decl parameter)) :
    Carries numbering.fault id (program.parameterDoc keep parameter)
      (other.parameterDoc keep (numbering.declId parameter)) := by
  apply (embeds.declaration_carries closed held).bind
  intro decl _
  apply (embeds.declaredType_carries closed keep held).bind
  intro type _
  rfl

theorem signature_carries (keep : String → Bool) {decl : Declaration} (inside : DeclHeld program decl) :
    Carries numbering.fault id (program.signature keep decl)
      (other.signature keep (numbering.declaration decl)) := by
  have parameters : Carries numbering.fault (List.map id) (decl.parameters.mapM (program.parameterDoc keep))
      ((decl.parameters.map numbering.declId).mapM (other.parameterDoc keep)) := by
    apply Carries.mapM
    intro parameter member
    exact embeds.parameterDoc_carries closed keep (inside.parameters parameter member)
  apply parameters.bind
  intro docs _
  rw [List.map_id]
  rfl

theorem memberSignature_carries (keep : String → Bool) (ownerName : String) {member : ClassifiedMember}
    {decl : Declaration} (held : program.holds (.decl member.decl)) (inside : DeclHeld program decl) :
    Carries numbering.fault id (program.memberSignature keep member decl ownerName)
      (other.memberSignature keep (numbering.classified member) (numbering.declaration decl) ownerName) := by
  have signature := embeds.signature_carries closed keep inside
  have type := embeds.declaredType_carries closed keep held
  unfold Program.memberSignature Numbering.classified
  cases member.kind with
  | method | callSignature | constructSignature | constructor => exact signature.bind fun _ _ => rfl
  | enumMember => rfl
  | property | getAccessor | setAccessor => exact type.bind fun _ _ => rfl

theorem locationOf_carries {decl : Declaration} (inside : DeclHeld program decl) :
    Carries numbering.fault id (program.locationOf decl) (other.locationOf (numbering.declaration decl)) := by
  unfold Program.locationOf Numbering.declaration
  cases decl.lines with
  | none => rfl
  | some lines => exact (embeds.file_carries closed inside.file).bind fun _ _ => rfl

theorem describeMember_carries (keep : String → Bool) (ownerName : String) {member : ClassifiedMember}
    (held : program.holds (.decl member.decl)) :
    Carries numbering.fault id (program.describeMember keep ownerName member)
      (other.describeMember keep ownerName (numbering.classified member)) := by
  apply (embeds.declaration_carries closed held).after (declaration_returns closed held)
  intro decl inside
  apply (embeds.memberSignature_carries closed keep ownerName held inside).bind
  intro signature _
  apply (embeds.locationOf_carries closed inside).bind
  intro location _
  rfl

theorem identified_carries {decl : DeclId} (held : program.holds (.decl decl)) :
    Carries numbering.fault (Prod.map numbering.declId numbering.declaration) (program.identified decl)
      (other.identified (numbering.declId decl)) := by
  apply (embeds.declaration_carries closed held).bind
  intro entry _
  rfl

theorem membersOf_carries {owner : DeclId} (held : program.holds (.decl owner)) :
    Carries numbering.fault (List.map numbering.listed) (program.membersOf owner)
      (other.membersOf (numbering.declId owner)) := by
  apply (embeds.declaration_carries closed held).after (declaration_returns closed held)
  intro decl inside
  apply Carries.mapM
  intro member listed
  exact (embeds.declaration_carries closed (inside.members member listed)).bind fun _ _ => rfl

theorem listMembers_carries {owners : List DeclId} (held : DeclsHeld program owners) :
    Carries numbering.fault (List.map numbering.listed) (program.listMembers owners)
      (other.listMembers (owners.map numbering.declId)) := by
  have each : Carries numbering.fault (List.map (List.map numbering.listed))
      (owners.mapM program.membersOf) ((owners.map numbering.declId).mapM other.membersOf) := by
    apply Carries.mapM
    intro owner member
    exact embeds.membersOf_carries closed (held owner member)
  apply each.bind
  intro listed _
  apply Carries.ok
  exact List.map_flatten.symm

theorem parameterProperties_carries (options : Options) {member : ListedMember}
    (inside : DeclHeld program member.decl) :
    Carries numbering.fault (List.map numbering.classified) (program.parameterProperties options member)
      (other.parameterProperties options (numbering.listed member)) := by
  unfold Program.parameterProperties Numbering.listed
  change Carries _ _ (if member.decl.kind = .constructor then _ else _)
    (if member.decl.kind = .constructor then _ else _)
  split
  · have parameters : Carries numbering.fault (List.map (Prod.map numbering.declId numbering.declaration))
        (member.decl.parameters.mapM program.identified)
        ((member.decl.parameters.map numbering.declId).mapM other.identified) := by
      apply Carries.mapM
      intro parameter listed
      exact embeds.identified_carries closed (inside.parameters parameter listed)
    apply parameters.bind
    intro pairs _
    apply Carries.ok
    rw [List.filterMap_map, List.map_filterMap]
    apply List.filterMap_congr
    intro pair _
    exact numbering.parameterProperty?_declaration options pair.1 pair.2
  · rfl

theorem layout_carries (options : Options) {owners : List DeclId} (held : DeclsHeld program owners) :
    Carries numbering.fault numbering.layout (program.layout options owners)
      (other.layout options (owners.map numbering.declId)) := by
  apply (embeds.listMembers_carries closed held).after (listMembers_returns closed held)
  intro listed all
  have shown : Carries numbering.fault
      (List.map (Prod.map numbering.listed (List.map numbering.classified)))
      ((shownMembers options listed).mapM fun member =>
        program.parameterProperties options member >>= fun properties => pure (member, properties))
      (((shownMembers options listed).map numbering.listed).mapM fun member =>
        other.parameterProperties options member >>= fun properties => pure (member, properties)) := by
    apply Carries.mapM
    intro member chosen
    have inside := (all member (mem_of_mem_shownMembers chosen)).2
    exact (embeds.parameterProperties_carries closed options inside).bind fun _ _ => rfl
  rw [shownMembers_listed]
  apply shown.bind
  intro members _
  apply Carries.ok
  rw [arrange_listed, List.find?_map, List.find?_map]
  simp only [Numbering.layout, Option.map_map]
  rfl

theorem signatureMember_carries (keep : String → Bool) (ownerName name : String) (kind : MemberKind)
    {signature : Option DeclId} (held : DeclsHeld program signature.toList) :
    Carries numbering.fault id (program.signatureMember keep ownerName name kind signature)
      (other.signatureMember keep ownerName name kind (signature.map numbering.declId)) := by
  cases signature with
  | none => rfl
  | some decl =>
    have declHeld := held decl (by simp)
    exact (embeds.describeMember_carries closed keep ownerName declHeld).bind fun _ _ => rfl

theorem members_carry (keep : String → Bool) (ownerName : String) {layout : MemberLayout}
    (inside : LayoutHeld program layout) :
    Carries numbering.fault (List.map id) (layout.ordered.mapM (program.describeMember keep ownerName))
      ((numbering.layout layout).ordered.mapM (other.describeMember keep ownerName)) := by
  apply Carries.mapM
  intro member listed
  exact embeds.describeMember_carries closed keep ownerName (inside.ordered member listed)

theorem listing_carries {α : Type} (options : Options) (name : String) {decls : List DeclId}
    (held : DeclsHeld program decls) (build : List Member → α) :
    Carries numbering.fault id
      (program.layout options decls >>= fun layout =>
        layout.ordered.mapM (program.describeMember options.keeps name) >>= fun members =>
          pure (build members))
      (other.layout options (decls.map numbering.declId) >>= fun layout =>
        layout.ordered.mapM (other.describeMember options.keeps name) >>= fun members =>
          pure (build members)) := by
  apply (embeds.layout_carries closed options held).after (layout_returns closed options held)
  intro layout inside
  apply (embeds.members_carry closed options.keeps name inside).bind
  intro members _
  rw [List.map_id]
  rfl

theorem describeForm_carries (options : Options) (name : String) (kind : DeclKind) {primary : Declaration}
    {primaryId : DeclId} {decls : List DeclId} (primaryHeld : EntryHeld program primaryId primary)
    (held : DeclsHeld program decls) :
    Carries numbering.fault id (program.describeForm options name kind primary primaryId decls)
      (other.describeForm options name kind (numbering.declaration primary) (numbering.declId primaryId)
        (decls.map numbering.declId)) := by
  unfold Program.describeForm
  -- The cases are those of the definition: class, interface, enum, function, type alias, all others.
  split
  · exact embeds.listing_carries closed options name held _
  · apply (embeds.layout_carries closed options held).after (layout_returns closed options held)
    intro layout inside
    apply (embeds.members_carry closed options.keeps name inside).bind
    intro members _
    rw [List.map_id]
    apply (embeds.signatureMember_carries closed options.keeps name "call" .callSignature
      inside.callSignature).bind
    intro call _
    apply (embeds.signatureMember_carries closed options.keeps name "new" .constructSignature
      inside.constructSignature).bind
    intro new _
    rfl
  · exact embeds.listing_carries closed options name held _
  · exact (embeds.signature_carries closed options.keeps primaryHeld.2).bind fun _ _ => rfl
  · rfl
  · exact (embeds.declaredType_carries closed options.keeps primaryHeld.1).bind fun _ _ => rfl

theorem describe_carries (options : Options) {target : Option SymbolId} (held : TargetHeld program target) :
    Carries numbering.fault id (program.describe options target)
      (other.describe options (target.map numbering.symbolId)) := by
  cases target with
  | none => rfl
  | some symbolId =>
    have known := targetHeld_some.mp held
    apply (embeds.symbol_carries closed known).after (symbol_returns closed known)
    intro symbol inside
    have decls : Carries numbering.fault (List.map (Prod.map numbering.declId numbering.declaration))
        (symbol.declarations.mapM program.identified)
        ((symbol.declarations.map numbering.declId).mapM other.identified) := by
      apply Carries.mapM
      intro decl member
      exact embeds.identified_carries closed (inside.declarations decl member)
    have declsReturn := Returns.mapM fun decl member =>
      identified_returns closed (inside.declarations decl member)
    unfold Numbering.symbol
    dsimp only
    cases exportKind? symbol.flags with
    | none => rfl
    | some kind =>
      apply decls.after declsReturn
      intro pairs all
      have fitting : (pairs.map (Prod.map numbering.declId numbering.declaration)).filter (·.2.kind = kind) =
          (pairs.filter (·.2.kind = kind)).map (Prod.map numbering.declId numbering.declaration) := by
        rw [List.filter_map]
        rfl
      rw [fitting]
      cases chosen : pairs.filter (·.2.kind = kind) with
      | nil => rfl
      | cons primary rest =>
        have entries : ∀ pair ∈ primary :: rest, EntryHeld program pair.1 pair.2 := by
          intro pair member
          rw [← chosen] at member
          exact all pair (List.mem_of_mem_filter member)
        have declsHeld : DeclsHeld program (primary.1 :: rest.map (·.1)) := by
          intro id member
          rw [← List.map_cons] at member
          obtain ⟨pair, listed, rfl⟩ := List.mem_map.mp member
          exact (entries pair listed).1
        have primaryHeld := entries primary List.mem_cons_self
        have form := embeds.describeForm_carries closed options symbol.name kind primaryHeld declsHeld
        simp only [List.map_cons, List.map_map] at form ⊢
        apply form.bind
        intro described _
        apply (embeds.locationOf_carries closed primaryHeld.2).bind
        intro location _
        exact (embeds.owningModuleId_carries closed options.baseDir known).bind fun _ _ => rfl

theorem step_carries (options : Options) (emission : Emission) {visit : Visit}
    (held : VisitHeld program visit) :
    Carries numbering.fault id (Emission.step program options emission visit)
      (Emission.step other options emission (numbering.visit visit)) := by
  cases visit with
  | enter head | leave head => rfl
  | meet head export_ => exact (embeds.describe_carries closed options held).bind fun _ _ => rfl

theorem emit_carries (options : Options) {modules : List SymbolId} (held : SymbolsHeld program modules) :
    Carries numbering.fault id (program.emit options modules)
      (other.emit options (modules.map numbering.symbolId)) := by
  have tasks : ∀ task ∈ modules.map Task.walk, TaskHeld program task := by
    simpa [TaskHeld, SymbolsHeld] using held
  have walked : Carries numbering.fault numbering.walked (program.walk options [] (modules.map .walk))
      (other.walk options [] ((modules.map .walk).map numbering.task)) :=
    embeds.walk_carries closed (modules.map .walk) tasks
  have same : (modules.map numbering.symbolId).map Task.walk = (modules.map .walk).map numbering.task := by
    rw [List.map_map, List.map_map]
    rfl
  unfold Program.emit
  rw [same]
  apply walked.after (walk_returns closed options [] _ tasks)
  intro result visitsHeld
  apply Carries.foldlM
  intro emission visit member
  exact embeds.step_carries closed options emission (visitsHeld visit member)

theorem run_carries (options : Options) {names : List String}
    (found : ∀ name ∈ names, other.findFile? name = program.findFile? name) :
    Carries numbering.error id (program.run options names) (other.run options names) := by
  apply (embeds.collectModules_carries closed found).bind
  intro collected returned
  have held := collectModules_held closed returned
  have same : (collected.map numbering.collected).map (·.symbol) =
      (collected.map (·.symbol)).map numbering.symbolId := by
    rw [List.map_map, List.map_map]
    rfl
  rw [same]
  exact (embeds.emit_carries closed options held).mapError fun _ => rfl

/-- If the same files are found, the other program gives the same documents for them. -/
theorem extract_carries (options : Options) {names : List String}
    (found : ∀ name ∈ names, other.findFile? name = program.findFile? name) :
    other.extract options names = (program.extract options names).mapError numbering.error := by
  have docs : Carries numbering.error id (program.extract options names) (other.extract options names) :=
    (embeds.run_carries closed options found).map fun _ => rfl
  unfold Carries at docs
  rw [docs]
  cases program.extract options names <;> rfl

end Embeds

namespace Renumbering

section Extensions

variable {program further : Program}

/-- The program with further entries at the end of each table. -/
def extendedBy (program further : Program) : Program where
  files := program.files ++ further.files
  symbols := program.symbols ++ further.symbols
  declarations := program.declarations ++ further.declarations

/-- All ids stay as they are. -/
def unchanged : Numbering := ⟨id, id⟩

theorem unchanged_error (error : ExtractError) : unchanged.error error = error := by
  cases error with
  | missingSourceFile name => rfl
  | fault cause => cases cause <;> rfl

theorem getElem?_append_of_some {α : Type} {entries others : Array α} {place : Nat} {entry : α}
    (found : entries[place]? = some entry) : (entries ++ others)[place]? = some entry := by
  have inside := (Array.getElem?_eq_some_iff.mp found).1
  rw [Array.getElem?_append_left inside, found]

theorem embeds_extendedBy : Embeds unchanged program (extendedBy program further) where
  symbolIds := Function.injective_id
  declIds := Function.injective_id
  file := by
    intro id file found
    have same : unchanged.file file = file := by simp [Numbering.file, unchanged]
    rw [file_ok_iff] at found ⊢
    rw [same]
    exact getElem?_append_of_some found
  symbol := by
    intro id symbol found
    have same : unchanged.symbol symbol = symbol := by simp [Numbering.symbol, unchanged]
    rw [symbol_ok_iff] at found ⊢
    rw [same]
    exact getElem?_append_of_some found
  declaration := by
    intro id decl found
    have same : unchanged.declaration decl = decl := by simp [Numbering.declaration, unchanged]
    rw [declaration_ok_iff] at found ⊢
    rw [same]
    exact getElem?_append_of_some found

/-- Further files do not hide those that were there. -/
theorem findFile?_extendedBy {name : String} (found : (program.findFile? name).isSome) :
    (extendedBy program further).findFile? name = program.findFile? name := by
  unfold Program.findFile? at found ⊢
  rw [Option.isSome_map] at found
  rw [extendedBy, Array.findIdx?_append, Option.or_of_isSome found]

/-- Entries that a program does not refer to make no difference: a request whose files are all found
comes out the same in every program with further entries. -/
theorem extract_extendedBy (accepted : program.check = .ok ()) (further : Program) (options : Options)
    {names : List String} (found : ∀ name ∈ names, (program.findFile? name).isSome) :
    (extendedBy program further).extract options names = program.extract options names := by
  have closed := closed_of_check accepted
  have files : ∀ name ∈ names, (extendedBy program further).findFile? name = program.findFile? name := by
    intro name member
    exact findFile?_extendedBy (found name member)
  rw [embeds_extendedBy.extract_carries closed options files]
  cases program.extract options names with
  | ok docs => rfl
  | error error => exact congrArg Except.error (unchanged_error error)

end Extensions

/-- A module with a class and with an alias that stands for itself. -/
def looping : Program where
  files := #[{ name := "a.ts", moduleSymbol := some ⟨0⟩ }]
  symbols := #[
    { name := "a", flags := SymbolFlags.valueModule, exports := [⟨1⟩, ⟨2⟩] },
    { name := "C", flags := SymbolFlags.class_, declarations := [⟨0⟩], parent := some ⟨0⟩ },
    { name := "loop", flags := SymbolFlags.alias_, parent := some ⟨0⟩, aliasOf := some ⟨2⟩ }]
  declarations := #[
    { kind := .class_, file := ⟨0⟩, name := "C", members := [⟨1⟩] },
    { kind := .setAccessor, file := ⟨0⟩, name := "x", parameters := [⟨2⟩] },
    { kind := .parameter, file := ⟨0⟩, name := "value", typeAnnotation := some "number" }]

/-- Another file of the same name, and a second alias in front of the loop. -/
def bystanders : Program where
  files := #[{ name := "./a.ts", moduleSymbol := some ⟨3⟩ }]
  symbols := #[
    { name := "b", flags := SymbolFlags.valueModule, exports := [⟨4⟩, ⟨1⟩] },
    { name := "again", flags := SymbolFlags.alias_, parent := some ⟨3⟩, aliasOf := some ⟨2⟩ }]
  declarations := #[{ kind := .class_, file := ⟨1⟩, name := "C", members := [⟨1⟩, ⟨1⟩] }]

theorem extract_extendedBy_bystanders :
    looping.check = .ok () ∧ (extendedBy looping bystanders).check = .ok () ∧
      (∀ name ∈ ["a.ts"], (looping.findFile? name).isSome) ∧
      ∃ docs, looping.extract {} ["a.ts"] = .ok docs ∧
        (extendedBy looping bystanders).extract {} ["a.ts"] = .ok docs := by
  have accepted : looping.check = .ok () := by decide +kernel
  have found : ∀ name ∈ ["a.ts"], (looping.findFile? name).isSome := by decide +kernel
  have returned : looping.extract {} ["a.ts"] = .ok ((looping.extract {} ["a.ts"]).toOption.getD {}) := by
    decide +kernel
  refine ⟨accepted, by decide +kernel, found, _, returned, ?_⟩
  rw [extract_extendedBy accepted bystanders {} found]
  exact returned

section Permutations

variable {symbolIds : Equiv.Perm SymbolId} {declIds : Equiv.Perm DeclId} {program other : Program}

def permuting (symbolIds : Equiv.Perm SymbolId) (declIds : Equiv.Perm DeclId) : Numbering :=
  ⟨symbolIds, declIds⟩

/-- The other program is the program with its ids permuted, in the tables and in every reference. -/
structure Renumbered (symbolIds : Equiv.Perm SymbolId) (declIds : Equiv.Perm DeclId)
    (program other : Program) : Prop where
  files : other.files = program.files.map (permuting symbolIds declIds).file
  symbols : ∀ id, other.symbols[(symbolIds id).index.toNat]? =
    program.symbols[id.index.toNat]?.map (permuting symbolIds declIds).symbol
  declarations : ∀ id, other.declarations[(declIds id).index.toNat]? =
    program.declarations[id.index.toNat]?.map (permuting symbolIds declIds).declaration

theorem Renumbered.embeds (renumbered : Renumbered symbolIds declIds program other) :
    Embeds (permuting symbolIds declIds) program other where
  symbolIds := symbolIds.injective
  declIds := declIds.injective
  file := by
    intro id file found
    rw [file_ok_iff] at found ⊢
    rw [renumbered.files, Array.getElem?_map, found]
    rfl
  symbol := by
    intro id symbol found
    rw [symbol_ok_iff] at found ⊢
    exact (renumbered.symbols id).trans (congrArg _ found)
  declaration := by
    intro id decl found
    rw [declaration_ok_iff] at found ⊢
    exact (renumbered.declarations id).trans (congrArg _ found)

theorem Renumbered.findFile? (renumbered : Renumbered symbolIds declIds program other) (name : String) :
    other.findFile? name = program.findFile? name := by
  unfold Program.findFile?
  rw [renumbered.files, Array.findIdx?_map]
  rfl

/-- The numbering of symbols and declarations makes no difference: a request gives the same documents,
each at the same place, or fails for the same reason. -/
theorem extract_renumbered (accepted : program.check = .ok ())
    (renumbered : Renumbered symbolIds declIds program other) (options : Options) (names : List String) :
    other.extract options names =
      (program.extract options names).mapError (permuting symbolIds declIds).error := by
  have closed := closed_of_check accepted
  apply renumbered.embeds.extract_carries closed options
  intro name _
  exact renumbered.findFile? name

/-- The looping program with the module after its exports, and the class after its member. -/
def swapped : Program where
  files := #[{ name := "a.ts", moduleSymbol := some ⟨2⟩ }]
  symbols := #[
    { name := "loop", flags := SymbolFlags.alias_, parent := some ⟨2⟩, aliasOf := some ⟨0⟩ },
    { name := "C", flags := SymbolFlags.class_, declarations := [⟨1⟩], parent := some ⟨2⟩ },
    { name := "a", flags := SymbolFlags.valueModule, exports := [⟨1⟩, ⟨0⟩] }]
  declarations := #[
    { kind := .setAccessor, file := ⟨0⟩, name := "x", parameters := [⟨2⟩] },
    { kind := .class_, file := ⟨0⟩, name := "C", members := [⟨0⟩] },
    { kind := .parameter, file := ⟨0⟩, name := "value", typeAnnotation := some "number" }]

/-- Two tables of three entries have nothing at any other index. -/
theorem getElem?_past_three {α : Type} {entries others : Array α} (change : α → α) {index : UInt32}
    (size : entries.size = 3) (otherSize : others.size = 3) (zero : index ≠ 0) (one : index ≠ 1)
    (two : index ≠ 2) : others[index.toNat]? = entries[index.toNat]?.map change := by
  have past : 3 ≤ index.toNat := by
    simp only [ne_eq, ← UInt32.toNat_inj, UInt32.reduceToNat] at zero one two
    omega
  have none : entries[index.toNat]? = none := Array.getElem?_eq_none (size ▸ past)
  have noneToo : others[index.toNat]? = Option.none := Array.getElem?_eq_none (otherSize ▸ past)
  rw [none, noneToo]
  rfl

theorem renumbered_swapped :
    Renumbered (Equiv.swap ⟨0⟩ ⟨2⟩) (Equiv.swap ⟨0⟩ ⟨1⟩) looping swapped where
  files := by decide +kernel
  symbols := by
    intro id
    by_cases zero : id = ⟨0⟩
    · subst zero
      decide +kernel
    by_cases two : id = ⟨2⟩
    · subst two
      decide +kernel
    rw [Equiv.swap_apply_of_ne_of_ne zero two]
    by_cases one : id = ⟨1⟩
    · subst one
      decide +kernel
    obtain ⟨index⟩ := id
    apply getElem?_past_three <;> simp_all [looping, swapped]
  declarations := by
    intro id
    by_cases zero : id = ⟨0⟩
    · subst zero
      decide +kernel
    by_cases one : id = ⟨1⟩
    · subst one
      decide +kernel
    rw [Equiv.swap_apply_of_ne_of_ne zero one]
    by_cases two : id = ⟨2⟩
    · subst two
      decide +kernel
    obtain ⟨index⟩ := id
    apply getElem?_past_three <;> simp_all [looping, swapped]

theorem extract_renumbered_swapped :
    looping.check = .ok () ∧ Renumbered (Equiv.swap ⟨0⟩ ⟨2⟩) (Equiv.swap ⟨0⟩ ⟨1⟩) looping swapped ∧
      ∃ docs, looping.extract {} ["a.ts"] = .ok docs ∧ swapped.extract {} ["a.ts"] = .ok docs := by
  have accepted : looping.check = .ok () := by decide +kernel
  have returned : looping.extract {} ["a.ts"] = .ok ((looping.extract {} ["a.ts"]).toOption.getD {}) := by
    decide +kernel
  refine ⟨accepted, renumbered_swapped, _, returned, ?_⟩
  rw [extract_renumbered accepted renumbered_swapped {} ["a.ts"], returned]
  rfl

end Permutations

end Renumbering

end ApiDocs.Proofs
