import ApiDocs.Proofs.References

/-! The types of declarations. A declaration has a type if the chain of set accessors and their
parameters from it ends; a description can be given exactly if all types that it shows exist. -/

namespace ApiDocs.Proofs.DeclaredTypes

open Trails References

/-- The chain of set accessors from a declaration ends at the given one after some steps. -/
def TypedBy (program : Program) (id : DeclId) (last : DeclId × Declaration) : Prop :=
  ∃ steps, Ends program.declSource (fun decl => .ok decl.accessorParameter?) steps id last

def HasType (program : Program) (id : DeclId) : Prop := ∃ last, TypedBy program id last

/-- The declaration that gives the type is the end of the chain. -/
theorem typeGiver_ok_iff {program : Program} {id : DeclId} {decl : Declaration} :
    program.typeGiver id = .ok decl ↔ ∃ last, TypedBy program id (last, decl) := by
  unfold Program.typeGiver
  constructor
  · intro returned
    obtain ⟨chain, followed, chosen⟩ := bind_ok_iff.mp returned
    split at chosen
    next last found ended =>
      split at chosen
      · cases chosen
      next own =>
        have stops : found.accessorParameter? = none := by simpa using own
        cases chosen
        exact ⟨last, ends_of_follow followed ended (by rw [stops])⟩
    · cases chosen
  · intro typed
    obtain ⟨last, steps, ends⟩ := typed
    obtain ⟨chain, followed, ended⟩ := follow_of_ends ends [] (by simp)
    have stops : decl.accessorParameter? = none := Except.ok.inj ends.stops
    simp [followed, ended, stops, bind, Except.bind, pure, Except.pure]

theorem declaredType_ok_iff {program : Program} {keep : String → Bool} {id : DeclId} {type : String} :
    program.declaredType keep id = .ok type ↔
      ∃ last, TypedBy program id last ∧ last.2.ownType keep = type := by
  unfold Program.declaredType
  rw [bind_ok_iff]
  constructor
  · intro given
    obtain ⟨decl, returned, shown⟩ := given
    obtain ⟨last, typed⟩ := typeGiver_ok_iff.mp returned
    exact ⟨(last, decl), typed, Except.ok.inj shown⟩
  · intro typed
    obtain ⟨last, typed, rfl⟩ := typed
    exact ⟨last.2, typeGiver_ok_iff.mpr ⟨last.1, typed⟩, rfl⟩

theorem declaredType_returns_iff {program : Program} {keep : String → Bool} {id : DeclId} :
    (∃ type, program.declaredType keep id = .ok type) ↔ HasType program id := by
  constructor
  · intro returned
    obtain ⟨type, returned⟩ := returned
    obtain ⟨last, typed, _⟩ := declaredType_ok_iff.mp returned
    exact ⟨last, typed⟩
  · intro typed
    obtain ⟨last, typed⟩ := typed
    exact ⟨_, declaredType_ok_iff.mpr ⟨last, typed, rfl⟩⟩

theorem accessorParameter?_held {program : Program} {decl : Declaration} (inside : DeclHeld program decl)
    {parameter : DeclId} (named : decl.accessorParameter? = some parameter) :
    program.holds (.decl parameter) := by
  unfold Declaration.accessorParameter? at named
  split at named
  · exact inside.parameters parameter (List.mem_of_head? named)
  · cases named

/-- The only reason for a stored declaration to have no type is an endless chain. -/
theorem typeGiver_error {program : Program} (closed : Closed program) {id : DeclId}
    (held : program.holds (.decl id)) {fault : Fault} (failed : program.typeGiver id = .error fault) :
    ∃ decl, fault = .endlessAccessor decl := by
  have step : ∀ id : DeclId, program.holds (.decl id) → Returns
      (fun decl => Returns (fun successor => ∀ id, successor = some id → program.holds (.decl id))
        (.ok decl.accessorParameter? : Except Fault (Option DeclId))) (program.declSource.get id) := by
    intro id held
    apply (declaration_returns closed held).weaken
    intro decl _ inside
    exact .pure fun _ named => accessorParameter?_held inside named
  obtain ⟨chain, followed, _⟩ := follow_returns (fun id => program.holds (.decl id)) step [] id held
  simp only [Program.typeGiver, followed, bind, Except.bind] at failed
  split at failed
  · split at failed <;> cases failed
    exact ⟨_, rfl⟩
  · cases failed
    exact ⟨_, rfl⟩

/-- The computation returns exactly if the needed declarations have types; if it fails, it is because
one of them has none. -/
def Needs {α : Type} (program : Program) (needed : DeclId → Prop) : Except Fault α → Prop
  | .ok _ => ∀ id, needed id → HasType program id
  | .error fault => (∃ decl, fault = .endlessAccessor decl) ∧ ∃ id, needed id ∧ ¬ HasType program id

namespace Needs

variable {program : Program} {α β σ : Type} {needed others : DeclId → Prop} {post : α → Prop}
  {computation : Except Fault α} {next : α → Except Fault β}

theorem congr (first : Needs program needed computation) (same : ∀ id, needed id ↔ others id) :
    Needs program others computation := by
  rwa [← show needed = others from funext fun id => propext (same id)]

theorem of_returns (first : Returns post computation) : Needs program (fun _ => False) computation := by
  obtain ⟨value, rfl, _⟩ := first
  exact fun _ impossible => impossible.elim

/-- What is needed after a computation that returns. -/
theorem after (first : Returns post computation)
    (rest : ∀ value, computation = .ok value → post value → Needs program needed (next value)) :
    Needs program needed (computation >>= next) := by
  obtain ⟨value, rfl, holds⟩ := first
  exact rest value rfl holds

theorem bind (first : Needs program needed computation)
    (rest : ∀ value, computation = .ok value → Needs program others (next value)) :
    Needs program (fun id => needed id ∨ others id) (computation >>= next) := by
  cases computation with
  | error fault =>
    obtain ⟨endless, id, wanted, untyped⟩ := first
    exact ⟨endless, id, .inl wanted, untyped⟩
  | ok value =>
    have remaining := rest value rfl
    change Needs program _ (next value)
    cases result : next value with
    | error fault =>
      rw [result] at remaining
      obtain ⟨endless, id, wanted, untyped⟩ := remaining
      exact ⟨endless, id, .inr wanted, untyped⟩
    | ok value =>
      rw [result] at remaining
      intro id wanted
      exact wanted.elim (first id) (remaining id)

/-- Nothing more is needed for what returns afterwards. -/
theorem andThen (first : Needs program needed computation)
    (rest : ∀ value, computation = .ok value → Returns (fun _ => True) (next value)) :
    Needs program needed (computation >>= next) := by
  apply (first.bind fun value returned => of_returns (rest value returned)).congr
  simp

theorem mapM {items : List σ} {body : σ → Except Fault α} {wanted : σ → DeclId → Prop}
    (each : ∀ item ∈ items, Needs program (wanted item) (body item)) :
    Needs program (fun id => ∃ item ∈ items, wanted item id) (items.mapM body) := by
  induction items with
  | nil =>
    intro id impossible
    obtain ⟨item, member, _⟩ := impossible
    cases member
  | cons item items ih =>
    have first := each item List.mem_cons_self
    have rest := ih fun item member => each item (List.mem_cons_of_mem _ member)
    rw [List.mapM_cons]
    apply (first.bind fun _ _ => rest.andThen fun _ _ => .pure trivial).congr
    simp

theorem foldlM {items : List α} {step : σ → α → Except Fault σ} {wanted : α → DeclId → Prop}
    (each : ∀ state, ∀ item ∈ items, Needs program (wanted item) (step state item)) (start : σ) :
    Needs program (fun id => ∃ item ∈ items, wanted item id) (items.foldlM step start) := by
  induction items generalizing start with
  | nil =>
    intro id impossible
    obtain ⟨item, member, _⟩ := impossible
    cases member
  | cons item items ih =>
    have first := each start item List.mem_cons_self
    have rest := ih fun state item member => each state item (List.mem_cons_of_mem _ member)
    rw [List.foldlM_cons]
    apply (first.bind fun state _ => rest state).congr
    simp

end Needs

/-- The declarations whose types a member of some kind shows. -/
def memberTypes (kind : MemberKind) (id : DeclId) (decl : Declaration) : List DeclId :=
  match kind with
  | .method | .callSignature | .constructSignature | .constructor => decl.parameters
  | .enumMember => []
  | .property | .getAccessor | .setAccessor => [id]

def MemberShows (program : Program) (member : ClassifiedMember) (id : DeclId) : Prop :=
  ∃ decl, program.declaration member.decl = .ok decl ∧ id ∈ memberTypes member.kind member.decl decl

/-- The signature that an interface has itself shows the types of its parameters. -/
def SignatureShows (program : Program) (signature : Option DeclId) (id : DeclId) : Prop :=
  ∃ owner decl, signature = some owner ∧ program.declaration owner = .ok decl ∧ id ∈ decl.parameters

/-- The type of the declaration is shown for a symbol that is described by its declarations of one
kind. -/
def FormShows (program : Program) (options : Options) (kind : DeclKind) (primary : Declaration)
    (primaryId : DeclId) (decls : List DeclId) (id : DeclId) : Prop :=
  match kind with
  | .class_ | .enum =>
    ∃ layout, program.layout options decls = .ok layout ∧
      ∃ member ∈ layout.ordered, MemberShows program member id
  | .interface =>
    ∃ layout, program.layout options decls = .ok layout ∧
      ((∃ member ∈ layout.ordered, MemberShows program member id) ∨
        SignatureShows program layout.callSignature id ∨
        SignatureShows program layout.constructSignature id)
  | .function => id ∈ primary.parameters
  | .typeAlias => False
  | _ => id = primaryId

/-- The type of the declaration is shown in the description of the symbol behind an export. -/
def Shows (program : Program) (options : Options) (target : Option SymbolId) (id : DeclId) : Prop :=
  ∃ symbolId symbol kind decls primaryId primary rest,
    target = some symbolId ∧ program.symbol symbolId = .ok symbol ∧
    exportKind? symbol.flags = some kind ∧
    symbol.declarations.mapM program.identified = .ok decls ∧
    decls.filter (·.2.kind = kind) = (primaryId, primary) :: rest ∧
    FormShows program options kind primary primaryId (primaryId :: rest.map (·.1)) id

section Descriptions

variable {program : Program} (closed : Closed program)

include closed

theorem declaredType_needs (keep : String → Bool) {id : DeclId} (held : program.holds (.decl id)) :
    Needs program (· = id) (program.declaredType keep id) := by
  cases result : program.declaredType keep id with
  | ok type =>
    intro other same
    subst same
    exact declaredType_returns_iff.mp ⟨type, result⟩
  | error fault =>
    have untyped : ¬ HasType program id := by
      intro typed
      obtain ⟨type, returned⟩ := declaredType_returns_iff.mpr typed
      rw [result] at returned
      cases returned
    refine ⟨?_, id, rfl, untyped⟩
    cases failed : program.typeGiver id with
    | ok decl => simp [Program.declaredType, failed, bind, Except.bind, pure, Except.pure] at result
    | error cause =>
      simp only [Program.declaredType, failed, bind, Except.bind, Except.error.injEq] at result
      subst result
      exact typeGiver_error closed held failed

theorem parameterDoc_needs (keep : String → Bool) {id : DeclId} (held : program.holds (.decl id)) :
    Needs program (· = id) (program.parameterDoc keep id) := by
  apply Needs.after (declaration_returns closed held)
  intro decl _ _
  apply (declaredType_needs closed keep held).andThen
  intro type _
  exact .pure trivial

theorem signature_needs (keep : String → Bool) {decl : Declaration} (inside : DeclHeld program decl) :
    Needs program (· ∈ decl.parameters) (program.signature keep decl) := by
  have parameters : Needs program (· ∈ decl.parameters)
      (decl.parameters.mapM (program.parameterDoc keep)) := by
    apply (Needs.mapM fun id member => parameterDoc_needs closed keep (inside.parameters id member)).congr
    simp
  exact parameters.andThen fun _ _ => .pure trivial

theorem memberSignature_needs (keep : String → Bool) {member : ClassifiedMember} {decl : Declaration}
    (ownerName : String) (held : program.holds (.decl member.decl)) (inside : DeclHeld program decl) :
    Needs program (· ∈ memberTypes member.kind member.decl decl)
      (program.memberSignature keep member decl ownerName) := by
  have signature := signature_needs closed keep inside
  have type : Needs program (· ∈ [member.decl]) (program.declaredType keep member.decl) :=
    (declaredType_needs closed keep held).congr (by simp)
  unfold Program.memberSignature
  cases member.kind with
  | method | callSignature | constructSignature | constructor =>
    exact signature.andThen fun _ _ => .pure trivial
  | enumMember =>
    intro id impossible
    cases impossible
  | property | getAccessor | setAccessor => exact type.andThen fun _ _ => .pure trivial

theorem describeMember_needs (keep : String → Bool) (ownerName : String) (member : ClassifiedMember)
    (held : program.holds (.decl member.decl)) :
    Needs program (MemberShows program member) (program.describeMember keep ownerName member) := by
  apply Needs.after (declaration_returns closed held)
  intro decl found inside
  have same : ∀ id, id ∈ memberTypes member.kind member.decl decl ↔ MemberShows program member id := by
    intro id
    simp [MemberShows, found]
  apply ((memberSignature_needs closed keep ownerName held inside).congr same).andThen
  intro signature _
  exact (locationOf_returns closed inside).bind fun _ _ _ => .pure trivial

theorem signatureMember_needs (keep : String → Bool) (ownerName name : String) {kind : MemberKind}
    (callable : kind = .callSignature ∨ kind = .constructSignature) {signature : Option DeclId}
    (held : DeclsHeld program signature.toList) :
    Needs program (SignatureShows program signature)
      (program.signatureMember keep ownerName name kind signature) := by
  cases signature with
  | none =>
    intro id impossible
    obtain ⟨owner, decl, none, _⟩ := impossible
    cases none
  | some owner =>
    have described := describeMember_needs closed keep ownerName
      { decl := owner, name, kind, access := .public_, isStatic := false, source := .declared }
      (held owner (by simp))
    apply (described.andThen fun _ _ => .pure trivial).congr
    intro id
    rcases callable with rfl | rfl <;> simp [MemberShows, SignatureShows, memberTypes]

/-- The members in the list of a class, an interface or an enum. -/
theorem members_need (keep : String → Bool) (ownerName : String) {layout : MemberLayout}
    (inside : LayoutHeld program layout) :
    Needs program (fun id => ∃ member ∈ layout.ordered, MemberShows program member id)
      (layout.ordered.mapM (program.describeMember keep ownerName)) := by
  apply Needs.mapM
  intro member listed
  exact describeMember_needs closed keep ownerName member (inside.ordered member listed)

/-- A form that only lists members. -/
theorem listing_needs {α : Type} (options : Options) (name : String) {decls : List DeclId}
    (held : DeclsHeld program decls) (build : List Member → α) :
    Needs program (fun id => ∃ layout, program.layout options decls = .ok layout ∧
        ∃ member ∈ layout.ordered, MemberShows program member id)
      (program.layout options decls >>= fun layout =>
        layout.ordered.mapM (program.describeMember options.keeps name) >>= fun members =>
          pure (build members)) := by
  apply Needs.after (layout_returns closed options held)
  intro layout found inside
  apply ((members_need closed options.keeps name inside).andThen fun _ _ => .pure trivial).congr
  simp [found]

theorem describeForm_needs (options : Options) (name : String) (kind : DeclKind)
    {primary : Declaration} {primaryId : DeclId} {decls : List DeclId}
    (primaryHeld : EntryHeld program primaryId primary) (held : DeclsHeld program decls) :
    Needs program (FormShows program options kind primary primaryId decls)
      (program.describeForm options name kind primary primaryId decls) := by
  unfold Program.describeForm
  split
  · exact listing_needs closed options name held _
  · apply Needs.after (layout_returns closed options held)
    intro layout found inside
    have members := members_need closed options.keeps name inside
    have call := signatureMember_needs closed options.keeps name "call" (.inl rfl) inside.callSignature
    have new := signatureMember_needs closed options.keeps name "new" (.inr rfl) inside.constructSignature
    apply (members.bind fun _ _ => call.bind fun _ _ => new.andThen fun _ _ => .pure trivial).congr
    simp [FormShows, found]
  · exact listing_needs closed options name held _
  · exact (signature_needs closed options.keeps primaryHeld.2).andThen fun _ _ => .pure trivial
  · intro id impossible
    exact impossible.elim
  · -- every other kind is described as a variable is
    apply ((declaredType_needs closed options.keeps primaryHeld.1).andThen fun _ _ => .pure trivial).congr
    intro id
    cases kind with
    | class_ | interface | enum | function | typeAlias => contradiction
    | _ => rfl

theorem describe_needs (options : Options) {target : Option SymbolId}
    (held : TargetHeld program target) :
    Needs program (Shows program options target) (program.describe options target) := by
  cases target with
  | none =>
    intro id impossible
    simp [Shows] at impossible
  | some symbolId =>
    have known := targetHeld_some.mp held
    apply Needs.after (symbol_returns closed known)
    intro symbol found inside
    split
    next unknown =>
      intro id impossible
      simp [Shows, found, unknown] at impossible
    next kind fitting =>
      apply Needs.after (.mapM fun id member => identified_returns closed (inside.declarations id member))
      intro decls listed all
      split
      next nothing =>
        intro id impossible
        simp [Shows, found, fitting, listed, nothing] at impossible
      next primaryId primary rest chosen =>
        have entry : ∀ pair ∈ (primaryId, primary) :: rest, EntryHeld program pair.1 pair.2 := by
          intro pair member
          rw [← chosen] at member
          exact all pair (List.mem_of_mem_filter member)
        have declsHeld : DeclsHeld program (primaryId :: rest.map (·.1)) := by
          intro id member
          rw [← List.map_cons (f := Prod.fst) (a := (primaryId, primary))] at member
          obtain ⟨pair, inside, rfl⟩ := List.mem_map.mp member
          exact (entry pair inside).1
        have form := describeForm_needs closed options symbol.name kind
          (entry _ List.mem_cons_self) declsHeld
        have same : ∀ id, FormShows program options kind primary primaryId
            (primaryId :: rest.map (·.1)) id ↔ Shows program options (some symbolId) id := by
          intro id
          simp [Shows, found, fitting, listed, chosen]
        apply (form.congr same).andThen
        intro described _
        apply (locationOf_returns closed (entry _ List.mem_cons_self).2).bind
        intro _ _ _
        exact (owningModuleId_returns closed options.baseDir known).bind fun _ _ _ => .pure trivial

end Descriptions

end ApiDocs.Proofs.DeclaredTypes
