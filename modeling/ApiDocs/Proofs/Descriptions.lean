import ApiDocs.Extraction.Describe
import ApiDocs.Proofs.Outcome

/-! What a description is built from. A symbol is described by its declarations of the one kind that
its flags call for. Without such a declaration the description is empty, and only then is the form
unknown. -/

namespace ApiDocs.Proofs.Descriptions

/-- All that describing a symbol can come to. -/
inductive Described (program : Program) (options : Options) : Option SymbolId → Description → Prop where
  | nothing : Described program options none {}
  | kindless {id symbol} (found : program.symbol id = .ok symbol)
      (unfit : exportKind? symbol.flags = none) : Described program options (some id) {}
  | undeclared {id symbol kind decls} (found : program.symbol id = .ok symbol)
      (fitting : exportKind? symbol.flags = some kind)
      (listed : symbol.declarations.mapM program.identified = .ok decls)
      (none : decls.filter (·.2.kind = kind) = []) : Described program options (some id) {}
  | declared {id symbol kind decls primaryId primary rest members form location owner}
      (found : program.symbol id = .ok symbol) (fitting : exportKind? symbol.flags = some kind)
      (listed : symbol.declarations.mapM program.identified = .ok decls)
      (chosen : decls.filter (·.2.kind = kind) = (primaryId, primary) :: rest)
      (formed : program.describeForm options symbol.name kind primary primaryId
        (primaryId :: rest.map (·.1)) = .ok (members, form))
      (located : program.locationOf primary = .ok location)
      (owned : program.owningModuleId options.baseDir id = .ok owner) :
      Described program options (some id)
        { resolved := true, content := primary.docComment, location, owningModule := owner, members, form }

variable {program : Program} {options : Options} {target : Option SymbolId} {description : Description}

theorem described_of_describe (described : program.describe options target = .ok description) :
    Described program options target description := by
  unfold Program.describe at described
  split at described
  · cases described
    exact .nothing
  next id =>
    obtain ⟨symbol, found, rest⟩ := bind_ok_iff.mp described
    split at rest
    · cases rest
      exact .kindless found ‹_›
    next kind fitting =>
      obtain ⟨decls, listed, rest⟩ := bind_ok_iff.mp rest
      split at rest
      · cases rest
        exact .undeclared found fitting listed ‹_›
      next primaryId primary others chosen =>
        obtain ⟨⟨members, form⟩, formed, rest⟩ := bind_ok_iff.mp rest
        obtain ⟨location, located, rest⟩ := bind_ok_iff.mp rest
        obtain ⟨owner, owned, built⟩ := bind_ok_iff.mp rest
        cases built
        exact .declared found fitting listed chosen formed located owned

/-- All that the members and the form of a symbol can be, by the kind of its declarations. -/
inductive Formed (program : Program) (options : Options) (name : String) (primary : Declaration)
    (primaryId : DeclId) (decls : List DeclId) : DeclKind → List Member → ExportForm → Prop where
  | class_ {layout members} (laid : program.layout options decls = .ok layout)
      (described : layout.ordered.mapM (program.describeMember options.keeps name) = .ok members) :
      Formed program options name primary primaryId decls .class_ members
        (.class_ primary.shownTypeParameters primary.heritage
          (covers primary.modifiers Modifiers.abstract))
  | interface {layout members callMember newMember} (laid : program.layout options decls = .ok layout)
      (described : layout.ordered.mapM (program.describeMember options.keeps name) = .ok members)
      (call : program.signatureMember options.keeps name "call" .callSignature layout.callSignature =
        .ok callMember)
      (new : program.signatureMember options.keeps name "new" .constructSignature
        layout.constructSignature = .ok newMember) :
      Formed program options name primary primaryId decls .interface members
        (.interface primary.shownTypeParameters primary.heritage callMember newMember)
  | enum {layout members} (laid : program.layout options decls = .ok layout)
      (described : layout.ordered.mapM (program.describeMember options.keeps name) = .ok members) :
      Formed program options name primary primaryId decls .enum members .enum
  | function {signature} (signed : program.signature options.keeps primary = .ok signature) :
      Formed program options name primary primaryId decls .function [] (.function signature)
  | typeAlias :
      Formed program options name primary primaryId decls .typeAlias []
        (.typeAlias primary.shownTypeParameters
          (primary.typeAnnotation.map (TypeText.display options.keeps)))
  | variable_ {kind type} (typed : program.declaredType options.keeps primaryId = .ok type) :
      Formed program options name primary primaryId decls kind []
        (.variable_ (primary.varKeyword.getD .var) type)

section Forms

variable {name : String} {kind : DeclKind} {primary : Declaration} {primaryId : DeclId}
  {decls : List DeclId} {members : List Member} {form : ExportForm}

theorem formed_of_describeForm
    (given : program.describeForm options name kind primary primaryId decls = .ok (members, form)) :
    Formed program options name primary primaryId decls kind members form := by
  unfold Program.describeForm at given
  split at given
  · obtain ⟨layout, laid, rest⟩ := bind_ok_iff.mp given
    obtain ⟨found, described, built⟩ := bind_ok_iff.mp rest
    cases built
    exact .class_ laid described
  · obtain ⟨layout, laid, rest⟩ := bind_ok_iff.mp given
    obtain ⟨found, described, rest⟩ := bind_ok_iff.mp rest
    obtain ⟨callMember, call, rest⟩ := bind_ok_iff.mp rest
    obtain ⟨newMember, new, built⟩ := bind_ok_iff.mp rest
    cases built
    exact .interface laid described call new
  · obtain ⟨layout, laid, rest⟩ := bind_ok_iff.mp given
    obtain ⟨found, described, built⟩ := bind_ok_iff.mp rest
    cases built
    exact .enum laid described
  · obtain ⟨signature, signed, built⟩ := bind_ok_iff.mp given
    cases built
    exact .function signed
  · cases given
    exact .typeAlias
  · obtain ⟨type, typed, built⟩ := bind_ok_iff.mp given
    cases built
    exact .variable_ typed

theorem Formed.known (formed : Formed program options name primary primaryId decls kind members form) :
    form ≠ .unknown := by
  cases formed <;> simp

end Forms

/-- Describing gets as far as a form exactly if it finds a fitting declaration. -/
theorem resolved_iff (described : program.describe options target = .ok description) :
    description.resolved = true ↔ description.form ≠ .unknown := by
  cases described_of_describe described with
  | nothing | kindless | undeclared => simp
  | declared found fitting listed chosen formed located owned =>
    exact iff_of_true rfl (formed_of_describeForm formed).known

theorem mem_identified {ids : List DeclId} {decls : List (DeclId × Declaration)}
    (listed : ids.mapM program.identified = .ok decls) {id : DeclId} {decl : Declaration} :
    (id, decl) ∈ decls ↔ id ∈ ids ∧ program.declaration id = .ok decl := by
  have related := mapM_ok_iff.mp listed
  constructor
  · intro member
    obtain ⟨other, inside, looked⟩ := exists_related related member
    obtain ⟨found, declared, built⟩ := bind_ok_iff.mp looked
    cases built
    exact ⟨inside, declared⟩
  · rintro ⟨inside, declared⟩
    obtain ⟨pair, member, looked⟩ := exists_related related.flip inside
    obtain ⟨found, again, built⟩ := bind_ok_iff.mp looked
    rw [declared] at again
    cases again
    cases built
    exact member

/-- Among the declarations of the target is one of the kind for which its flags call. -/
def Fits (program : Program) (target : Option SymbolId) : Prop :=
  ∃ id symbol kind declId decl, target = some id ∧ program.symbol id = .ok symbol ∧
    exportKind? symbol.flags = some kind ∧ declId ∈ symbol.declarations ∧
    program.declaration declId = .ok decl ∧ decl.kind = kind

/-- A symbol is of known form exactly if a fitting declaration describes it. -/
theorem form_known_iff (described : program.describe options target = .ok description) :
    description.form ≠ .unknown ↔ Fits program target := by
  cases described_of_describe described with
  | nothing =>
    refine iff_of_false (by simp) ?_
    rintro ⟨_, _, _, _, _, impossible, _⟩
    cases impossible
  | kindless found unfit =>
    refine iff_of_false (by simp) ?_
    rintro ⟨id, symbol, kind, _, _, same, again, fitting, _⟩
    cases same
    rw [found] at again
    cases again
    rw [unfit] at fitting
    cases fitting
  | @undeclared id symbol kind decls found fitting listed none =>
    refine iff_of_false (by simp) ?_
    rintro ⟨other, otherSymbol, otherKind, declId, decl, same, again, fittingToo, inside, declared, ofKind⟩
    cases same
    rw [found] at again
    cases again
    rw [fitting] at fittingToo
    cases fittingToo
    have member := (mem_identified listed).mpr ⟨inside, declared⟩
    exact List.filter_eq_nil_iff.mp none _ member (by simpa using ofKind)
  | @declared id symbol kind decls primaryId primary rest members form location owner found fitting
      listed chosen formed located owned =>
    refine iff_of_true (formed_of_describeForm formed).known ?_
    have first : (primaryId, primary) ∈ decls.filter (·.2.kind = kind) := by
      rw [chosen]
      exact List.mem_cons_self
    obtain ⟨member, ofKind⟩ := List.mem_filter.mp first
    obtain ⟨inside, declared⟩ := (mem_identified listed).mp member
    exact ⟨id, symbol, kind, primaryId, primary, rfl, found, fitting, inside, declared,
      by simpa using ofKind⟩

/-- A declared symbol belongs to a module or to a file. -/
theorem owningModuleId_declared {base : String} {id : SymbolId} {symbol : Symbol} {owner : Option String}
    (owned : program.owningModuleId base id = .ok owner) (found : program.symbol id = .ok symbol)
    (declared : symbol.declarations ≠ []) : ∃ origin, owner = some origin := by
  obtain ⟨again, foundAgain, rest⟩ := bind_ok_iff.mp owned
  rw [found] at foundAgain
  cases foundAgain
  obtain ⟨around, _, rest⟩ := bind_ok_iff.mp rest
  split at rest
  · obtain ⟨origin, _, built⟩ := bind_ok_iff.mp rest
    cases built
    exact ⟨origin, rfl⟩
  · unfold Program.fileModuleId? at rest
    split at rest
    next empty => exact absurd empty declared
    · obtain ⟨decl, _, rest⟩ := bind_ok_iff.mp rest
      obtain ⟨file, _, rest⟩ := bind_ok_iff.mp rest
      split at rest
      · obtain ⟨origin, _, built⟩ := bind_ok_iff.mp rest
        cases built
        exact ⟨origin, rfl⟩
      · cases rest
        exact ⟨_, rfl⟩

/-- What is known says to which module it belongs. -/
theorem owningModule_of_known (described : program.describe options target = .ok description)
    (known : description.form ≠ .unknown) :
    ∃ id origin, target = some id ∧ program.owningModuleId options.baseDir id = .ok (some origin) ∧
      description.owningModule = some origin := by
  obtain ⟨_, _, _, declId, _, same, again, _, inside, _⟩ := (form_known_iff described).mp known
  cases described_of_describe described with
  | nothing => cases same
  | kindless | undeclared => exact absurd rfl known
  | declared found fitting listed chosen formed located owned =>
    cases same
    obtain ⟨origin, rfl⟩ := owningModuleId_declared owned again (List.ne_nil_of_mem inside)
    exact ⟨_, origin, rfl, owned, rfl⟩

end ApiDocs.Proofs.Descriptions
