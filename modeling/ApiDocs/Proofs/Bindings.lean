import ApiDocs.Proofs.BuilderSoundness
import ApiDocs.Proofs.FlagWords
import ApiDocs.Proofs.Reexports

/-! Symbols and the declarations that bind them. If new symbols have no flags, a symbol has the flags
of its declarations and no others, so the builder leaves no symbol whose flags call for a declaration
that is missing. An export is then unknown only if there is nothing to describe. -/

namespace ApiDocs.Proofs.Bindings

open References Edits BuilderCalls BuilderSoundness Descriptions Reexports Provenance

/-- The flags that the declarations give together. -/
def unionFlags (decls : List Declaration) : SymbolFlags :=
  (decls.map (·.symbolFlags)).foldl (· ||| ·) 0

/-- A declaration names a symbol exactly if the symbol lists it, which it does once. The flags of a
symbol are those of its declarations. -/
structure Bound (program : Program) : Prop where
  binds : ∀ id decl owner symbol, program.declaration id = .ok decl →
    program.symbol owner = .ok symbol → (decl.symbol = some owner ↔ id ∈ symbol.declarations)
  once : ∀ owner symbol, program.symbol owner = .ok symbol → symbol.declarations.Nodup
  flags : ∀ owner symbol, program.symbol owner = .ok symbol →
    ∃ decls, symbol.declarations.mapM program.declaration = .ok decls ∧ symbol.flags = unionFlags decls

section LookUps

variable {program after : Program}

/-- The union stays if every declaration is kept with its flags. -/
theorem unionFlags_kept
    (kept : ∀ id decl, program.declaration id = .ok decl →
      ∃ other, after.declaration id = .ok other ∧ other.symbolFlags = decl.symbolFlags)
    {ids : List DeclId} {decls : List Declaration} (listed : ids.mapM program.declaration = .ok decls) :
    ∃ others, ids.mapM after.declaration = .ok others ∧ unionFlags others = unionFlags decls := by
  have same : ∃ others, ids.mapM after.declaration = .ok others ∧
      others.map (·.symbolFlags) = decls.map (·.symbolFlags) := by
    have related := mapM_ok_iff.mp listed
    induction related with
    | nil => exact ⟨[], rfl, rfl⟩
    | @cons id decl ids decls found rest ih =>
      obtain ⟨others, listedToo, same⟩ := ih (mapM_ok_iff.mpr rest)
      obtain ⟨other, foundToo, sameFlags⟩ := kept id decl found
      refine ⟨other :: others, ?_, by simp [sameFlags, same]⟩
      exact mapM_ok_iff.mpr (.cons foundToo (mapM_ok_iff.mp listedToo))
  obtain ⟨others, listedToo, same⟩ := same
  exact ⟨others, listedToo, congrArg (List.foldl (· ||| ·) 0) same⟩

end LookUps

section Edits

variable {allowed : SymbolFlags → Prop} {program after : Program}

/-- An edit that keeps what symbols and declarations know of each other keeps them bound. -/
theorem Bound.frame (bound : Bound program)
    (symbols : ∀ owner symbol, after.symbol owner = .ok symbol → ∃ old, program.symbol owner = .ok old ∧
      symbol.flags = old.flags ∧ symbol.declarations = old.declarations)
    (decls : ∀ id decl, after.declaration id = .ok decl → ∃ old, program.declaration id = .ok old ∧
      decl.symbol = old.symbol)
    (kept : ∀ id old, program.declaration id = .ok old → ∃ decl, after.declaration id = .ok decl ∧
      decl.symbolFlags = old.symbolFlags) : Bound after := by
  constructor
  · intro id decl owner symbol found foundSymbol
    obtain ⟨old, before, _, listed⟩ := symbols owner symbol foundSymbol
    obtain ⟨oldDecl, beforeDecl, named⟩ := decls id decl found
    rw [named, listed]
    exact bound.binds id oldDecl owner old beforeDecl before
  · intro owner symbol found
    obtain ⟨old, before, _, listed⟩ := symbols owner symbol found
    rw [listed]
    exact bound.once owner old before
  · intro owner symbol found
    obtain ⟨old, before, sameFlags, listed⟩ := symbols owner symbol found
    obtain ⟨oldDecls, looked, union⟩ := bound.flags owner old before
    obtain ⟨others, lookedToo, same⟩ := unionFlags_kept kept looked
    refine ⟨others, ?_, ?_⟩
    · rw [listed]
      exact lookedToo
    · rw [sameFlags, union, same]

theorem bound_changeSymbol (bound : Bound program) (index : Nat) {change : Symbol → Symbol}
    (keeps : ∀ entry, (change entry).flags = entry.flags ∧
      (change entry).declarations = entry.declarations ∧ (change entry).parent = entry.parent) :
    Bound { program with symbols := program.symbols.modify index change } := by
  refine bound.frame ?_ (fun _ decl found => ⟨decl, found, rfl⟩)
    (fun _ decl found => ⟨decl, found, rfl⟩)
  intro owner symbol found
  obtain ⟨old, there, rfl | rfl⟩ := getElem?_modify_cases (symbol_ok_iff.mp found)
  · exact ⟨old, symbol_ok_iff.mpr there, (keeps old).1, (keeps old).2.1⟩
  · exact ⟨symbol, symbol_ok_iff.mpr there, rfl, rfl⟩

theorem bound_changeDeclaration (bound : Bound program) (index : Nat)
    {change : Declaration → Declaration}
    (keeps : ∀ entry, (change entry).symbol = entry.symbol ∧
      (change entry).symbolFlags = entry.symbolFlags) :
    Bound { program with declarations := program.declarations.modify index change } := by
  refine bound.frame (fun _ symbol found => ⟨symbol, found, rfl, rfl⟩) ?_ ?_
  · intro id decl found
    obtain ⟨old, there, rfl | rfl⟩ := getElem?_modify_cases (declaration_ok_iff.mp found)
    · exact ⟨old, declaration_ok_iff.mpr there, (keeps old).1⟩
    · exact ⟨decl, declaration_ok_iff.mpr there, rfl⟩
  · intro id old found
    have there := declaration_ok_iff.mp found
    simp only [declaration_ok_iff, Array.getElem?_modify]
    split
    · exact ⟨change old, by rw [there]; rfl, (keeps old).2⟩
    · exact ⟨old, there, rfl⟩

/-- What a symbol of the program lists has been added already. -/
theorem listed_held (closed : Closed program) {owner : SymbolId} {symbol : Symbol}
    (found : program.symbol owner = .ok symbol) {id : DeclId} (listed : id ∈ symbol.declarations) :
    program.holds (.decl id) := by
  apply closed
  apply mem_references.mpr
  refine .inr (.inl ⟨symbol, Array.mem_of_getElem? (symbol_ok_iff.mp found), ?_⟩)
  simp only [Symbol.references, List.mem_append, List.mem_map]
  exact .inl (.inl (.inl ⟨id, listed, rfl⟩))

theorem bound_symbol (bound : Bound program) (closed : Closed program) (name : String)
    (parent : Option SymbolId) :
    Bound { program with symbols := program.symbols.push { name, flags := 0, parent } } := by
  -- A symbol is one of the old ones, or it is the new one and no declaration can name it.
  have origin : ∀ owner symbol,
      (program.symbols.push { name, flags := 0, parent })[owner.index.toNat]? = some symbol →
      program.symbol owner = .ok symbol ∨
        owner.index.toNat = program.symbols.size ∧ symbol = { name, flags := 0, parent } := by
    intro (owner : SymbolId) symbol found
    rw [Array.getElem?_push] at found
    split at found
    · cases found
      exact .inr ⟨‹_›, rfl⟩
    · exact .inl (symbol_ok_iff.mpr found)
  constructor
  · intro id decl owner symbol found foundSymbol
    obtain old | ⟨last, rfl⟩ := origin owner symbol (symbol_ok_iff.mp foundSymbol)
    · exact bound.binds id decl owner symbol found old
    · refine iff_of_false ?_ (by simp)
      intro named
      have held := symbol_held closed (show program.declaration id = .ok decl from found) owner
        (Option.mem_toList.mpr named)
      have inside : owner.index.toNat < program.symbols.size := of_decide_eq_true held
      omega
  · intro owner symbol found
    obtain old | ⟨_, rfl⟩ := origin owner symbol (symbol_ok_iff.mp found)
    · exact bound.once owner symbol old
    · exact .nil
  · intro owner symbol found
    obtain old | ⟨_, rfl⟩ := origin owner symbol (symbol_ok_iff.mp found)
    · exact bound.flags owner symbol old
    · exact ⟨[], rfl, rfl⟩

section Attach

variable {target : Option SymbolId} {decl : Declaration}

/-- The symbols after a declaration is added: those that were there, of which one may know more. -/
theorem symbol_attach {owner : SymbolId} {symbol : Symbol}
    (found : (attach program target decl).symbol owner = .ok symbol) :
    ∃ old, program.symbol owner = .ok old ∧
      (target = some owner ∧ symbol = boundBy (nextDecl program) decl old ∨
        target ≠ some owner ∧ symbol = old) := by
  rw [symbol_ok_iff] at found
  cases target with
  | none => exact ⟨symbol, symbol_ok_iff.mpr found, .inr ⟨by simp, rfl⟩⟩
  | some named =>
    simp only [attach, Array.getElem?_modify] at found
    split at found
    next same =>
      obtain ⟨old, there, rfl⟩ := Option.map_eq_some_iff.mp found
      have equal : named = owner := by
        cases named
        cases owner
        simpa using UInt32.toNat_inj.mp same
      exact ⟨old, symbol_ok_iff.mpr there, .inl ⟨congrArg some equal, rfl⟩⟩
    next other =>
      refine ⟨symbol, symbol_ok_iff.mpr found, .inr ⟨?_, rfl⟩⟩
      rintro ⟨⟩
      exact other rfl

theorem nextDecl_toNat (small : program.declarations.size < UInt32.size) :
    (nextDecl program).index.toNat = program.declarations.size :=
  UInt32.toNat_ofNat_of_lt' small

/-- The declarations after one is added: the new one and those that were there. -/
theorem declaration_attach (small : program.declarations.size < UInt32.size) {id : DeclId}
    {found : Declaration} (looked : (attach program target decl).declaration id = .ok found) :
    id = nextDecl program ∧ found = attached target decl ∨
      id ≠ nextDecl program ∧ program.declaration id = .ok found := by
  have looked : (program.declarations.push (attached target decl))[id.index.toNat]? = some found :=
    declaration_ok_iff.mp looked
  rw [Array.getElem?_push] at looked
  split at looked
  next last =>
    cases looked
    refine .inl ⟨?_, rfl⟩
    cases id
    rw [← nextDecl_toNat small] at last
    exact congrArg DeclId.mk (UInt32.toNat_inj.mp last)
  next other =>
    refine .inr ⟨?_, declaration_ok_iff.mpr looked⟩
    rintro rfl
    exact other (nextDecl_toNat small)

theorem declaration_added (small : program.declarations.size < UInt32.size) :
    (attach program target decl).declaration (nextDecl program) = .ok (attached target decl) := by
  apply declaration_ok_iff.mpr
  simp [attach, nextDecl_toNat small]

theorem declaration_kept {id : DeclId} {old : Declaration} (found : program.declaration id = .ok old) :
    (attach program target decl).declaration id = .ok old := by
  have there := declaration_ok_iff.mp found
  have inside := (Array.getElem?_eq_some_iff.mp there).1
  apply declaration_ok_iff.mpr
  simp only [attach, Array.getElem?_push]
  rw [if_neg (by omega)]
  exact there

theorem unionFlags_append (decls : List Declaration) (decl : Declaration) :
    unionFlags (decls ++ [decl]) = unionFlags decls ||| decl.symbolFlags := by
  simp [unionFlags]

theorem bound_attach (bound : Bound program) (closed : Closed program)
    (small : program.declarations.size < UInt32.size) (target : Option SymbolId) (decl : Declaration) :
    Bound (attach program target decl) := by
  have next := nextDecl_toNat small
  have fresh : ∀ owner symbol, program.symbol owner = .ok symbol →
      nextDecl program ∉ symbol.declarations := by
    intro owner symbol found listed
    have inside : (nextDecl program).index.toNat < program.declarations.size :=
      of_decide_eq_true (listed_held closed found listed)
    omega
  constructor
  · intro id found owner symbol looked foundSymbol
    obtain ⟨old, before, known⟩ := symbol_attach foundSymbol
    obtain ⟨rfl, rfl⟩ | ⟨different, lookedBefore⟩ := declaration_attach small looked
    · obtain ⟨same, rfl⟩ | ⟨other, rfl⟩ := known
      · exact iff_of_true same (List.mem_append_right _ List.mem_cons_self)
      · exact iff_of_false other (fresh owner symbol before)
    · rw [bound.binds id found owner old lookedBefore before]
      obtain ⟨_, rfl⟩ | ⟨_, rfl⟩ := known
      · simp [boundBy, different]
      · rfl
  · intro owner symbol foundSymbol
    obtain ⟨old, before, ⟨_, rfl⟩ | ⟨_, rfl⟩⟩ := symbol_attach foundSymbol
    · exact List.nodup_append.mpr ⟨bound.once owner old before, List.nodup_singleton _, by
        intro id listed other new
        rw [List.mem_singleton.mp new]
        rintro rfl
        exact fresh owner old before listed⟩
    · exact bound.once owner symbol before
  · intro owner symbol foundSymbol
    obtain ⟨old, before, known⟩ := symbol_attach foundSymbol
    obtain ⟨decls, listed, union⟩ := bound.flags owner old before
    have still : old.declarations.mapM (attach program target decl).declaration = .ok decls := by
      apply mapM_ok_iff.mpr
      exact (mapM_ok_iff.mp listed).imp fun id entry found => declaration_kept found
    obtain ⟨_, rfl⟩ | ⟨_, rfl⟩ := known
    · refine ⟨decls ++ [attached target decl], ?_, ?_⟩
      · apply mapM_ok_iff.mpr
        apply List.rel_append (mapM_ok_iff.mp still)
        exact .cons (declaration_added small) .nil
      · rw [unionFlags_append, ← union]
        rfl
    · exact ⟨decls, still, union⟩

end Attach

/-- Every edit keeps symbols and declarations bound, if new symbols have no flags. -/
theorem edit_bound (edit : Edit (· = 0) program after) (closed : Closed program)
    (small : after.declarations.size < UInt32.size) (bound : Bound program) : Bound after := by
  have wider := edit.size_le .declaration
  cases edit with
  | file | changeFile => exact ⟨bound.binds, bound.once, bound.flags⟩
  | symbol name fits held =>
    subst fits
    exact bound_symbol bound closed name _
  | declaration target decl held =>
    exact bound_attach bound closed (Nat.lt_of_le_of_lt wider small) target decl
  | changeSymbol index change keeps grounded => exact bound_changeSymbol bound index keeps
  | changeDeclaration index change keeps grounded => exact bound_changeDeclaration bound index keeps

theorem bound_empty : Bound {} := by
  have none : ∀ owner symbol, ({} : Program).symbol owner ≠ .ok symbol := by
    intro owner symbol found
    simpa using symbol_ok_iff.mp found
  constructor
  · intro id decl owner symbol _ found
    exact absurd found (none owner symbol)
  · intro owner symbol found
    exact absurd found (none owner symbol)
  · intro owner symbol found
    exact absurd found (none owner symbol)

theorem edited_bound (edits : Edited (· = 0) {} after)
    (small : after.declarations.size < UInt32.size) : Bound after := by
  -- Declarations are only added, so the bound on their number reaches back to every edit.
  have kept := edited_keeps
    (fun program => Closed program ∧ (program.declarations.size < UInt32.size → Bound program))
    edits ?_ ⟨closed_empty, fun _ => bound_empty⟩
  · exact kept.2 small
  · rintro before next edit ⟨closed, bound⟩
    have wider := edit.size_le .declaration
    refine ⟨edit.closed closed, fun few => ?_⟩
    exact edit_bound edit closed few (bound (Nat.lt_of_le_of_lt wider few))

end Edits

section Kinds

/-- The kinds of declarations that describe an export. -/
def describing : List DeclKind := [.function, .class_, .interface, .enum, .typeAlias, .variable_]

/-- The flags that call for a declaration of this kind. -/
def callingFor : DeclKind → SymbolFlags
  | .function => SymbolFlags.function
  | .class_ => SymbolFlags.class_
  | .interface => SymbolFlags.interface
  | .enum => SymbolFlags.enum
  | .typeAlias => SymbolFlags.typeAlias
  | .variable_ => SymbolFlags.variable_
  | _ => 0

/-- The first kind whose flags the symbol has describes it. -/
theorem exportKind?_eq (flags : SymbolFlags) :
    exportKind? flags = describing.find? fun kind => meets flags (callingFor kind) := by
  simp only [exportKind?, describing, callingFor, List.find?_cons, List.find?_nil]
  repeat' split
  all_goals simp_all

/-- A declaration gives the flags that call for its own kind, and for no other. -/
theorem meets_symbolFlags {decl : Declaration} {kind : DeclKind} (fits : kind ∈ describing) :
    meets decl.symbolFlags (callingFor kind) = true ↔ decl.kind = kind := by
  simp only [describing, List.mem_cons, List.not_mem_nil, or_false] at fits
  unfold Declaration.symbolFlags
  rcases fits with rfl | rfl | rfl | rfl | rfl | rfl
  all_goals
    repeat' split
    all_goals simp_all
    all_goals decide

theorem meets_iff {width : Nat} {word mask : BitVec width} :
    meets word mask = true ↔ ∃ place, word.getLsbD place = true ∧ mask.getLsbD place = true := by
  simp only [meets, bne_iff_ne, ne_eq]
  constructor
  · intro different
    by_contra apart
    apply different
    apply BitVec.eq_of_getLsbD_eq
    intro place _
    simp only [not_exists, not_and, Bool.not_eq_true] at apart
    simpa using apart place
  · rintro ⟨place, one, other⟩ same
    have zero := congrArg (·.getLsbD place) same
    simp [one, other] at zero

theorem meets_unionFlags {decls : List Declaration} {mask : SymbolFlags} :
    meets (unionFlags decls) mask = true ↔ ∃ decl ∈ decls, meets decl.symbolFlags mask = true := by
  simp only [meets_iff, unionFlags, FlagWords.getLsbD_union, BitVec.ofNat_eq_ofNat,
    BitVec.getLsbD_zero, Bool.false_or, List.any_map, List.any_eq_true, Function.comp_apply]
  constructor
  · rintro ⟨place, ⟨decl, inside, one⟩, other⟩
    exact ⟨decl, inside, place, one, other⟩
  · rintro ⟨decl, inside, place, one, other⟩
    exact ⟨place, ⟨decl, inside, one⟩, other⟩

variable {program : Program} {target : SymbolId}

/-- The symbol has a declaration that can describe an export. -/
def Describable (program : Program) (target : SymbolId) : Prop :=
  ∃ symbol id decl, program.symbol target = .ok symbol ∧ id ∈ symbol.declarations ∧
    program.declaration id = .ok decl ∧ decl.kind ∈ describing

/-- The declarations of a bound symbol include one of each kind for which its flags call. -/
theorem exists_called {symbol : Symbol} {decls : List Declaration} {kind : DeclKind}
    (union : symbol.flags = unionFlags decls) (fits : kind ∈ describing) :
    meets symbol.flags (callingFor kind) = true ↔ ∃ decl ∈ decls, decl.kind = kind := by
  rw [union, meets_unionFlags]
  simp only [meets_symbolFlags fits]

/-- Where symbols are bound, their flags ask for no declaration that is missing. -/
theorem Bound.fits_iff (bound : Bound program) :
    Fits program (some target) ↔ Describable program target := by
  constructor
  · rintro ⟨_, symbol, kind, id, decl, ⟨⟩, found, chosen, listed, declared, rfl⟩
    rw [exportKind?_eq] at chosen
    exact ⟨symbol, id, decl, found, listed, declared, List.mem_of_find?_eq_some chosen⟩
  · rintro ⟨symbol, id, decl, found, listed, declared, fits⟩
    obtain ⟨decls, looked, union⟩ := bound.flags target symbol found
    have related := mapM_ok_iff.mp looked
    obtain ⟨same, inside, again⟩ := exists_related related.flip listed
    rw [declared] at again
    cases again
    have asked := (exists_called union fits).mpr ⟨decl, inside, rfl⟩
    -- A kind of higher rank may win, but then another declaration is of that kind.
    cases chosen : exportKind? symbol.flags with
    | none =>
      rw [exportKind?_eq] at chosen
      exact absurd asked (List.find?_eq_none.mp chosen decl.kind fits)
    | some kind =>
      have first := chosen
      rw [exportKind?_eq] at first
      have wins : meets symbol.flags (callingFor kind) = true := by
        simpa using List.find?_some first
      obtain ⟨winner, insideToo, ofKind⟩ :=
        (exists_called union (List.mem_of_find?_eq_some first)).mp wins
      obtain ⟨winnerId, listedToo, declaredToo⟩ := exists_related related insideToo
      exact ⟨target, symbol, kind, winnerId, winner, rfl, found, chosen, listedToo, declaredToo, ofKind⟩

end Kinds

section Exports

variable {program : Program} {options : Options} {names : List String} {docs : DocSet}

/-- In a bound program an export is unknown exactly if its chain of aliases leads nowhere or to a
symbol that nothing describes. -/
theorem Bound.unknown_iff (bound : Bound program) (returned : program.extract options names = .ok docs)
    (small : docs.size < UInt32.size) {module : SymbolId} {export_ : ResolvedExport} {place : Nat}
    {doc : ExportDoc} (made : MadeFor program options names docs module export_ place doc) :
    doc.kind = .unknown ↔
      (∀ target, ¬ Leads program export_.symbol target) ∨
        ∃ target, Leads program export_.symbol target ∧ ¬ Describable program target := by
  obtain ⟨description, described, _, same, _⟩ := made.described returned small
  obtain ⟨_, _, documents⟩ := made.reached
  have kind : doc.kind = description.placedKind (docAt place) := congrArg ExportDoc.kind same
  rw [kind, unknown_placedKind, ← not_ne_iff, form_known_iff described]
  simp only [← target_iff documents]
  cases aimed : export_.target with
  | none =>
    refine iff_of_true ?_ (.inl (by simp))
    rintro ⟨_, _, _, _, _, impossible, _⟩
    cases impossible
  | some target =>
    rw [bound.fits_iff]
    simp

/-- Calls of the builder with ids that are allocated by then, where new symbols have no flags, leave a
sound program whose symbols and declarations are bound to each other. The calls so far are such a
sequence too, so this holds after each of them. In the documents of the program an export is unknown
exactly if its chain of aliases leads nowhere or to a symbol without a declaration to describe it. -/
theorem buildAll_binds {calls : List Call} (allocated : Allocated {} calls)
    (plain : ∀ call ∈ calls, call.Fits (· = 0)) :
    ∃ program, (buildAll calls).run.run {} = (.ok (), program) ∧ program.check = .ok () ∧
      (program.declarations.size < UInt32.size → Bound program ∧
        ∀ options names docs, program.extract options names = .ok docs → docs.size < UInt32.size →
          (∀ (place : Nat) (doc : ExportDoc), docs.docs[place]? = some (.export_ doc) →
            ∃ module export_, MadeFor program options names docs module export_ place doc) ∧
          ∀ module export_ place doc, MadeFor program options names docs module export_ place doc →
            (doc.kind = .unknown ↔
              (∀ target, ¬ Leads program export_.symbol target) ∨
                ∃ target, Leads program export_.symbol target ∧ ¬ Describable program target)) := by
  obtain ⟨_, program, ran, edits, _⟩ : Runs (· = 0) {} (buildAll calls) fun _ _ => True :=
    buildAll_runs (by rfl) closed_empty plain allocated
  have closed := edited_closed edits closed_empty
  have accepted := check_of_parents closed (edited_parents edits parents_empty)
  refine ⟨program, ran, accepted, fun few => ?_⟩
  have bound := edited_bound edits few
  refine ⟨bound, fun options names docs returned small => ⟨?_, ?_⟩⟩
  · intro place doc found
    exact exists_madeFor returned small found
  · intro module export_ place doc made
    exact bound.unknown_iff returned small made

def sessionProgram : Program := ((buildAll session).run.run {}).2

def sessionDocs : DocSet := (sessionProgram.extract {} ["c.ts"]).toOption.getD {}

theorem buildAll_binds_session :
    Allocated {} session ∧ (∀ call ∈ session, call.Fits (· = 0)) ∧ Bound sessionProgram ∧
      sessionProgram.extract {} ["c.ts"] = .ok sessionDocs ∧
      ∃ module export_ doc, MadeFor sessionProgram {} ["c.ts"] sessionDocs module export_ 3 doc ∧
        doc.name = "E" ∧ doc.kind = .unknown ∧
        ((∀ target, ¬ Leads sessionProgram export_.symbol target) ∨
          ∃ target, Leads sessionProgram export_.symbol target ∧ ¬ Describable sessionProgram target) := by
  have allocated : Allocated {} session := by decide +kernel
  have plain : ∀ call ∈ session, call.Fits (· = 0) := by simp [session, Call.Fits]
  obtain ⟨program, ran, _, holds⟩ := buildAll_binds allocated plain
  obtain rfl : sessionProgram = program := congrArg Prod.snd ran
  have returned : sessionProgram.extract {} ["c.ts"] = .ok sessionDocs := by decide +kernel
  obtain ⟨doc, found, named, unknown⟩ : ∃ doc, sessionDocs.docs[3]? = some (.export_ doc) ∧
      doc.name = "E" ∧ doc.kind = .unknown :=
    ⟨(sessionDocs.exports[1]?).get (by decide +kernel), by decide +kernel, by decide +kernel,
      by decide +kernel⟩
  obtain ⟨bound, documents⟩ := holds (by decide +kernel)
  obtain ⟨exports, each⟩ := documents {} ["c.ts"] sessionDocs returned (by decide +kernel)
  obtain ⟨module, export_, made⟩ := exports 3 doc found
  exact ⟨allocated, plain, bound, returned, module, export_, doc, made, named, unknown,
    (each module export_ 3 doc made).mp unknown⟩

end Exports

end ApiDocs.Proofs.Bindings
