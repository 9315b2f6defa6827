import ApiDocs.Proofs.References
import Mathlib.Data.List.Chain

/-! Descent through namespaces. From a symbol that exports nothing and is declared once, as a namespace
with a body, the descent goes on to the body. It never comes back to a symbol, and it does not pass one
that exports something. -/

namespace ApiDocs.Proofs.NamespaceDescent

open References Trails

def Exporting (program : Program) (id : SymbolId) : Prop :=
  ∃ symbol, program.symbol id = .ok symbol ∧ symbol.exports ≠ []

instance (program : Program) (id : SymbolId) : Decidable (Exporting program id) :=
  match found : program.symbol id with
  | .ok symbol => decidable_of_iff (symbol.exports ≠ []) (by simp [Exporting, found])
  | .error _ => isFalse (by simp [Exporting, found])

/-- The symbol is declared once, as a namespace with this body. -/
def SoleBody (program : Program) (id body : SymbolId) : Prop :=
  ∃ symbol only decl, program.symbol id = .ok symbol ∧ symbol.declarations = [only] ∧
    program.declaration only = .ok decl ∧ decl.kind = .namespace_ ∧ decl.body = some body

/-- The symbol exports nothing and has no content but this body. -/
def Wraps (program : Program) (id body : SymbolId) : Prop :=
  ¬ Exporting program id ∧ SoleBody program id body

/-- The way from one symbol to another through symbols that are all different, each the body of the one
before, none but the last with exports. The last one exports something, or has no body of its own, or
has one that lies on the way. -/
structure Descent (program : Program) (start last : SymbolId) (path : List SymbolId) : Prop where
  starts : path.head? = some start
  ends : path.getLast? = some last
  distinct : path.Nodup
  linked : path.IsChain (Wraps program)
  stops : Exporting program last ∨ (∀ body, ¬ SoleBody program last body) ∨
    ∃ body ∈ path, SoleBody program last body

variable {program : Program} {id start last body : SymbolId} {symbol : Symbol}

section Steps

theorem exporting_iff (found : program.symbol id = .ok symbol) :
    Exporting program id ↔ symbol.exports ≠ [] := by
  constructor
  · rintro ⟨again, foundAgain, exports⟩
    cases found.symm.trans foundAgain
    exact exports
  · exact fun exports => ⟨symbol, found, exports⟩

theorem soleBody_some_iff (found : program.symbol id = .ok symbol) :
    program.soleBody symbol = .ok (some body) ↔ Wraps program id body := by
  unfold Wraps SoleBody
  rw [exporting_iff found]
  constructor
  · intro led
    unfold Program.soleBody at led
    split at led
    next only silent single =>
      obtain ⟨decl, known, made⟩ := bind_ok_iff.mp led
      obtain ⟨kind, named⟩ : decl.kind = .namespace_ ∧ decl.body = some body := by
        simpa [pure, Except.pure] using made
      exact ⟨not_not.mpr silent, symbol, only, decl, found, single, known, kind, named⟩
    · cases led
  · rintro ⟨silent, again, only, decl, foundAgain, single, known, kind, named⟩
    cases found.symm.trans foundAgain
    simp [Program.soleBody, not_not.mp silent, single, known, kind, named, bind, Except.bind, pure,
      Except.pure]

theorem soleBody_none_iff (closed : Closed program) (held : program.holds (.symbol id))
    (found : program.symbol id = .ok symbol) :
    program.soleBody symbol = .ok none ↔ ∀ body, ¬ Wraps program id body := by
  obtain ⟨again, foundAgain, inside⟩ := symbol_returns closed held
  cases found.symm.trans foundAgain
  obtain ⟨target, led, _⟩ := soleBody_returns closed inside
  constructor
  · intro none body wraps
    cases none.symm.trans ((soleBody_some_iff found).mpr wraps)
  · intro none
    cases target with
    | none => exact led
    | some body => exact absurd ((soleBody_some_iff found).mp led) (none body)

/-- The three reasons to stop come down to two: there is nothing to go on to, or it was met before. -/
theorem stops_iff {path : List SymbolId} :
    (Exporting program last ∨ (∀ body, ¬ SoleBody program last body) ∨
        ∃ body ∈ path, SoleBody program last body) ↔
      (∀ body, ¬ Wraps program last body) ∨ ∃ body ∈ path, Wraps program last body := by
  by_cases exports : Exporting program last
  · exact iff_of_true (.inl exports) (.inl fun _ wraps => wraps.1 exports)
  · simp [Wraps, exports]

theorem held_of_wraps (closed : Closed program) (wraps : Wraps program id body) :
    program.holds (.symbol body) := by
  obtain ⟨_, symbol, only, decl, found, single, known, _, named⟩ := wraps
  have stored : Reference.symbol body ∈ decl.references := by simp [Declaration.references, named]
  refine closed _ (mem_references.mpr (.inr (.inr ⟨decl, ?_, stored⟩)))
  exact Array.mem_of_getElem? (declaration_ok_iff.mp known)

end Steps

section Paths

/-- A trail of bodies is a descent through its ids. -/
theorem visits_iff_descent (closed : Closed program) {chain : List (SymbolId × Symbol)}
    (found : ∀ pair ∈ chain, program.holds (.symbol pair.1) ∧ program.symbol pair.1 = .ok pair.2) :
    Visits program.symbolSource program.soleBody [] start chain ↔
      ∃ last, Descent program start last (chain.map Prod.fst) := by
  have linked : (chain.IsChain fun pair following => program.soleBody pair.2 = .ok (some following.1)) ↔
      (chain.map Prod.fst).IsChain (Wraps program) := by
    rw [List.isChain_map]
    exact List.IsChain.iff_of_mem_imp fun pair following member _ => soleBody_some_iff (found pair member).2
  have stops : ∀ last ∈ chain, (program.soleBody last.2 = .ok none ∨
      ∃ met ∈ chain.map Prod.fst, program.soleBody last.2 = .ok (some met)) ↔
      (Exporting program last.1 ∨ (∀ body, ¬ SoleBody program last.1 body) ∨
        ∃ body ∈ chain.map Prod.fst, SoleBody program last.1 body) := by
    intro last member
    obtain ⟨held, known⟩ := found last member
    rw [stops_iff, soleBody_none_iff closed held known]
    simp only [soleBody_some_iff known]
  constructor
  · intro visits
    cases ended : chain.getLast? with
    | none =>
      rw [List.getLast?_eq_none_iff.mp ended] at visits
      cases visits.starts
    | some last =>
      have stopped := visits.stops last ended
      rw [List.append_nil, stops last (List.mem_of_getLast? ended)] at stopped
      exact ⟨last.1, visits.starts, by simp [ended], visits.distinct, linked.mp visits.linked, stopped⟩
  · rintro ⟨last, descent⟩
    refine ⟨descent.starts, fun pair member => (found pair member).2, linked.mpr descent.linked,
      descent.distinct, by simp, fun pair ended => ?_⟩
    obtain rfl : pair.1 = last := by
      have reached := descent.ends
      rw [List.getLast?_map, ended] at reached
      exact Option.some.inj reached
    rw [List.append_nil, stops pair (List.mem_of_getLast? ended)]
    exact descent.stops

/-- Ids that can be looked up stand on a list with their entries. -/
theorem exists_entries (closed : Closed program) {path : List SymbolId} (held : SymbolsHeld program path) :
    ∃ chain : List (SymbolId × Symbol), chain.map Prod.fst = path ∧
      ∀ pair ∈ chain, program.holds (.symbol pair.1) ∧ program.symbol pair.1 = .ok pair.2 := by
  induction path with
  | nil => exact ⟨[], rfl, by simp⟩
  | cons id path ih =>
    obtain ⟨chain, rfl, found⟩ := ih fun other member => held other (List.mem_cons_of_mem _ member)
    obtain ⟨symbol, known, _⟩ := symbol_returns closed (held id List.mem_cons_self)
    exact ⟨(id, symbol) :: chain, rfl, List.forall_mem_cons.mpr ⟨⟨held id List.mem_cons_self, known⟩, found⟩⟩

theorem Descent.held (closed : Closed program) (held : program.holds (.symbol start)) {path : List SymbolId}
    (descent : Descent program start last path) : SymbolsHeld program path := by
  refine descent.linked.induction _ _ (fun _ _ wraps _ => held_of_wraps closed wraps) fun nonempty => ?_
  obtain rfl : path.head nonempty = start := by
    have begins := descent.starts
    rw [List.head?_eq_some_head nonempty] at begins
    exact Option.some.inj begins
  exact held

theorem closestExporting_of_descent (closed : Closed program) (held : program.holds (.symbol start))
    {path : List SymbolId} (descent : Descent program start last path) :
    program.closestExporting start = .ok last := by
  obtain ⟨chain, rfl, found⟩ := exists_entries closed (descent.held closed held)
  have visits := (visits_iff_descent closed found).mpr ⟨last, descent⟩
  refine bind_ok_iff.mpr ⟨chain, follow_ok_iff.mpr visits, ?_⟩
  have reached := descent.ends
  rw [List.getLast?_map] at reached
  simp [reached, pure, Except.pure]

theorem exists_descent (closed : Closed program) (held : program.holds (.symbol start)) :
    ∃ last path, Descent program start last path := by
  obtain ⟨chain, followed, all⟩ := trail_returns closed (fun _ => soleBody_returns closed) held
  have visits := follow_ok_iff.mp followed
  have found : ∀ pair ∈ chain, program.holds (.symbol pair.1) ∧ program.symbol pair.1 = .ok pair.2 :=
    fun pair member => ⟨(all pair member).1, visits.found pair member⟩
  obtain ⟨last, descent⟩ := (visits_iff_descent closed found).mp visits
  exact ⟨last, _, descent⟩

/-- Bodies, up to the first symbol that exports something. -/
theorem isChain_wraps {before : List SymbolId} (linked : (before ++ [last]).IsChain (SoleBody program))
    (silent : ∀ id ∈ before, ¬ Exporting program id) : (before ++ [last]).IsChain (Wraps program) := by
  induction before with
  | nil => exact .singleton last
  | cons id before ih =>
    rw [List.cons_append, List.isChain_cons] at linked ⊢
    refine ⟨fun next follows => ⟨silent id List.mem_cons_self, linked.1 next follows⟩, ?_⟩
    exact ih linked.2 fun other member => silent other (List.mem_cons_of_mem _ member)

theorem descent_of_find? {path : List SymbolId} (starts : path.head? = some start) (distinct : path.Nodup)
    (linked : path.IsChain (SoleBody program)) (first : path.find? (Exporting program ·) = some last) :
    ∃ before, Descent program start last (before ++ [last]) := by
  obtain ⟨exports, before, after, rfl, silent⟩ := List.find?_eq_some_iff_append.mp first
  rw [List.append_cons] at distinct linked
  refine ⟨before, ?_, by simp, distinct.sublist (List.sublist_append_left _ _),
    isChain_wraps (List.isChain_append.mp linked).1 (by simpa using silent), .inl (of_decide_eq_true exports)⟩
  cases before with
  | nil => exact starts
  | cons => exact starts

/-- The descent from a symbol always ends, with the last symbol on a way that meets no symbol twice and
goes on for as long as it can; there is only one such way. If symbols that are each the body of the one
before lead to one that exports something, the descent ends with the first that does. -/
theorem closestExporting_exact (accepted : program.check = .ok ()) (held : program.holds (.symbol start)) :
    (∃ last path, program.closestExporting start = .ok last ∧ Descent program start last path) ∧
      (∀ last path, Descent program start last path → program.closestExporting start = .ok last) ∧
      ∀ path : List SymbolId, path.head? = some start → path.Nodup → path.IsChain (SoleBody program) →
        ∀ first, path.find? (Exporting program ·) = some first →
          program.closestExporting start = .ok first := by
  have closed := closed_of_check accepted
  refine ⟨?_, fun last path => closestExporting_of_descent closed held, ?_⟩
  · obtain ⟨last, path, descent⟩ := exists_descent closed held
    exact ⟨last, path, closestExporting_of_descent closed held descent, descent⟩
  · intro path starts distinct linked first exports
    obtain ⟨before, descent⟩ := descent_of_find? starts distinct linked exports
    exact closestExporting_of_descent closed held descent

/-- The namespaces `outer.middle.inner`, of which `middle` exports `inner` and `inner` a class. -/
def nested : Program where
  files := #[{ name := "a.ts" }]
  symbols := #[
    { name := "outer", flags := SymbolFlags.namespaceModule, declarations := [⟨0⟩] },
    { name := "middle", flags := SymbolFlags.namespaceModule, declarations := [⟨1⟩], exports := [⟨2⟩] },
    { name := "inner", flags := SymbolFlags.namespaceModule, declarations := [⟨2⟩], exports := [⟨3⟩] },
    { name := "C", flags := SymbolFlags.class_ }]
  declarations := #[
    { kind := .namespace_, file := ⟨0⟩, name := "outer", body := some ⟨1⟩ },
    { kind := .namespace_, file := ⟨0⟩, name := "middle", body := some ⟨2⟩ },
    { kind := .namespace_, file := ⟨0⟩, name := "inner" }]

/-- Two namespaces that are each other's bodies. -/
def facing : Program where
  files := #[{ name := "a.ts" }]
  symbols := #[
    { name := "left", flags := SymbolFlags.namespaceModule, declarations := [⟨0⟩] },
    { name := "right", flags := SymbolFlags.namespaceModule, declarations := [⟨1⟩] }]
  declarations := #[
    { kind := .namespace_, file := ⟨0⟩, name := "left", body := some ⟨1⟩ },
    { kind := .namespace_, file := ⟨0⟩, name := "right", body := some ⟨0⟩ }]

/-- The descent ends with the first symbol that exports something, also if its body does so too, and with
the last new one if bodies go round in a circle. -/
theorem closestExporting_exact_nested :
    (nested.check = .ok () ∧ nested.holds (.symbol ⟨0⟩) ∧ nested.closestExporting ⟨0⟩ = .ok ⟨1⟩) ∧
      facing.check = .ok () ∧ facing.holds (.symbol ⟨0⟩) ∧ facing.closestExporting ⟨0⟩ = .ok ⟨1⟩ := by
  have accepted : nested.check = .ok () := by decide +kernel
  have held : nested.holds (.symbol ⟨0⟩) := by decide
  have outer : SoleBody nested ⟨0⟩ ⟨1⟩ := ⟨_, _, _, rfl, rfl, rfl, rfl, rfl⟩
  have middle : SoleBody nested ⟨1⟩ ⟨2⟩ := ⟨_, _, _, rfl, rfl, rfl, rfl, rfl⟩
  have bodies : [⟨0⟩, ⟨1⟩, ⟨2⟩].IsChain (SoleBody nested) := .cons_cons outer (.cons_cons middle (.singleton _))
  obtain ⟨_, _, first⟩ := closestExporting_exact accepted held
  have acceptedToo : facing.check = .ok () := by decide +kernel
  have heldToo : facing.holds (.symbol ⟨0⟩) := by decide
  have left : Wraps facing ⟨0⟩ ⟨1⟩ := ⟨by decide, _, _, _, rfl, rfl, rfl, rfl, rfl⟩
  have right : SoleBody facing ⟨1⟩ ⟨0⟩ := ⟨_, _, _, rfl, rfl, rfl, rfl, rfl⟩
  obtain ⟨_, only, _⟩ := closestExporting_exact acceptedToo heldToo
  exact ⟨⟨accepted, held, first _ rfl (by decide) bodies ⟨1⟩ (by decide)⟩, acceptedToo, heldToo,
    only ⟨1⟩ [⟨0⟩, ⟨1⟩]
      ⟨rfl, rfl, by decide, .cons_cons left (.singleton _), .inr (.inr ⟨⟨0⟩, by simp, right⟩)⟩⟩

end Paths

end ApiDocs.Proofs.NamespaceDescent
