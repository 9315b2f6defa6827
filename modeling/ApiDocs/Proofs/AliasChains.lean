import ApiDocs.Proofs.Reexports
import ApiDocs.Proofs.References
import Mathlib.Logic.Relation
import Mathlib.Order.WellFounded

/-! Chains of aliases. A symbol stands for the one at the end of its chain if that is no alias, and
for none if the chain ends in an alias without a target or has no end. A walk that remembers none of
the symbols it meets, and gives up after as many look-ups as there are symbols, comes to the same. -/

namespace ApiDocs.Proofs.AliasChains

open Trails References Reexports

/-- The first symbol is an alias for the second. -/
def AliasFor (program : Program) (id next : SymbolId) : Prop :=
  ∃ symbol, program.symbol id = .ok symbol ∧ symbol.isAlias = true ∧ symbol.aliasOf = some next

/-- Aliases, followed any number of times, lead from the first symbol to the second. -/
def Reaches (program : Program) : SymbolId → SymbolId → Prop := Relation.ReflTransGen (AliasFor program)

/-- The symbol is no alias. -/
def Plain (program : Program) (id : SymbolId) : Prop :=
  ∃ symbol, program.symbol id = .ok symbol ∧ symbol.isAlias = false

/-- The symbol is an alias, but for no known symbol. -/
def Aimless (program : Program) (id : SymbolId) : Prop :=
  ∃ symbol, program.symbol id = .ok symbol ∧ symbol.isAlias = true ∧ symbol.aliasOf = none

/-- The chain from the symbol never leaves aliases. -/
def Endless (program : Program) (start : SymbolId) : Prop :=
  ∃ chain : Nat → SymbolId, chain 0 = start ∧ ∀ steps, AliasFor program (chain steps) (chain (steps + 1))

/-- Follows aliases with a limit on the number of look-ups and no memory of the symbols met. -/
def resolveWithin (program : Program) : Nat → SymbolId → Except Fault (Option SymbolId)
  | 0, _ => .ok none
  | limit + 1, id => do
    let symbol ← program.symbol id
    if symbol.isAlias then
      match symbol.aliasOf with
      | some next => resolveWithin program limit next
      | none => return none
    else return some id

/-- What a symbol stands for whose chain ends with this entry. -/
def meaning (final : SymbolId × Symbol) : Option SymbolId := if final.2.isAlias then none else some final.1

variable {program : Program} {id last : SymbolId} {symbol : Symbol} {steps : Nat}
  {final : SymbolId × Symbol}

section Ends

theorem standsFor_of_plain (own : symbol.isAlias = false) : standsFor symbol = .ok none := by
  simp [standsFor, own]

theorem standsFor_of_alias (alias_ : symbol.isAlias = true) : standsFor symbol = .ok symbol.aliasOf := by
  simp [standsFor, alias_]

theorem standsFor_of_aliasFor {next : SymbolId} (step : AliasFor program id next)
    (found : program.symbol id = .ok symbol) : standsFor symbol = .ok (some next) := by
  obtain ⟨again, foundAgain, alias_, named⟩ := step
  cases found.symm.trans foundAgain
  rw [standsFor_of_alias alias_, named]

theorem aliasFor_of_standsFor {next : SymbolId} (found : program.symbol id = .ok symbol)
    (led : standsFor symbol = .ok (some next)) : AliasFor program id next := by
  cases alias_ : symbol.isAlias with
  | false =>
    rw [standsFor_of_plain alias_] at led
    cases led
  | true =>
    rw [standsFor_of_alias alias_] at led
    exact ⟨symbol, found, alias_, Except.ok.inj led⟩

theorem ends_of_reaches (reaches : Reaches program id last) (found : program.symbol last = .ok symbol)
    (stops : standsFor symbol = .ok none) :
    ∃ steps, Ends program.symbolSource standsFor steps id (last, symbol) := by
  induction reaches using Relation.ReflTransGen.head_induction_on with
  | refl => exact ⟨0, .here found stops⟩
  | head step _ ih =>
    obtain ⟨steps, ends⟩ := ih
    have ⟨first, foundFirst, _⟩ := step
    exact ⟨steps + 1, .link foundFirst (standsFor_of_aliasFor step foundFirst) ends⟩

theorem reaches_of_ends (ends : Ends program.symbolSource standsFor steps id final) :
    Reaches program id final.1 ∧ (Plain program final.1 ∨ Aimless program final.1) := by
  induction ends with
  | @here id symbol found stops =>
    refine ⟨.refl, ?_⟩
    cases alias_ : symbol.isAlias with
    | false => exact .inl ⟨symbol, found, alias_⟩
    | true =>
      rw [standsFor_of_alias alias_] at stops
      exact .inr ⟨symbol, found, alias_, Except.ok.inj stops⟩
  | link found led _ ih => exact ⟨.head (aliasFor_of_standsFor found led) ih.1, ih.2⟩

theorem Endless.next (endless : Endless program id) :
    ∃ next, AliasFor program id next ∧ Endless program next := by
  obtain ⟨chain, rfl, links⟩ := endless
  exact ⟨chain 1, links 0, fun steps => chain (steps + 1), rfl, fun steps => links (steps + 1)⟩

/-- A chain with an end is not one without: it would lead past its last entry. -/
theorem not_endless_of_ends (ends : Ends program.symbolSource standsFor steps id final) :
    ¬ Endless program id := by
  induction ends with
  | here found stops =>
    intro endless
    obtain ⟨next, step, _⟩ := endless.next
    cases (standsFor_of_aliasFor step found).symm.trans stops
  | link found led _ ih =>
    intro endless
    obtain ⟨next, step, rest⟩ := endless.next
    cases (standsFor_of_aliasFor step found).symm.trans led
    exact ih rest

theorem endless_iff : Endless program id ↔ ¬ Acc (Function.swap (AliasFor program)) id :=
  (not_acc_iff_exists_descending_chain (r := Function.swap (AliasFor program)) (x := id)).symm

/-- In a sound program a chain has an end or goes on for ever: it does not lead out of the table. -/
theorem ends_or_endless (closed : Closed program) (held : program.holds (.symbol id)) :
    (∃ steps final, Ends program.symbolSource standsFor steps id final) ∨ Endless program id := by
  by_cases finite : Acc (Function.swap (AliasFor program)) id
  · left
    induction finite with
    | intro id _ ih =>
      obtain ⟨symbol, found, inside⟩ := symbol_returns closed held
      cases led : symbol.isAlias with
      | false => exact ⟨0, _, .here found (standsFor_of_plain led)⟩
      | true =>
        have aim := inside.aliasOf
        cases named : symbol.aliasOf with
        | none => exact ⟨0, _, .here found (by rw [standsFor_of_alias led, named])⟩
        | some next =>
          rw [named, targetHeld_some] at aim
          obtain ⟨steps, final, ends⟩ := ih next ⟨symbol, found, led, named⟩ aim
          exact ⟨steps + 1, final, .link found (by rw [standsFor_of_alias led, named]) ends⟩
  · exact .inr (endless_iff.mpr finite)

theorem acc_of_reaches (finite : Acc (Function.swap (AliasFor program)) id)
    (leads : Reaches program id last) : Acc (Function.swap (AliasFor program)) last := by
  induction leads with
  | refl => exact finite
  | tail _ step ih => exact ih.inv step

theorem not_cycle_of_acc (finite : Acc (Function.swap (AliasFor program)) id) :
    ¬ Relation.TransGen (AliasFor program) id id := by
  rw [← Relation.transGen_swap]
  replace finite := finite.transGen
  induction finite with
  | intro id _ ih => exact fun round => ih id round round

/-- A chain that leads into a cycle, after a tail of any length, has no end. -/
theorem endless_of_cycle (leads : Reaches program id last)
    (cycle : Relation.TransGen (AliasFor program) last last) : Endless program id :=
  endless_iff.mpr fun finite => not_cycle_of_acc (acc_of_reaches finite leads) cycle

end Ends

section Walks

theorem resolveAlias_of_ends (ends : Ends program.symbolSource standsFor steps id final) :
    program.resolveAlias id = .ok (meaning final) := by
  obtain ⟨chain, followed, reached⟩ := follow_of_ends ends [] (by simp)
  refine bind_ok_iff.mpr ⟨chain, followed, ?_⟩
  rw [reached]
  rfl

theorem resolveAlias_of_endless (closed : Closed program) (held : program.holds (.symbol id))
    (endless : Endless program id) : program.resolveAlias id = .ok none := by
  obtain ⟨target, resolved, _⟩ := resolveAlias_returns closed held
  cases target with
  | none => exact resolved
  | some target =>
    obtain ⟨steps, symbol, ends, _⟩ := (resolveAlias_some_iff.mp resolved).ends
    exact absurd endless (not_endless_of_ends ends)

theorem resolveWithin_of_aliasFor {next : SymbolId} (step : AliasFor program id next) (limit : Nat) :
    resolveWithin program (limit + 1) id = resolveWithin program limit next := by
  obtain ⟨symbol, found, alias_, named⟩ := step
  rw [resolveWithin, found]
  simp only [alias_, named, bind, Except.bind, if_true]

/-- Enough look-ups for the steps to the end find what is there. -/
theorem resolveWithin_of_ends (ends : Ends program.symbolSource standsFor steps id final) {limit : Nat}
    (enough : steps < limit) : resolveWithin program limit id = .ok (meaning final) := by
  induction ends generalizing limit with
  | @here id symbol found stops =>
    obtain ⟨limit, rfl⟩ := Nat.exists_eq_add_of_lt enough
    rw [resolveWithin, show program.symbol id = .ok symbol from found]
    cases alias_ : symbol.isAlias with
    | false => simp [meaning, alias_, bind, Except.bind, pure, Except.pure]
    | true =>
      rw [standsFor_of_alias alias_] at stops
      simp [meaning, alias_, Except.ok.inj stops, bind, Except.bind, pure, Except.pure]
  | link found led _ ih =>
    obtain ⟨fewer, rfl⟩ : ∃ fewer, limit = fewer + 1 := ⟨limit - 1, by omega⟩
    rw [resolveWithin_of_aliasFor (aliasFor_of_standsFor found led)]
    exact ih (by omega)

theorem resolveWithin_of_endless (endless : Endless program id) (limit : Nat) :
    resolveWithin program limit id = .ok none := by
  induction limit generalizing id with
  | zero => rfl
  | succ limit ih =>
    obtain ⟨next, step, rest⟩ := endless.next
    rw [resolveWithin_of_aliasFor step]
    exact ih rest

/-- As many look-ups as there are symbols are enough. -/
theorem resolveWithin_eq (closed : Closed program) (held : program.holds (.symbol id)) {limit : Nat}
    (enough : program.symbols.size ≤ limit) : resolveWithin program limit id = program.resolveAlias id := by
  rcases ends_or_endless closed held with ⟨steps, final, ends⟩ | endless
  · have few := ends.steps_lt
    simp only [Program.symbolSource, Program.symbolIds, List.length_map, List.length_range] at few
    rw [resolveAlias_of_ends ends, resolveWithin_of_ends ends (Nat.lt_of_lt_of_le few enough)]
  · rw [resolveAlias_of_endless closed held endless, resolveWithin_of_endless endless]

end Walks

section Resolution

theorem resolveAlias_of_plain (reaches : Reaches program id last) (plain : Plain program last) :
    program.resolveAlias id = .ok (some last) := by
  obtain ⟨symbol, found, own⟩ := plain
  obtain ⟨steps, ends⟩ := ends_of_reaches reaches found (standsFor_of_plain own)
  rw [resolveAlias_of_ends ends]
  simp [meaning, own]

theorem resolveAlias_of_aimless (reaches : Reaches program id last) (aimless : Aimless program last) :
    program.resolveAlias id = .ok none := by
  obtain ⟨symbol, found, alias_, unnamed⟩ := aimless
  obtain ⟨steps, ends⟩ := ends_of_reaches reaches found (by rw [standsFor_of_alias alias_, unnamed])
  rw [resolveAlias_of_ends ends]
  simp [meaning, alias_]

/-- All that can become of a symbol. -/
theorem resolveAlias_cases (closed : Closed program) (held : program.holds (.symbol id)) :
    (∃ last, Reaches program id last ∧ Plain program last ∧ program.resolveAlias id = .ok (some last)) ∨
      ((∃ last, Reaches program id last ∧ Aimless program last) ∨ Endless program id) ∧
        program.resolveAlias id = .ok none := by
  rcases ends_or_endless closed held with ⟨steps, final, ends⟩ | endless
  · obtain ⟨reaches, plain | aimless⟩ := reaches_of_ends ends
    · exact .inl ⟨final.1, reaches, plain, resolveAlias_of_plain reaches plain⟩
    · exact .inr ⟨.inl ⟨final.1, reaches, aimless⟩, resolveAlias_of_aimless reaches aimless⟩
  · exact .inr ⟨.inr endless, resolveAlias_of_endless closed held endless⟩

/-- A symbol stands for another if and only if that one is no alias and the chain of aliases leads to it,
however long it is. It stands for none if and only if the chain leads to an alias without a target or
never leaves aliases, as every chain does that leads into a cycle. A walk without memory finds the same
with as many look-ups as there are symbols, or more. -/
theorem resolveAlias_exact (accepted : program.check = .ok ()) (held : program.holds (.symbol id)) :
    (∃ target, program.resolveAlias id = .ok target) ∧
      (∀ target, program.resolveAlias id = .ok (some target) ↔
        Plain program target ∧ Reaches program id target) ∧
      (program.resolveAlias id = .ok none ↔
        (∃ last, Reaches program id last ∧ Aimless program last) ∨ Endless program id) ∧
      (∀ member, Reaches program id member → Relation.TransGen (AliasFor program) member member →
        program.resolveAlias id = .ok none) ∧
      ∀ limit, program.symbols.size ≤ limit → resolveWithin program limit id = program.resolveAlias id := by
  have closed := closed_of_check accepted
  refine ⟨?_, fun target => ⟨fun resolved => ?_, fun ⟨plain, reaches⟩ => resolveAlias_of_plain reaches plain⟩,
    ⟨fun unresolved => ?_, ?_⟩, fun member leads cycle => ?_, fun limit => resolveWithin_eq closed held⟩
  · obtain ⟨target, resolved, _⟩ := resolveAlias_returns closed held
    exact ⟨target, resolved⟩
  · obtain ⟨last, reaches, plain, same⟩ | ⟨_, none⟩ := resolveAlias_cases closed held
    · cases same.symm.trans resolved
      exact ⟨plain, reaches⟩
    · cases none.symm.trans resolved
  · obtain ⟨_, _, _, some⟩ | ⟨why, _⟩ := resolveAlias_cases closed held
    · cases some.symm.trans unresolved
    · exact why
  · rintro (⟨last, reaches, aimless⟩ | endless)
    · exact resolveAlias_of_aimless reaches aimless
    · exact resolveAlias_of_endless closed held endless
  · exact resolveAlias_of_endless closed held (endless_of_cycle leads cycle)

/-- A chain of aliases through all symbols but one, which is a class. -/
def relay : Program where
  symbols := #[
    { name := "A", flags := SymbolFlags.alias_, aliasOf := some ⟨2⟩ },
    { name := "C", flags := SymbolFlags.class_ },
    { name := "B", flags := SymbolFlags.alias_, aliasOf := some ⟨1⟩ }]

/-- Two aliases for each other, and a third that leads to them. -/
def eddy : Program where
  symbols := #[
    { name := "in", flags := SymbolFlags.alias_, aliasOf := some ⟨1⟩ },
    { name := "left", flags := SymbolFlags.alias_, aliasOf := some ⟨2⟩ },
    { name := "right", flags := SymbolFlags.alias_, aliasOf := some ⟨1⟩ }]

/-- The chain through every symbol resolves with three look-ups, and the one into the cycle does not. -/
theorem resolveAlias_exact_relay :
    (relay.check = .ok () ∧ relay.holds (.symbol ⟨0⟩) ∧ relay.resolveAlias ⟨0⟩ = .ok (some ⟨1⟩) ∧
      resolveWithin relay 3 ⟨0⟩ = .ok (some ⟨1⟩)) ∧
    eddy.check = .ok () ∧ eddy.holds (.symbol ⟨0⟩) ∧ eddy.resolveAlias ⟨0⟩ = .ok none := by
  have accepted : relay.check = .ok () := by decide +kernel
  have held : relay.holds (.symbol ⟨0⟩) := by decide
  have first : AliasFor relay ⟨0⟩ ⟨2⟩ := ⟨_, rfl, by decide, rfl⟩
  have second : AliasFor relay ⟨2⟩ ⟨1⟩ := ⟨_, rfl, by decide, rfl⟩
  have plain : Plain relay ⟨1⟩ := ⟨_, rfl, by decide⟩
  obtain ⟨_, resolves, _, _, within⟩ := resolveAlias_exact accepted held
  have resolved := (resolves ⟨1⟩).mpr ⟨plain, .tail (.single first) second⟩
  have acceptedToo : eddy.check = .ok () := by decide +kernel
  have heldToo : eddy.holds (.symbol ⟨0⟩) := by decide
  have enters : AliasFor eddy ⟨0⟩ ⟨1⟩ := ⟨_, rfl, by decide, rfl⟩
  have across : AliasFor eddy ⟨1⟩ ⟨2⟩ := ⟨_, rfl, by decide, rfl⟩
  have back : AliasFor eddy ⟨2⟩ ⟨1⟩ := ⟨_, rfl, by decide, rfl⟩
  obtain ⟨_, _, _, cyclic, _⟩ := resolveAlias_exact acceptedToo heldToo
  exact ⟨⟨accepted, held, resolved, (within 3 (by decide)).trans resolved⟩, acceptedToo, heldToo,
    cyclic ⟨1⟩ (.single enters) (.tail (.single across) back)⟩

end Resolution

end ApiDocs.Proofs.AliasChains
