import ApiDocs.Proofs.References
import Mathlib.Data.Finset.Card
import Mathlib.Logic.Relation

/-! Chains of parents. A chain with more steps than there are symbols meets a symbol twice and goes
round for ever, so the check finds exactly the chains without an end. It names the first symbol with
such a chain, which leads into a cycle but need not lie on it. -/

namespace ApiDocs.Proofs.ParentChains

open References

variable {program : Program} {start last : SymbolId} {steps : Nat}

def HasParent (program : Program) (child parent : SymbolId) : Prop := program.parent? child = some parent

/-- Parents, followed one or more times, lead from the first symbol to the second. -/
def Ancestor (program : Program) : SymbolId → SymbolId → Prop := Relation.TransGen (HasParent program)

/-- The chain of parents from the symbol goes on for ever. -/
def Endless (program : Program) (start : SymbolId) : Prop :=
  ∃ chain : Nat → SymbolId, chain 0 = start ∧ ∀ steps, HasParent program (chain steps) (chain (steps + 1))

section Steps

theorem ancestor?_add (first second : Nat) (start : SymbolId) :
    program.ancestor? (first + second) start = program.ancestor? first start >>= program.ancestor? second := by
  induction first generalizing start with
  | zero =>
    rw [Nat.zero_add]
    rfl
  | succ first ih =>
    rw [Nat.succ_add, Program.ancestor?, Program.ancestor?, bind_assoc]
    exact congrArg _ (funext ih)

theorem ancestor?_succ (steps : Nat) (start : SymbolId) :
    program.ancestor? (steps + 1) start = program.ancestor? steps start >>= program.parent? := by
  have single : program.ancestor? 1 = program.parent? := by
    funext id
    exact bind_pure (program.parent? id)
  rw [ancestor?_add, single]

theorem ancestor_of_ancestor? (reached : program.ancestor? (steps + 1) start = some last) :
    Ancestor program start last := by
  induction steps generalizing last with
  | zero =>
    rw [ancestor?_succ] at reached
    exact .single reached
  | succ steps ih =>
    rw [ancestor?_succ] at reached
    obtain ⟨middle, before, named⟩ := Option.bind_eq_some_iff.mp reached
    exact (ih before).tail named

theorem listed_of_hasParent {child parent : SymbolId} (named : HasParent program child parent) :
    child ∈ program.symbolIds := by
  obtain ⟨symbol, found, _⟩ := Option.bind_eq_some_iff.mp named
  exact Program.mem_symbolIds (symbol_ok_iff.mpr found)

theorem listed_before {total : Nat} (reached : (program.ancestor? total start).isSome)
    (before : steps < total) : ∃ id ∈ program.symbolIds, program.ancestor? steps start = some id := by
  obtain ⟨last, reached⟩ := Option.isSome_iff_exists.mp reached
  obtain ⟨rest, rfl⟩ := Nat.exists_eq_add_of_lt before
  rw [Nat.add_assoc, ancestor?_add] at reached
  obtain ⟨id, here, onward⟩ := Option.bind_eq_some_iff.mp reached
  obtain ⟨parent, named, _⟩ := Option.bind_eq_some_iff.mp onward
  exact ⟨id, listed_of_hasParent named, here⟩

end Steps

section Cycles

/-- With more steps than there are symbols, some symbol is met twice. -/
theorem repeats_of_long (long : (program.ancestor? (program.symbols.size + 1) start).isSome) :
    ∃ first period met, program.ancestor? first start = some met ∧
      program.ancestor? (period + 1) met = some met := by
  have inside : ∀ steps ∈ Finset.range (program.symbols.size + 1),
      program.ancestor? steps start ∈ (program.symbolIds.map some).toFinset := by
    intro steps few
    obtain ⟨id, listed, reached⟩ := listed_before long (Finset.mem_range.mp few)
    rw [reached, List.mem_toFinset]
    exact List.mem_map_of_mem listed
  have fewer : (program.symbolIds.map some).toFinset.card <
      (Finset.range (program.symbols.size + 1)).card := by
    have bound := List.toFinset_card_le (program.symbolIds.map some)
    simp only [Program.symbolIds, List.length_map, List.length_range] at bound
    rw [Finset.card_range]
    exact Nat.lt_succ_of_le bound
  obtain ⟨early, late, before, few, same⟩ : ∃ early late, early < late ∧
      late ∈ Finset.range (program.symbols.size + 1) ∧
      program.ancestor? early start = program.ancestor? late start := by
    obtain ⟨one, few, other, fewToo, different, same⟩ :=
      Finset.exists_ne_map_eq_of_card_lt_of_maps_to fewer inside
    rcases Nat.lt_or_gt_of_ne different with before | behind
    · exact ⟨one, other, before, fewToo, same⟩
    · exact ⟨other, one, behind, few, same.symm⟩
  obtain ⟨met, _, reached⟩ := listed_before long (Finset.mem_range.mp few)
  obtain ⟨period, rfl⟩ := Nat.exists_eq_add_of_lt before
  rw [reached] at same
  rw [Nat.add_assoc, ancestor?_add, same] at reached
  exact ⟨early, period, met, same, reached⟩

theorem cycle_of_long (long : (program.ancestor? (program.symbols.size + 1) start).isSome) :
    ∃ member, Ancestor program start member ∧ Ancestor program member member := by
  obtain ⟨first, period, met, reached, returns⟩ := repeats_of_long long
  have again : program.ancestor? (first + period + 1) start = some met := by
    rw [Nat.add_assoc, ancestor?_add, reached]
    exact returns
  exact ⟨met, ancestor_of_ancestor? again, ancestor_of_ancestor? returns⟩

/-- Whoever has an ancestor on a cycle has ancestors at every distance. -/
theorem ancestor?_of_cycle {member : SymbolId} (cycle : Ancestor program member member)
    (leads : Ancestor program start member) (steps : Nat) : (program.ancestor? steps start).isSome := by
  induction steps generalizing start with
  | zero => rfl
  | succ steps ih =>
    obtain ⟨parent, named, rest⟩ := Relation.TransGen.head'_iff.mp leads
    have onward := ih (Relation.TransGen.trans_right rest cycle)
    rw [Program.ancestor?, show program.parent? start = some parent from named]
    exact onward

theorem endless_iff : Endless program start ↔ ∀ steps, (program.ancestor? steps start).isSome := by
  constructor
  · intro ⟨chain, begins, named⟩ steps
    have reached : program.ancestor? steps start = some (chain steps) := by
      induction steps with
      | zero => exact congrArg some begins.symm
      | succ steps ih =>
        rw [ancestor?_succ, ih]
        exact named steps
    simp [reached]
  · intro reached
    choose chain found using fun steps => Option.isSome_iff_exists.mp (reached steps)
    refine ⟨chain, (Option.some.inj (found 0)).symm, fun steps => ?_⟩
    have onward := found (steps + 1)
    rwa [ancestor?_succ, found steps] at onward

theorem cycle_of_endless (endless : Endless program start) :
    ∃ member, Ancestor program start member ∧ Ancestor program member member :=
  cycle_of_long (endless_iff.mp endless _)

theorem endless_of_cycle {member : SymbolId} (leads : Ancestor program start member)
    (cycle : Ancestor program member member) : Endless program start :=
  endless_iff.mpr (ancestor?_of_cycle cycle leads)

theorem parentsEnd_iff : program.parentsEnd start = true ↔ ¬ Endless program start := by
  rw [Program.parentsEnd, Option.isNone_iff_eq_none, ← Option.not_isSome_iff_eq_none]
  refine not_congr ⟨fun long => ?_, fun endless => endless_iff.mp endless _⟩
  obtain ⟨member, leads, cycle⟩ := cycle_of_long long
  exact endless_of_cycle leads cycle

theorem listed_of_endless (endless : Endless program start) : start ∈ program.symbolIds := by
  obtain ⟨chain, begins, named⟩ := endless
  rw [← begins]
  exact listed_of_hasParent (named 0)

end Cycles

section Check

/-- The symbols stand in their list by index, so none is found before one with a smaller index. -/
theorem first_of_find? {test : SymbolId → Bool} {symbol earlier : SymbolId}
    (found : program.symbolIds.find? test = some symbol) (before : earlier.index < symbol.index) :
    test earlier = false := by
  obtain ⟨_, place, bound, here, fails⟩ := List.find?_eq_some_iff_getElem.mp found
  simp only [Program.symbolIds, List.getElem_map, List.getElem_range] at here fails
  -- Indices wrap around in a table with more rows than indices, so the place may be larger.
  have reached : symbol.index.toNat ≤ place := by
    rw [← here, UInt32.toNat_ofNat']
    exact Nat.mod_le _ _
  have inside : earlier.index.toNat < place := Nat.lt_of_lt_of_le before reached
  simpa using fails earlier.index.toNat inside

/-- All that the check can come to: it names a stored index that is missing or, if there is none, the
first symbol whose chain of parents never ends. -/
theorem check_cases (program : Program) :
    (∃ reference ∈ program.references, program.holds reference = false ∧
      program.check = .error (.dangling reference)) ∨
    Closed program ∧
      ((∃ symbol, Endless program symbol ∧
        (∀ earlier : SymbolId, earlier.index < symbol.index → ¬ Endless program earlier) ∧
        program.check = .error (.parentCycle symbol)) ∨
      (∀ symbol, ¬ Endless program symbol) ∧ program.check = .ok ()) := by
  unfold Program.check
  cases missing : program.references.find? (!program.holds ·) with
  | some reference =>
    have absent := List.find?_some missing
    exact .inl ⟨reference, List.mem_of_find?_eq_some missing, by simpa using absent, rfl⟩
  | none =>
    refine .inr ⟨closed_iff_find?.mpr missing, ?_⟩
    cases looped : program.symbolIds.find? (!program.parentsEnd ·) with
    | some symbol =>
      have unended := List.find?_some looped
      refine .inl ⟨symbol, ?_, fun earlier before => ?_, rfl⟩
      · by_contra ends
        simp [parentsEnd_iff.mpr ends] at unended
      · exact parentsEnd_iff.mp (by simpa using first_of_find? looped before)
    | none =>
      refine .inr ⟨fun symbol endless => ?_, rfl⟩
      have ends := List.find?_eq_none.mp looped symbol (listed_of_endless endless)
      exact parentsEnd_iff.mp (by simpa using ends) endless

theorem endless_of_refused {symbol : SymbolId} (refused : program.check = .error (.parentCycle symbol)) :
    Closed program ∧ Endless program symbol ∧
      ∀ earlier : SymbolId, earlier.index < symbol.index → ¬ Endless program earlier := by
  obtain ⟨_, _, _, other⟩ | ⟨closed, ⟨named, endless, first, same⟩ | ⟨_, other⟩⟩ := check_cases program
  · rw [other] at refused
    cases refused
  · rw [same] at refused
    cases refused
    exact ⟨closed, endless, first⟩
  · rw [other] at refused
    cases refused

/-- The symbol that is named for a cycle is the first whose chain of parents leads into one. It lies on
a cycle itself if and only if every symbol that only leads into one comes after a symbol that lies on
one. -/
theorem check_parentCycle {symbol : SymbolId} (refused : program.check = .error (.parentCycle symbol)) :
    (∃ member, Ancestor program symbol member ∧ Ancestor program member member) ∧
      (∀ earlier : SymbolId, earlier.index < symbol.index → ¬ Endless program earlier) ∧
      (Ancestor program symbol symbol ↔
        ∀ stray, Endless program stray → ¬ Ancestor program stray stray →
          ∃ member : SymbolId, member.index < stray.index ∧ Ancestor program member member) := by
  obtain ⟨_, endless, first⟩ := endless_of_refused refused
  refine ⟨cycle_of_endless endless, first, fun cycle stray leads off => ?_, fun after => ?_⟩
  · have different : symbol.index ≠ stray.index := by
      intro same
      rw [show symbol = stray from congrArg SymbolId.mk same] at cycle
      exact off cycle
    have notBefore := UInt32.not_lt.mp fun before => first stray before leads
    exact ⟨symbol, UInt32.lt_of_le_of_ne notBefore different, cycle⟩
  · by_contra off
    obtain ⟨member, before, cycle⟩ := after symbol endless off
    exact first member before (endless_of_cycle cycle cycle)

/-- Two symbols that are each other's parents, with one below them and one apart. -/
def knot : Program where
  symbols := #[
    { name := "apart", flags := 0 },
    { name := "left", flags := 0, parent := some ⟨2⟩ },
    { name := "right", flags := 0, parent := some ⟨1⟩ },
    { name := "below", flags := 0, parent := some ⟨1⟩ }]

theorem check_parentCycle_knot :
    knot.check = .error (.parentCycle ⟨1⟩) ∧ ¬ Endless knot ⟨0⟩ ∧
      (∃ member, Ancestor knot ⟨1⟩ member ∧ Ancestor knot member member) ∧
      ∀ stray, Endless knot stray → ¬ Ancestor knot stray stray →
        ∃ member : SymbolId, member.index < stray.index ∧ Ancestor knot member member := by
  have refused : knot.check = .error (.parentCycle ⟨1⟩) := by decide +kernel
  have up : HasParent knot ⟨1⟩ ⟨2⟩ := rfl
  have back : HasParent knot ⟨2⟩ ⟨1⟩ := rfl
  have cycle : Ancestor knot ⟨1⟩ ⟨1⟩ := .tail (.single up) back
  obtain ⟨leads, first, lies⟩ := check_parentCycle refused
  exact ⟨refused, first ⟨0⟩ (by decide), leads, lies.mp cycle⟩

/-- A symbol below one that is its own parent. -/
def hanging : Program where
  symbols := #[
    { name := "below", flags := 0, parent := some ⟨1⟩ },
    { name := "own", flags := 0, parent := some ⟨1⟩ }]

/-- The symbol that is named is nobody's parent, so it is not an ancestor of itself. -/
theorem hanging_misnamed :
    hanging.symbols.size < UInt32.size ∧ hanging.check = .error (.parentCycle ⟨0⟩) ∧
      ¬ Ancestor hanging ⟨0⟩ ⟨0⟩ := by
  refine ⟨by decide, by decide +kernel, fun cycle => ?_⟩
  obtain ⟨child, _, named⟩ := Relation.TransGen.tail'_iff.mp cycle
  obtain ⟨symbol, found, parent⟩ := Option.bind_eq_some_iff.mp named
  have member := Array.mem_of_getElem? found
  simp only [hanging, List.mem_toArray, List.mem_cons, List.not_mem_nil, or_false] at member
  obtain rfl | rfl := member
  all_goals cases parent

end Check

end ApiDocs.Proofs.ParentChains
