import ApiDocs.Proofs.BuilderCalls
import ApiDocs.Proofs.ParentChains

/-! Programs from the builder pass the check. A symbol gets its parent when it is added, so its
parent is older, and chains of parents end. -/

namespace ApiDocs.Proofs.BuilderSoundness

open References Edits BuilderCalls ParentChains

/-- The parent of a symbol stands before it in the table. -/
def ParentsEarlier (program : Program) : Prop :=
  ∀ (index : Nat) (symbol : Symbol) (parent : SymbolId), program.symbols[index]? = some symbol →
    symbol.parent = some parent → parent.index.toNat < index

section Parents

variable {allowed : SymbolFlags → Prop} {program after : Program}

theorem parents_modify (earlier : ParentsEarlier program) (index : Nat) {change : Symbol → Symbol}
    (keeps : ∀ entry, (change entry).parent = entry.parent) :
    ParentsEarlier { program with symbols := program.symbols.modify index change } := by
  intro place symbol parent found named
  obtain ⟨old, there, rfl | rfl⟩ := getElem?_modify_cases found
  · rw [keeps] at named
    exact earlier place old parent there named
  · exact earlier place symbol parent there named

theorem edit_parents (edit : Edit allowed program after) (earlier : ParentsEarlier program) :
    ParentsEarlier after := by
  cases edit with
  | file | changeFile | changeDeclaration => exact earlier
  | @symbol name flags fits given held =>
    intro place symbol parent found named
    simp only [Array.getElem?_push] at found
    split at found
    next last =>
      cases found
      subst last
      exact of_decide_eq_true (held parent (Option.mem_toList.mpr named))
    · exact earlier place symbol parent found named
  | declaration symbol decl held =>
    cases symbol with
    | none => exact earlier
    | some owner => exact parents_modify earlier _ fun _ => rfl
  | changeSymbol index change keeps grounded =>
    exact parents_modify earlier index fun entry => (keeps entry).2.2

theorem edited_parents (edits : Edited allowed program after) (earlier : ParentsEarlier program) :
    ParentsEarlier after :=
  edited_keeps ParentsEarlier edits (fun _ _ => edit_parents) earlier

/-- Every step towards a parent is a step towards the start of the table. -/
theorem ancestor_earlier (earlier : ParentsEarlier program) {steps : Nat} {start last : SymbolId}
    (reached : program.ancestor? steps start = some last) :
    last.index.toNat + steps ≤ start.index.toNat := by
  induction steps generalizing start with
  | zero =>
    cases reached
    exact Nat.le_refl _
  | succ steps ih =>
    obtain ⟨parent, up, rest⟩ := Option.bind_eq_some_iff.mp reached
    obtain ⟨symbol, found, named⟩ := Option.bind_eq_some_iff.mp up
    have above := earlier _ symbol parent found named
    have further := ih rest
    omega

theorem check_of_parents (closed : Closed program) (earlier : ParentsEarlier program) :
    program.check = .ok () := by
  obtain ⟨reference, stored, missing, _⟩ | ⟨_, ⟨symbol, endless, _, _⟩ | ⟨_, accepted⟩⟩ := check_cases program
  · simp [closed reference stored] at missing
  · -- A chain without end has more steps than there are places before its start.
    have far := endless_iff.mp endless (symbol.index.toNat + 1)
    obtain ⟨last, reached⟩ := Option.isSome_iff_exists.mp far
    have further := ancestor_earlier earlier reached
    omega
  · exact accepted

end Parents

theorem closed_empty : Closed {} := by
  intro reference listed
  simp [Program.references] at listed

theorem parents_empty : ParentsEarlier {} := by
  intro index symbol parent found
  simp at found

/-- Whatever calls the builder gets, with ids that are allocated by then: all of them return, and the
program that they build passes the check. -/
theorem buildAll_accepted {calls : List Call} (allocated : Allocated {} calls) :
    ∃ program, (buildAll calls).run.run {} = (.ok (), program) ∧ program.check = .ok () := by
  have anyFlags : ∀ call ∈ calls, call.Fits fun _ => True := by
    intro call _
    cases call <;> trivial
  obtain ⟨_, program, ran, edits, _⟩ := buildAll_runs trivial closed_empty anyFlags allocated
  have closed := edited_closed edits closed_empty
  have earlier := edited_parents edits parents_empty
  exact ⟨program, ran, check_of_parents closed earlier⟩

/-- A class and a namespace with a function in one module, which another module exports again. -/
def session : List Call := [
  .addModuleFile "a.ts",
  .declare (some ⟨0⟩) { kind := .class_, file := ⟨0⟩, name := "C" },
  .addMember ⟨1⟩ { kind := .method, file := ⟨0⟩, name := "run" },
  .addParameter ⟨2⟩ { kind := .parameter, file := ⟨0⟩, name := "size" },
  .setInferredType ⟨3⟩ "number",
  .setInferredReturnType ⟨2⟩ "void",
  .addExport ⟨0⟩ ⟨1⟩,
  .addSymbol "n" 0 (some ⟨0⟩),
  .addDeclaration (some ⟨3⟩) { kind := .namespace_, file := ⟨0⟩, name := "n" },
  .setBody ⟨4⟩ ⟨3⟩,
  .mergeDeclaration ⟨3⟩ { kind := .function, file := ⟨0⟩, name := "n", parameters := [⟨3⟩] },
  .addExport ⟨0⟩ ⟨3⟩,
  .addFile "b.ts",
  .addStatement ⟨1⟩ ⟨3⟩,
  .addModuleFile "c.ts",
  .addAlias ⟨4⟩ ⟨2⟩ "D" (some ⟨1⟩),
  .addAlias ⟨4⟩ ⟨2⟩ "E" none]

theorem buildAll_accepted_session :
    Allocated {} session ∧
      ∃ program, (buildAll session).run.run {} = (.ok (), program) ∧ program.check = .ok () := by
  have allocated : Allocated {} session := by decide +kernel
  exact ⟨allocated, buildAll_accepted allocated⟩

end ApiDocs.Proofs.BuilderSoundness
