import ApiDocs.Proofs.ParentChains

/-! What the check of a program decides. It accepts the programs in which every stored index points into
its table and every chain of parents ends, and no others; what it names is wrong indeed; and it never
looks past the end of a table itself. -/

namespace ApiDocs.Proofs.Validation

open References ParentChains

section Stored

/-- The places of a program where indices are stored. -/
inductive Stores (program : Program) : Reference → Prop where
  | moduleSymbol {file id} (entry : file ∈ program.files) (named : file.moduleSymbol = some id) :
      Stores program (.symbol id)
  | statement {file id} (entry : file ∈ program.files) (listed : id ∈ file.statements) :
      Stores program (.symbol id)
  | declaration {symbol id} (entry : symbol ∈ program.symbols) (listed : id ∈ symbol.declarations) :
      Stores program (.decl id)
  | exported {symbol id} (entry : symbol ∈ program.symbols) (listed : id ∈ symbol.exports) :
      Stores program (.symbol id)
  | parent {symbol id} (entry : symbol ∈ program.symbols) (named : symbol.parent = some id) :
      Stores program (.symbol id)
  | aliasOf {symbol id} (entry : symbol ∈ program.symbols) (named : symbol.aliasOf = some id) :
      Stores program (.symbol id)
  | file {decl} (entry : decl ∈ program.declarations) : Stores program (.file decl.file)
  | parameter {decl id} (entry : decl ∈ program.declarations) (listed : id ∈ decl.parameters) :
      Stores program (.decl id)
  | member {decl id} (entry : decl ∈ program.declarations) (listed : id ∈ decl.members) :
      Stores program (.decl id)
  | body {decl id} (entry : decl ∈ program.declarations) (named : decl.body = some id) :
      Stores program (.symbol id)
  | bound {decl id} (entry : decl ∈ program.declarations) (named : decl.symbol = some id) :
      Stores program (.symbol id)

variable {program : Program} {reference : Reference}

theorem stores_of_mem (member : reference ∈ program.references) : Stores program reference := by
  obtain ⟨file, entry, own⟩ | ⟨symbol, entry, own⟩ | ⟨decl, entry, own⟩ := mem_references.mp member
  · simp only [SourceFile.references, List.mem_append, List.mem_map, Option.mem_toList] at own
    obtain ⟨id, named, rfl⟩ | ⟨id, listed, rfl⟩ := own
    · exact .moduleSymbol entry named
    · exact .statement entry listed
  · simp only [Symbol.references, List.mem_append, List.mem_map, Option.mem_toList] at own
    obtain ((⟨id, listed, rfl⟩ | ⟨id, listed, rfl⟩) | ⟨id, named, rfl⟩) | ⟨id, named, rfl⟩ := own
    · exact .declaration entry listed
    · exact .exported entry listed
    · exact .parent entry named
    · exact .aliasOf entry named
  · simp only [Declaration.references, List.cons_append, List.mem_cons, List.mem_append, List.mem_map,
      Option.mem_toList] at own
    obtain rfl | (((⟨id, listed, rfl⟩ | ⟨id, listed, rfl⟩) | ⟨id, named, rfl⟩) | ⟨id, named, rfl⟩) := own
    · exact .file entry
    · exact .parameter entry listed
    · exact .member entry listed
    · exact .body entry named
    · exact .bound entry named

theorem mem_of_stores (stored : Stores program reference) : reference ∈ program.references := by
  apply mem_references.mpr
  cases stored with
  | moduleSymbol entry named => exact .inl ⟨_, entry, by simp [SourceFile.references, named]⟩
  | statement entry listed =>
    refine .inl ⟨_, entry, ?_⟩
    simp only [SourceFile.references, List.mem_append]
    exact .inr (List.mem_map_of_mem listed)
  | declaration entry listed | exported entry listed =>
    refine .inr (.inl ⟨_, entry, ?_⟩)
    simp [Symbol.references, List.mem_map_of_mem listed]
  | parent entry named | aliasOf entry named =>
    exact .inr (.inl ⟨_, entry, by simp [Symbol.references, named]⟩)
  | file entry => exact .inr (.inr ⟨_, entry, List.mem_cons_self⟩)
  | parameter entry listed | member entry listed =>
    refine .inr (.inr ⟨_, entry, ?_⟩)
    simp [Declaration.references, List.mem_map_of_mem listed]
  | body entry named | bound entry named =>
    exact .inr (.inr ⟨_, entry, by simp [Declaration.references, named]⟩)

theorem closed_iff : Closed program ↔ ∀ reference, Stores program reference → program.holds reference := by
  constructor
  · intro closed reference stored
    exact closed reference (mem_of_stores stored)
  · intro held reference listed
    exact held reference (stores_of_mem listed)

end Stored

section Parents

/-- The chain of parents from the symbol ends with one that has no parent. -/
inductive ParentsEnd (program : Program) : Symbol → Prop where
  | root {symbol} (orphan : symbol.parent = none) : ParentsEnd program symbol
  | child {symbol id parent} (named : symbol.parent = some id) (found : program.symbol id = .ok parent)
      (rest : ParentsEnd program parent) : ParentsEnd program symbol

variable {program : Program} {id : SymbolId} {symbol : Symbol}

theorem parent?_of_found (found : program.symbol id = .ok symbol) : program.parent? id = symbol.parent := by
  rw [Program.parent?, symbol_ok_iff.mp found]
  rfl

theorem entry_of_found (found : program.symbol id = .ok symbol) : symbol ∈ program.symbols :=
  Array.mem_of_getElem? (symbol_ok_iff.mp found)

theorem parent_found (closed : Closed program) (entry : symbol ∈ program.symbols)
    (named : symbol.parent = some id) : ∃ parent, program.symbol id = .ok parent := by
  have held := closed _ (mem_of_stores (.parent entry named))
  obtain ⟨parent, found, _⟩ := symbol_returns closed held
  exact ⟨parent, found⟩

theorem not_endless_of_ends (ends : ParentsEnd program symbol) (found : program.symbol id = .ok symbol) :
    ¬ Endless program id := by
  induction ends generalizing id with
  | root orphan =>
    intro ⟨chain, begins, named⟩
    have first := named 0
    rw [begins, HasParent, parent?_of_found found, orphan] at first
    cases first
  | child named foundNext rest ih =>
    intro ⟨chain, begins, steps⟩
    have first := steps 0
    rw [begins, HasParent, parent?_of_found found, named] at first
    refine ih foundNext ⟨fun step => chain (step + 1), ?_, fun step => steps (step + 1)⟩
    exact (Option.some.inj first).symm

/-- A chain that runs out after some steps ends with a symbol that has no parent: nothing on the way is
missing. -/
theorem ends_of_runsOut (closed : Closed program) (steps : Nat) (entry : symbol ∈ program.symbols)
    (runsOut : ∀ parent, symbol.parent = some parent → program.ancestor? steps parent = none) :
    ParentsEnd program symbol := by
  induction steps generalizing symbol with
  | zero =>
    cases named : symbol.parent with
    | none => exact .root named
    | some parent => cases runsOut parent named
  | succ steps ih =>
    cases named : symbol.parent with
    | none => exact .root named
    | some parent =>
      obtain ⟨next, found⟩ := parent_found closed entry named
      refine .child named found (ih (entry_of_found found) fun above namedNext => ?_)
      have ended := runsOut parent named
      rwa [Program.ancestor?, parent?_of_found found, namedNext] at ended

/-- Without endless chains every row of the table has a chain that ends, also a row that is past all
indices. -/
theorem ends_of_finite (closed : Closed program) (finite : ∀ id, ¬ Endless program id)
    (entry : symbol ∈ program.symbols) : ParentsEnd program symbol := by
  cases named : symbol.parent with
  | none => exact .root named
  | some parent =>
    have ended := finite parent
    rw [endless_iff, not_forall] at ended
    obtain ⟨steps, runsOut⟩ := ended
    refine ends_of_runsOut closed steps entry fun other namedToo => ?_
    cases named.symm.trans namedToo
    exact Option.not_isSome_iff_eq_none.mp runsOut

end Parents

section LookUps

/-- The symbol that is reached by steps to parents, if all that are looked up are in the table. -/
def climb (program : Program) : Nat → SymbolId → Except Fault (Option SymbolId)
  | 0, start => .ok (some start)
  | steps + 1, start => do
    match (← program.symbol start).parent with
    | none => return none
    | some parent => climb program steps parent

def looksEndless (program : Program) (start : SymbolId) : Except Fault Bool := do
  return (← climb program (program.symbols.size + 1) start).isSome

/-- The check with look-ups that fail past the end of the table. -/
def guardedCheck (program : Program) : Except Fault (Except Defect Unit) :=
  match program.references.find? (!program.holds ·) with
  | some reference => .ok (.error (.dangling reference))
  | none => do
    match ← program.symbolIds.findM? (looksEndless program) with
    | some symbol => return .error (.parentCycle symbol)
    | none => return .ok ()

variable {program : Program}

theorem climb_eq (closed : Closed program) {start : SymbolId} (held : program.holds (.symbol start))
    (steps : Nat) : climb program steps start = .ok (program.ancestor? steps start) := by
  induction steps generalizing start with
  | zero => rfl
  | succ steps ih =>
    obtain ⟨symbol, found, inside⟩ := symbol_returns closed held
    have known := inside.parent
    rw [climb, found, Program.ancestor?, parent?_of_found found]
    cases named : symbol.parent with
    | none =>
      simp only [named, bind, Except.bind]
      rfl
    | some parent =>
      rw [named, targetHeld_some] at known
      simp only [named, bind, Except.bind]
      exact ih known

/-- A search through tests that all return finds what it would find without failures. -/
theorem findM?_eq_find? {α ε : Type} {items : List α} {body : α → Except ε Bool} {test : α → Bool}
    (each : ∀ item ∈ items, body item = .ok (test item)) : items.findM? body = .ok (items.find? test) := by
  induction items with
  | nil => rfl
  | cons item items ih =>
    have rest := ih fun other member => each other (List.mem_cons_of_mem _ member)
    rw [List.findM?, each item List.mem_cons_self, List.find?]
    cases test item with
    | true => rfl
    | false => exact rest

theorem held_of_listed {id : SymbolId} (listed : id ∈ program.symbolIds) : program.holds (.symbol id) := by
  obtain ⟨index, inside, rfl⟩ := List.mem_map.mp listed
  refine decide_eq_true (Nat.lt_of_le_of_lt ?_ (List.mem_range.mp inside))
  exact Nat.mod_le index UInt32.size

theorem looksEndless_eq (closed : Closed program) {start : SymbolId} (listed : start ∈ program.symbolIds) :
    looksEndless program start = .ok (!program.parentsEnd start) := by
  rw [looksEndless, climb_eq closed (held_of_listed listed), Program.parentsEnd, Option.not_isNone]
  rfl

theorem guardedCheck_eq (program : Program) : guardedCheck program = .ok program.check := by
  unfold guardedCheck Program.check
  cases missing : program.references.find? (!program.holds ·) with
  | some reference => rfl
  | none =>
    have closed := closed_iff_find?.mpr missing
    rw [findM?_eq_find? fun start listed => looksEndless_eq closed listed]
    cases program.symbolIds.find? (!program.parentsEnd ·) with
    | some symbol => rfl
    | none => rfl

end LookUps

section Exactness

variable {program : Program}

theorem check_ok_iff :
    program.check = .ok () ↔ Closed program ∧ ∀ symbol ∈ program.symbols, ParentsEnd program symbol := by
  obtain ⟨reference, stored, missing, refused⟩ |
    ⟨closed, ⟨symbol, endless, _, refused⟩ | ⟨finite, accepted⟩⟩ := check_cases program
  · rw [refused]
    refine iff_of_false nofun fun ⟨closed, _⟩ => ?_
    simp [closed reference stored] at missing
  · rw [refused]
    refine iff_of_false nofun fun ⟨_, ends⟩ => ?_
    obtain ⟨entry, found, _⟩ := symbol_returns closed (held_of_listed (listed_of_endless endless))
    exact not_endless_of_ends (ends entry (entry_of_found found)) found endless
  · exact iff_of_true accepted ⟨closed, fun symbol => ends_of_finite closed finite⟩

theorem missing_of_refused {reference : Reference} (refused : program.check = .error (.dangling reference)) :
    reference ∈ program.references ∧ program.holds reference = false := by
  obtain ⟨named, stored, missing, same⟩ | ⟨_, ⟨_, _, _, other⟩ | ⟨_, other⟩⟩ := check_cases program
  · rw [same] at refused
    cases refused
    exact ⟨stored, missing⟩
  all_goals
    rw [other] at refused
    cases refused

/-- The check accepts a program if and only if every stored index points into its table and every chain
of parents ends. It names a missing index only if one is stored, and a cycle only if no stored index is
missing and the chain from the named symbol goes on for ever. It never looks past the end of a table. -/
theorem check_exact (program : Program) :
    (program.check = .ok () ↔ (∀ reference, Stores program reference → program.holds reference) ∧
      ∀ symbol ∈ program.symbols, ParentsEnd program symbol) ∧
    (∀ reference, program.check = .error (.dangling reference) →
      Stores program reference ∧ ¬ program.holds reference) ∧
    (∀ symbol, program.check = .error (.parentCycle symbol) →
      (∀ reference, Stores program reference → program.holds reference) ∧ Endless program symbol) ∧
    guardedCheck program = .ok program.check := by
  refine ⟨?_, ?_, ?_, guardedCheck_eq program⟩
  · rw [← closed_iff]
    exact check_ok_iff
  · intro reference refused
    obtain ⟨stored, missing⟩ := missing_of_refused refused
    exact ⟨stores_of_mem stored, by simp [missing]⟩
  · intro symbol refused
    obtain ⟨closed, endless, _⟩ := endless_of_refused refused
    exact ⟨closed_iff.mp closed, endless⟩

-- A chain through all symbols is not too long.
example :
    Program.check { symbols := #[
      { name := "inner", flags := 0, parent := some ⟨1⟩ },
      { name := "middle", flags := 0, parent := some ⟨2⟩ },
      { name := "outer", flags := 0 }] } = .ok () := by
  decide +kernel

end Exactness

end ApiDocs.Proofs.Validation
