import ApiDocs.Proofs.DocumentGraph

/-! The module table among other documents. Whatever is called between them, calls for one module id
return one document, which is the only one they add; no call changes what is there, except that a module
may list one more export. -/

namespace ApiDocs.Proofs.ModuleTables

open DocumentGraph

/-- Documents, and a table of those that stand for modules. -/
structure Store where
  docs : DocSet := {}
  table : ModuleTable := {}

inductive Call where
  | getOrInsert (id name fileName : String)
  | appendExport (module export_ : DocId)
  | push (doc : Doc)
  deriving DecidableEq

/-- What the call returns, if it returns an id, and what it leaves. -/
def Call.run (store : Store) : Call → Option DocId × Store
  | getOrInsert id name fileName =>
    let (doc, docs, table) := store.table.getOrInsert store.docs id name fileName
    (some doc, { docs, table })
  | appendExport module export_ => (none, { store with docs := store.docs.appendExport module export_ })
  | push doc => (some store.docs.nextId, { store with docs := store.docs.push doc })

def runAll (store : Store) (calls : List Call) : Store :=
  calls.foldl (fun store call => (call.run store).2) store

/-- What a call for a module returns, after other calls from the empty store on. -/
def returned (earlier : List Call) (id name fileName : String) : Option DocId :=
  ((Call.getOrInsert id name fileName).run (runAll {} earlier)).1

/-- One of the calls is for the module id. -/
def Asked (id : String) (calls : List Call) : Prop :=
  ∃ name fileName, .getOrInsert id name fileName ∈ calls

theorem runAll_append (store : Store) (first last : List Call) :
    runAll store (first ++ last) = runAll (runAll store first) last :=
  List.foldl_append

theorem runAll_cons (store : Store) (call : Call) (calls : List Call) :
    runAll store (call :: calls) = runAll (call.run store).2 calls :=
  rfl

section Steps

variable {store : Store} {id other name fileName : String} {doc : DocId}

theorem run_known (known : store.table.get? id = some doc) (name fileName : String) :
    (Call.getOrInsert id name fileName).run store = (some doc, store) := by
  simp [Call.run, ModuleTable.getOrInsert, known]

theorem run_fresh (fresh : store.table.get? id = none) (name fileName : String) :
    (Call.getOrInsert id name fileName).run store =
      (some store.docs.nextId,
        { docs := store.docs.push (.module { id, name, fileName, exports := [] })
          table := ⟨(id, store.docs.nextId) :: store.table.entries⟩ }) := by
  simp [Call.run, ModuleTable.getOrInsert, fresh]

theorem get?_entered (table : ModuleTable) (id other : String) (doc : DocId) :
    (ModuleTable.mk ((id, doc) :: table.entries)).get? other =
      if other = id then some doc else table.get? other := by
  rw [ModuleTable.get?, List.lookup_cons]
  by_cases same : other = id
  · simp [same]
  · rw [beq_false_of_ne same, if_neg same]
    rfl

/-- What a call does to the documents. -/
inductive Effect (docs : DocSet) : DocSet → Prop where
  | kept : Effect docs docs
  | added (doc : Doc) : Effect docs (docs.push doc)
  /-- One module lists one more export. -/
  | listed (place : Nat) (module : ModuleDoc) (export_ : DocId)
      (found : docs.docs[place]? = some (.module module)) :
      Effect docs ⟨docs.docs.setIfInBounds place (.module (module.addExport export_))⟩

theorem modify_found {items : Array Doc} {place : Nat} {item : Doc} (found : items[place]? = some item)
    (change : Doc → Doc) : items.modify place change = items.setIfInBounds place (change item) := by
  obtain ⟨inside, _⟩ := Array.getElem?_eq_some_iff.mp found
  apply Array.ext_getElem?
  intro index
  rw [Array.getElem?_modify]
  by_cases same : place = index
  · subst same
    rw [if_pos rfl, found, Option.map_some, Array.getElem?_setIfInBounds_self_of_lt inside]
  · rw [if_neg same, Array.getElem?_setIfInBounds_ne same]

theorem modify_unchanged {items : Array Doc} {place : Nat} {change : Doc → Doc}
    (same : ∀ item, items[place]? = some item → change item = item) : items.modify place change = items := by
  apply Array.ext_getElem?
  intro index
  rw [Array.getElem?_modify]
  split
  next here =>
    subst here
    cases found : items[place]? with
    | none => rfl
    | some item => rw [Option.map_some, same item found]
  next => rfl

theorem appendExport_effect (docs : DocSet) (module export_ : DocId) :
    Effect docs (docs.appendExport module export_) := by
  by_cases opened : ∃ head, docs.docs[module.index.toNat]? = some (.module head)
  · obtain ⟨head, found⟩ := opened
    rw [DocSet.appendExport, modify_found found]
    exact .listed _ head export_ found
  · -- The id leads to no module, so there is nothing to change.
    rw [DocSet.appendExport, modify_unchanged]
    · exact .kept
    · intro doc found
      cases doc with
      | module head => exact absurd ⟨head, found⟩ opened
      | export_ | member => rfl

theorem run_effect (store : Store) (call : Call) : Effect store.docs (call.run store).2.docs := by
  cases call with
  | getOrInsert id name fileName =>
    cases known : store.table.get? id with
    | some doc =>
      rw [run_known known]
      exact .kept
    | none =>
      rw [run_fresh known]
      exact .added _
  | appendExport module export_ => exact appendExport_effect store.docs module export_
  | push doc => exact .added doc

/-- The table never changes its mind. -/
theorem run_keeps (call : Call) (known : store.table.get? id = some doc) :
    (call.run store).2.table.get? id = some doc := by
  cases call with
  | getOrInsert other name fileName =>
    cases seen : store.table.get? other with
    | some _ =>
      rw [run_known seen]
      exact known
    | none =>
      have different : id ≠ other := by
        rintro rfl
        cases known.symm.trans seen
      rw [run_fresh seen, get?_entered, if_neg different]
      exact known
  | appendExport | push => exact known

theorem run_returns (store : Store) (id name fileName : String) :
    ∃ doc, ((Call.getOrInsert id name fileName).run store).1 = some doc ∧
      ((Call.getOrInsert id name fileName).run store).2.table.get? id = some doc := by
  cases known : store.table.get? id with
  | some doc => exact ⟨doc, by rw [run_known known], by rw [run_known known, known]⟩
  | none => exact ⟨store.docs.nextId, by rw [run_fresh known], by rw [run_fresh known, get?_entered, if_pos rfl]⟩

theorem run_knows_iff (store : Store) (call : Call) (id : String) :
    ((call.run store).2.table.get? id).isSome ↔ (store.table.get? id).isSome ∨ Asked id [call] := by
  cases call with
  | getOrInsert other name fileName =>
    by_cases same : id = other
    · subst same
      obtain ⟨doc, _, known⟩ := run_returns store id name fileName
      exact iff_of_true (by rw [known]; rfl) (.inr ⟨name, fileName, List.mem_cons_self⟩)
    · have notAsked : ¬ Asked id [.getOrInsert other name fileName] := by simp [Asked, same]
      rw [or_iff_left notAsked]
      cases seen : store.table.get? other with
      | some doc => rw [run_known seen]
      | none => rw [run_fresh seen, get?_entered, if_neg same]
  | appendExport | push => simp [Asked, Call.run]

end Steps

section Runs

variable {store : Store} {id other name fileName : String} {doc : DocId} {calls : List Call}

theorem runAll_keeps (known : store.table.get? id = some doc) :
    (runAll store calls).table.get? id = some doc := by
  induction calls generalizing store with
  | nil => exact known
  | cons call calls ih => exact ih (run_keeps call known)

/-- The table knows the module ids that calls have asked for. -/
theorem runAll_knows_iff (store : Store) (calls : List Call) (id : String) :
    ((runAll store calls).table.get? id).isSome ↔ (store.table.get? id).isSome ∨ Asked id calls := by
  induction calls generalizing store with
  | nil => simp [runAll, Asked]
  | cons call calls ih =>
    rw [runAll_cons, ih, run_knows_iff, or_assoc]
    apply or_congr_right
    simp [Asked, ← exists_or]

theorem Effect.size_le {docs after : DocSet} (effect : Effect docs after) : docs.size ≤ after.size := by
  cases effect with
  | kept => exact Nat.le_refl _
  | added doc => simp [DocSet.size, DocSet.push]
  | listed => simp [DocSet.size]

theorem size_le_runAll (store : Store) (calls : List Call) : store.docs.size ≤ (runAll store calls).docs.size := by
  induction calls generalizing store with
  | nil => exact Nat.le_refl _
  | cons call calls ih => exact Nat.le_trans (run_effect store call).size_le (ih _)

/-- The table leads to documents of modules with the ids that it leads from. -/
def Leads (store : Store) : Prop :=
  ∀ id doc, store.table.get? id = some doc →
    ∃ module, store.docs.get? doc = some (.module module) ∧ module.id = id

/-- A module stays one, with its id. -/
theorem Effect.keeps_module {docs after : DocSet} (effect : Effect docs after) {module : ModuleDoc}
    (found : docs.get? doc = some (.module module)) :
    ∃ later, after.get? doc = some (.module later) ∧ later.id = module.id := by
  cases effect with
  | kept => exact ⟨module, found, rfl⟩
  | added new => exact ⟨module, get?_push_of_some found new, rfl⟩
  | listed place head export_ opened =>
    by_cases selected : place = doc.index.toNat
    · subst selected
      cases opened.symm.trans found
      refine ⟨module.addExport export_, ?_, rfl⟩
      rw [DocSet.get?, Array.getElem?_setIfInBounds_self_of_lt (lt_size_of_get? found)]
    · refine ⟨module, ?_, rfl⟩
      rw [DocSet.get?, Array.getElem?_setIfInBounds_ne selected]
      exact found

theorem run_leads (call : Call) (leads : Leads store) (small : (call.run store).2.docs.size ≤ UInt32.size) :
    Leads (call.run store).2 := by
  intro id doc known
  by_cases old : store.table.get? id = some doc
  · obtain ⟨module, found, same⟩ := leads id doc old
    obtain ⟨later, kept, sameId⟩ := (run_effect store call).keeps_module found
    exact ⟨later, kept, sameId.trans same⟩
  · -- Only a call for a new module id makes the table longer.
    cases call with
    | getOrInsert other name fileName =>
      cases seen : store.table.get? other with
      | some _ =>
        rw [run_known seen] at known
        exact absurd known old
      | none =>
        rw [run_fresh seen] at known small ⊢
        rw [get?_entered] at known
        split at known
        next same =>
          cases known
          refine ⟨{ id := other, name, fileName, exports := [] }, ?_, same.symm⟩
          have room : store.docs.size < UInt32.size := by
            simp only [DocSet.size, DocSet.push, Array.size_push] at small ⊢
            omega
          rw [nextId_eq, get?_docAt room]
          simp [DocSet.push, DocSet.size]
        next => exact absurd known old
    | appendExport | push => exact absurd known old

theorem runAll_leads (leads : Leads store) (small : (runAll store calls).docs.size ≤ UInt32.size) :
    Leads (runAll store calls) := by
  induction calls generalizing store with
  | nil => exact leads
  | cons call calls ih =>
    have inside := size_le_runAll (call.run store).2 calls
    rw [runAll_cons] at small
    exact ih (run_leads call leads (Nat.le_trans inside small)) small

end Runs

section Laws

/-- What holds of all calls from the empty store on, at whatever call one looks. -/
structure Lawful (calls : List Call) : Prop where
  leads : Leads (runAll {} calls)
  apart : ∀ id other doc, (runAll {} calls).table.get? id = some doc →
    (runAll {} calls).table.get? other = some doc → id = other
  effects : ∀ earlier call later, calls = earlier ++ call :: later →
    Effect (runAll {} earlier).docs (runAll {} (earlier ++ [call])).docs
  /-- What a call for a module returns is what the table leads to from then on. -/
  returns : ∀ earlier id name fileName later, calls = earlier ++ .getOrInsert id name fileName :: later →
    ∃ doc, returned earlier id name fileName = some doc ∧ (runAll {} calls).table.get? id = some doc
  /-- The first call for a module adds its document. -/
  first : ∀ earlier id name fileName later, calls = earlier ++ .getOrInsert id name fileName :: later →
    ¬ Asked id earlier →
      (runAll {} (earlier ++ [.getOrInsert id name fileName])).docs =
        (runAll {} earlier).docs.push (.module { id, name, fileName, exports := [] })
  /-- A later call for it returns the same, and changes nothing. -/
  again : ∀ earlier id name fileName middle name' fileName' later,
    calls = earlier ++ .getOrInsert id name fileName :: middle ++ .getOrInsert id name' fileName' :: later →
      returned (earlier ++ .getOrInsert id name fileName :: middle) id name' fileName' =
          returned earlier id name fileName ∧
        runAll {} (earlier ++ .getOrInsert id name fileName :: middle ++ [.getOrInsert id name' fileName']) =
          runAll {} (earlier ++ .getOrInsert id name fileName :: middle)

theorem leads_empty : Leads {} := by
  intro id doc known
  cases known

theorem not_known_empty (id : String) : ¬ (({} : Store).table.get? id).isSome := by
  simp [ModuleTable.get?]

theorem knows_iff_asked (calls : List Call) (id : String) :
    ((runAll {} calls).table.get? id).isSome ↔ Asked id calls :=
  (runAll_knows_iff {} calls id).trans (or_iff_right (not_known_empty id))

theorem returned_kept (earlier : List Call) (id name fileName : String) (later : List Call) :
    ∃ doc, returned earlier id name fileName = some doc ∧
      (runAll {} (earlier ++ .getOrInsert id name fileName :: later)).table.get? id = some doc := by
  obtain ⟨doc, returns, known⟩ := run_returns (runAll {} earlier) id name fileName
  refine ⟨doc, returns, ?_⟩
  rw [runAll_append, runAll_cons]
  exact runAll_keeps known

/-- As long as ids reach all documents, the table leads to one module for each id that calls have asked
for, and calls change no document except that one module may list one more export. -/
theorem calls_lawful {calls : List Call} (small : (runAll {} calls).docs.size < UInt32.size) :
    Lawful calls := by
  have leads : Leads (runAll {} calls) := runAll_leads leads_empty (Nat.le_of_lt small)
  refine ⟨leads, ?_, ?_, ?_, ?_, ?_⟩
  · intro id other doc known knownToo
    obtain ⟨module, found, same⟩ := leads id doc known
    obtain ⟨again, foundAgain, sameToo⟩ := leads other doc knownToo
    cases found.symm.trans foundAgain
    exact same.symm.trans sameToo
  · intro earlier call later _
    rw [runAll_append]
    exact run_effect (runAll {} earlier) call
  · intro earlier id name fileName later whole
    rw [whole]
    exact returned_kept earlier id name fileName later
  · intro earlier id name fileName later _ notAsked
    have fresh := Option.not_isSome_iff_eq_none.mp (mt (knows_iff_asked earlier id).mp notAsked)
    rw [runAll_append, runAll_cons, run_fresh fresh]
    rfl
  · intro earlier id name fileName middle name' fileName' later _
    obtain ⟨doc, returns, known⟩ := returned_kept earlier id name fileName middle
    constructor
    · rw [returns, returned, run_known known]
    · rw [runAll_append, runAll_cons, run_known known]
      rfl

def foreignModule : ModuleDoc := { id := "a", name := "other", fileName := "", exports := [] }

def foreignExport : ExportDoc where
  name := "X"
  module := ⟨1⟩
  moduleId := "a"
  declaredIn := none
  content := none
  location := none
  kind := .unknown

/-- Calls for two modules, with other documents between them, and exports for a module, for an export and
for no document. -/
def session : List Call :=
  [.push (.module foreignModule), .getOrInsert "a" "a" "a.ts", .appendExport ⟨1⟩ ⟨2⟩,
    .push (.export_ foreignExport),
    .appendExport ⟨2⟩ ⟨0⟩, .appendExport ⟨7⟩ ⟨0⟩, .getOrInsert "b" "b" "b.ts", .getOrInsert "a" "a" "c.ts"]

theorem calls_lawful_session :
    (runAll {} session).docs.size < UInt32.size ∧ Lawful session ∧
      (runAll {} session).docs.size = 4 ∧ returned (session.take 7) "a" "a" "c.ts" = some ⟨1⟩ := by
  have small : (runAll {} session).docs.size < UInt32.size := by decide +kernel
  have lawful := calls_lawful small
  refine ⟨small, lawful, by decide +kernel, ?_⟩
  exact (lawful.again (session.take 1) "a" "a" "a.ts" ((session.drop 2).take 5) "a" "c.ts" [] rfl).1

end Laws

end ApiDocs.Proofs.ModuleTables
