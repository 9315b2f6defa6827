import ApiDocs.Proofs.Blocks
import ApiDocs.Proofs.ExtractionOutcome
import Mathlib.Data.List.Perm.Basic

/-! The order of the requested files. What documents say, apart from where they stand, depends only
on which files are requested: neither their order nor repeated names make a difference. -/

namespace ApiDocs.Proofs.FileOrder

open DocumentGraph Growth Blocks Coverage References DeclaredTypes ExtractionOutcome

/-- The kind of an export with its members in the place of their ids. -/
inductive ShownKind where
  | class_ (typeParameters heritage : List String) (isAbstract : Bool)
      (constructor : Option (Option Member)) (members statics : List (Option Member))
  | interface (typeParameters heritage : List String) (members : List (Option Member))
      (callMember newMember : Option Member)
  | function (signature : Signature)
  | enum (members : List (Option Member))
  | variable_ (keyword : VarKeyword) (returnType : String)
  | typeAlias (typeParameters : List String) (definition : Option String)
  | unknown
  deriving DecidableEq

/-- What a document says about an export, without any ids of documents. -/
structure ShownExport where
  name : String
  moduleId : String
  declaredIn : Option String
  content : Option String
  location : Option SourceLocation
  kind : ShownKind
  members : List Member
  deriving DecidableEq

section Shown

def memberAt (docs : DocSet) (id : DocId) : Option Member := (docs.member? id).map (·.toMember)

def shownKind (docs : DocSet) : ExportKind → ShownKind
  | .class_ typeParameters heritage isAbstract constructor members statics =>
    .class_ typeParameters heritage isAbstract (constructor.map (memberAt docs))
      (members.map (memberAt docs)) (statics.map (memberAt docs))
  | .interface typeParameters heritage members callMember newMember =>
    .interface typeParameters heritage (members.map (memberAt docs)) (callMember.map (·.toMember))
      (newMember.map (·.toMember))
  | .function signature => .function signature
  | .enum members => .enum (members.map (memberAt docs))
  | .variable_ keyword returnType => .variable_ keyword returnType
  | .typeAlias typeParameters definition => .typeAlias typeParameters definition
  | .unknown => .unknown

def shownExport (docs : DocSet) (entry : Nat × ExportDoc) : ShownExport where
  name := entry.2.name
  moduleId := entry.2.moduleId
  declaredIn := entry.2.declaredIn
  content := entry.2.content
  location := entry.2.location
  kind := shownKind docs entry.2.kind
  members := (docs.members.filter (·.owner = docAt entry.1)).map (·.toMember)

/-- All exports in order, each with its members and without ids. -/
def shownExports (docs : DocSet) : List ShownExport := (exportsAt docs).map (shownExport docs)

def describedKind (description : Description) : ShownKind :=
  match description.form with
  | .class_ typeParameters heritage isAbstract =>
    let constructors := description.members.filter (·.kind = .constructor)
    let others := description.members.filter (·.kind ≠ .constructor)
    .class_ typeParameters heritage isAbstract (constructors.getLast?.map some)
      ((others.filter (!·.isStatic)).map some) ((others.filter (·.isStatic)).map some)
  | .interface typeParameters heritage callMember newMember =>
    .interface typeParameters heritage (description.members.map some) callMember newMember
  | .function signature => .function signature
  | .enum => .enum (description.members.map some)
  | .variable_ keyword returnType => .variable_ keyword returnType
  | .typeAlias typeParameters definition => .typeAlias typeParameters definition
  | .unknown => .unknown

/-- What is shown of an export of a module with the given id, by its description alone. -/
def describedExport (description : Description) (moduleId name : String) : ShownExport where
  name
  moduleId
  declaredIn := description.owningModule.filter (· ≠ moduleId)
  content := description.content
  location := description.location
  kind := describedKind description
  members := description.members

variable {docs : DocSet} {place : Nat} {doc : ExportDoc} {description : Description}

theorem memberAt_placed (block : Block docs (place, doc) description.members)
    (small : docs.size < UInt32.size) :
    ∀ pair ∈ description.placedMembers (docAt place), memberAt docs pair.2 = some pair.1 := by
  intro pair inside
  obtain ⟨⟨member, offset⟩, listed, rfl⟩ := List.mem_map.mp inside
  have known := List.mem_zipIdx_iff_getElem?.mp listed
  have bound := (List.getElem?_eq_some_iff.mp known).1
  have stands := block.behind offset member known
  have room := block.end_le
  have same : place + (offset + 1) = place + 1 + offset := by omega
  simp only at stands room
  simp only [memberAt, DocSet.member?, docAt_plus, same]
  rw [get?_docAt (by omega), stands]
  rfl

/-- A selection of placed members, looked up by their ids. -/
theorem map_memberAt_filter (block : Block docs (place, doc) description.members)
    (small : docs.size < UInt32.size) (chosen : Member → Bool) :
    (((description.placedMembers (docAt place)).filter (chosen ·.1)).map (·.2)).map (memberAt docs) =
      (description.members.filter chosen).map some := by
  have known := memberAt_placed block small
  rw [← members_placedMembers description (docAt place), List.filter_map, List.map_map, List.map_map]
  apply List.map_congr_left
  intro pair inside
  exact known pair (List.mem_of_mem_filter inside)

theorem shownKind_placed (block : Block docs (place, doc) description.members)
    (small : docs.size < UInt32.size) :
    shownKind docs (description.placedKind (docAt place)) = describedKind description := by
  have parts := map_memberAt_filter block small
  have all := parts fun _ => true
  simp only [List.filter_true] at all
  unfold Description.placedKind describedKind
  cases description.form with
  | class_ typeParameters heritage isAbstract =>
    simp only [shownKind, List.filter_filter, ← List.getLast?_map, ← parts]
  | interface typeParameters heritage callMember newMember =>
    simp [shownKind, all, Function.comp_def]
  | enum => simp only [shownKind, all]
  | function signature | variable_ keyword returnType | typeAlias typeParameters definition | unknown => rfl

end Shown

section Runs

variable {program : Program} {options : Options} {first last : List String}

/-- What is shown for an export that was met; nothing if it cannot be described. -/
def shownMet (program : Program) (options : Options) (pair : ModuleHead × ResolvedExport) :
    Option ShownExport :=
  (program.describe options pair.2.target).toOption.map (describedExport · pair.1.id pair.2.name)

/-- What a document says about an export is what its description says. -/
theorem shownMet_stands {docs : DocSet} {pair : ModuleHead × ResolvedExport} {entry : Nat × ExportDoc}
    (stands : Stands program options docs pair entry) (small : docs.size < UInt32.size) :
    shownMet program options pair = some (shownExport docs entry) := by
  obtain ⟨description, module, described, same, block⟩ := stands
  obtain ⟨place, doc⟩ := entry
  simp only at same
  subst same
  rw [shownMet, described, Except.toOption, Option.map_some, describedExport, shownExport,
    block.owned, ← shownKind_placed block small]
  rfl

theorem shownExports_emitted {visits : List Visit} {docs : DocSet}
    (emitted : Emitted program options visits docs) (small : docs.size < UInt32.size) :
    (shownExports docs).map some = (met visits).map (shownMet program options) := by
  rw [shownExports, List.map_map, ← List.forall₂_eq_eq_eq, List.forall₂_map_left_iff,
    List.forall₂_map_right_iff]
  refine emitted.exports.flip.imp ?_
  intro entry pair stands
  exact (shownMet_stands stands small).symm

variable {firstRoots lastRoots firstVisited lastVisited : List SymbolId}
  {firstVisits lastVisits : List Visit}

theorem metBy_unentered
    (walked : program.walk options [] (firstRoots.map .walk) = .ok (firstVisits, firstVisited))
    {id : SymbolId} (absent : id ∉ (enteredHeads firstVisits).map (·.symbol)) :
    metBy id firstVisits = [] := by
  apply List.filter_eq_nil_iff.mpr
  intro pair member own
  have entered := met_entered walked member
  exact absent (List.mem_map.mpr ⟨pair.1, entered, by simpa using own⟩)

/-- Among all that is met an export occurs as often as among what is met for its module. -/
theorem count_metBy (pair : ModuleHead × ResolvedExport) (visits : List Visit) :
    (metBy pair.1.symbol visits).count pair = (met visits).count pair :=
  List.count_filter (by simp)

/-- Two walks that enter the same modules meet the same exports, if not in the same order. -/
theorem met_perm
    (firstWalked : program.walk options [] (firstRoots.map .walk) = .ok (firstVisits, firstVisited))
    (lastWalked : program.walk options [] (lastRoots.map .walk) = .ok (lastVisits, lastVisited))
    (same : ∀ id, id ∈ (enteredHeads firstVisits).map (·.symbol) ↔
      id ∈ (enteredHeads lastVisits).map (·.symbol)) :
    (met firstVisits).Perm (met lastVisits) := by
  have byModule : ∀ id, metBy id firstVisits = metBy id lastVisits := by
    intro id
    by_cases entered : id ∈ (enteredHeads firstVisits).map (·.symbol)
    · obtain ⟨head, inFirst, rfl⟩ := List.mem_map.mp entered
      obtain ⟨other, inLast, sameSymbol⟩ := List.mem_map.mp ((same _).mp entered)
      have known := head_of_entered lastWalked inLast
      rw [sameSymbol, head_of_entered firstWalked inFirst] at known
      cases known
      obtain ⟨exports, resolved, listed⟩ := metBy_entered firstWalked inFirst
      obtain ⟨others, again, listedToo⟩ := metBy_entered lastWalked inLast
      rw [resolved] at again
      cases again
      rw [listed, listedToo]
    · rw [metBy_unentered firstWalked entered, metBy_unentered lastWalked (mt (same id).mpr entered)]
  apply List.perm_iff_count.mpr
  intro pair
  rw [← count_metBy, ← count_metBy, byModule]

/-- A request reaches what another one reaches whose files are among its own. -/
theorem reached_of_known {collected : List CollectedModule}
    (found : program.collectModules first = .ok collected)
    (known : ∀ name ∈ last, (program.findFile? name).isSome ∧
      ∃ earlier ∈ first, program.findFile? name = program.findFile? earlier)
    {module : SymbolId} (reached : Reached program options last module) :
    Reached program options first module := by
  obtain ⟨others, returned, inside⟩ := collectModules_known found known
  obtain ⟨again, foundAgain, root, listed, path⟩ := reached
  rw [returned] at foundAgain
  cases foundAgain
  exact ⟨collected, found, root, inside root listed, path⟩

theorem none_missing (found : ∀ name ∈ first, (program.findFile? name).isSome) :
    first.find? (fun name => (program.findFile? name).isNone) = none := by
  apply List.find?_eq_none.mpr
  intro name member
  simp [Option.isSome_iff_ne_none.mp (found name member)]

theorem known_of_files (found : ∀ name ∈ last, (program.findFile? name).isSome)
    (files : ∀ file ∈ last.filterMap program.findFile?, file ∈ first.filterMap program.findFile?) :
    ∀ name ∈ last, (program.findFile? name).isSome ∧
      ∃ earlier ∈ first, program.findFile? name = program.findFile? earlier := by
  intro name member
  obtain ⟨file, located⟩ := Option.isSome_iff_exists.mp (found name member)
  obtain ⟨earlier, listed, same⟩ :=
    List.mem_filterMap.mp (files file (List.mem_filterMap.mpr ⟨name, member, located⟩))
  exact ⟨found name member, earlier, listed, located.trans same.symm⟩

end Runs

section Requests

variable {program : Program} (closed : Closed program) {names first last : List String}

include closed

theorem collected_of_found (found : ∀ name ∈ names, (program.findFile? name).isSome) :
    ∃ collected, program.collectModules names = .ok collected := by
  obtain ⟨collected, returned, _⟩ := collectModules_returns closed (none_missing found)
  exact ⟨collected, returned⟩

/-- Requests for the same files reach the same modules. -/
theorem reached_congr (options : Options)
    (firstFound : ∀ name ∈ first, (program.findFile? name).isSome)
    (lastFound : ∀ name ∈ last, (program.findFile? name).isSome)
    (files : ∀ file, file ∈ first.filterMap program.findFile? ↔ file ∈ last.filterMap program.findFile?)
    (module : SymbolId) :
    Reached program options first module ↔ Reached program options last module := by
  obtain ⟨collected, found⟩ := collected_of_found closed firstFound
  obtain ⟨others, foundToo⟩ := collected_of_found closed lastFound
  constructor
  · exact reached_of_known foundToo (known_of_files firstFound fun file => (files file).mp)
  · exact reached_of_known found (known_of_files lastFound fun file => (files file).mpr)

/-- A request without missing names gives documents exactly if all types that it shows end. -/
theorem extract_returns_iff (options : Options)
    (found : ∀ name ∈ names, (program.findFile? name).isSome) :
    (∃ docs, program.extract options names = .ok docs) ↔
      ∀ id, ShownIn program options names id → HasType program id := by
  obtain ⟨result, returned, needs⟩ := extract_found closed options (none_missing found)
  rw [returned]
  cases result with
  | ok docs => exact iff_of_true ⟨docs, rfl⟩ needs
  | error fault =>
    obtain ⟨_, id, shown, untyped⟩ := needs
    exact iff_of_false (by simp [Except.mapError]) fun typed => untyped (typed id shown)

end Requests

section Extraction

variable {program : Program} {first last : List String}

/-- Two requests for the same files, whatever their order and however often each one is named: one
gives documents if the other does, for the same modules, and for each module id with the same
exports, apart from their order and from the ids of documents. -/
theorem extract_file_order (accepted : program.check = .ok ()) (options : Options)
    (firstFound : ∀ name ∈ first, (program.findFile? name).isSome)
    (lastFound : ∀ name ∈ last, (program.findFile? name).isSome)
    (files : ∀ file, file ∈ first.filterMap program.findFile? ↔
      file ∈ last.filterMap program.findFile?) :
    ((∃ docs, program.extract options first = .ok docs) ↔
      ∃ others, program.extract options last = .ok others) ∧
    ∀ docs others, program.extract options first = .ok docs → program.extract options last = .ok others →
      docs.size < UInt32.size → others.size < UInt32.size →
      (∀ id, id ∈ docs.modules.map (·.id) ↔ id ∈ others.modules.map (·.id)) ∧
      ∀ id, ((shownExports docs).filter (·.moduleId = id)).Perm
        ((shownExports others).filter (·.moduleId = id)) := by
  have closed := closed_of_check accepted
  have reached := reached_congr closed options firstFound lastFound files
  constructor
  · rw [extract_returns_iff closed options firstFound, extract_returns_iff closed options lastFound]
    simp only [ShownIn, reached]
  · intro docs others returned returnedToo small smallToo
    obtain ⟨emission, ran, rfl⟩ := extract_ok_iff.mp returned
    obtain ⟨otherEmission, ranToo, rfl⟩ := extract_ok_iff.mp returnedToo
    obtain ⟨_, visits, _, found, walked, folded, emitted⟩ := run_emitted ran (Nat.le_of_lt small)
    obtain ⟨_, otherVisits, _, foundToo, walkedToo, foldedToo, emittedToo⟩ :=
      run_emitted ranToo (Nat.le_of_lt smallToo)
    refine ⟨?_, fun id => List.Perm.filter _ ?_⟩
    · intro id
      refine (moduleIds_covered found walked folded id).trans ?_
      simp only [reached]
      exact (moduleIds_covered foundToo walkedToo foldedToo id).symm
    · apply (List.map_perm_map_iff fun _ _ => Option.some.inj).mp
      rw [shownExports_emitted emitted small, shownExports_emitted emittedToo smallToo]
      refine (met_perm walked walkedToo ?_).map _
      intro module
      rw [entered_iff_reached found walked, entered_iff_reached foundToo walkedToo, reached]

theorem extract_file_order_split :
    splitNamespace.check = .ok () ∧
      ((∃ docs, splitNamespace.extract {} ["a", "b"] = .ok docs) ↔
        ∃ others, splitNamespace.extract {} ["b", "./a", "a"] = .ok others) ∧
      ∃ others, splitNamespace.extract {} ["b", "./a", "a"] = .ok others ∧ others ≠ splitDocs ∧
        (∀ id, id ∈ splitDocs.modules.map (·.id) ↔ id ∈ others.modules.map (·.id)) ∧
        ∀ id, ((shownExports splitDocs).filter (·.moduleId = id)).Perm
          ((shownExports others).filter (·.moduleId = id)) := by
  have accepted : splitNamespace.check = .ok () := by decide +kernel
  have files : ∀ file, file ∈ ["a", "b"].filterMap splitNamespace.findFile? ↔
      file ∈ ["b", "./a", "a"].filterMap splitNamespace.findFile? := by
    have inOrder : ["a", "b"].filterMap splitNamespace.findFile? = [⟨0⟩, ⟨1⟩] := by decide +kernel
    have mixed : ["b", "./a", "a"].filterMap splitNamespace.findFile? = [⟨1⟩, ⟨0⟩, ⟨0⟩] := by
      decide +kernel
    intro file
    rw [inOrder, mixed]
    simp [or_comm]
  obtain ⟨both, same⟩ := extract_file_order accepted {} (by decide +kernel) (by decide +kernel) files
  obtain ⟨others, returned, different, small⟩ : ∃ others,
      splitNamespace.extract {} ["b", "./a", "a"] = .ok others ∧ others ≠ splitDocs ∧
        others.size < UInt32.size :=
    ⟨(splitNamespace.extract {} ["b", "./a", "a"]).toOption.getD {}, by decide +kernel,
      by decide +kernel, by decide +kernel⟩
  exact ⟨accepted, both, others, returned, different,
    same splitDocs others (by decide +kernel) returned (by decide +kernel) small⟩

end Extraction

end ApiDocs.Proofs.FileOrder
