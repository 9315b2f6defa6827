import ApiDocs.Proofs.FileOrder
import ApiDocs.Proofs.Provenance
import Mathlib.Data.List.Perm.Subperm

/-! Patterns for exports to ignore. With more of them the walk may miss whole namespaces and enter the
others in another order, but each module and each export that is left is documented as before. -/

namespace ApiDocs.Proofs.ExportPatterns

open Blocks Coverage References DeclaredTypes ExtractionOutcome FileOrder Provenance

/-- The same choices, except for the exports to ignore. -/
def ignoring (options : Options) (patterns : List Pattern) : Options :=
  { options with ignoreExports := patterns }

section Reach

variable {program : Program} {options : Options} {patterns : List Pattern}

theorem describe_ignoring (target : Option SymbolId) :
    program.describe (ignoring options patterns) target = program.describe options target := rfl

theorem shows_ignoring {target : Option SymbolId} {id : DeclId} :
    Shows program (ignoring options patterns) target id ↔ Shows program options target id := Iff.rfl

variable (more : options.ignoreExports ⊆ patterns)

include more

theorem ignores_more {name : String} (shown : (ignoring options patterns).ignores name = false) :
    options.ignores name = false := by
  simp only [Options.ignores, ignoring, Pattern.anyMatch, Bool.or_eq_false_iff, List.any_eq_false] at shown ⊢
  exact ⟨shown.1, fun pattern member => shown.2 pattern (more member)⟩

theorem nests_fewer {module inner : SymbolId}
    (nests : Nests program (ignoring options patterns) module inner) :
    Nests program options module inner := by
  obtain ⟨exports, resolved, export_, member, shown, nested⟩ := nests
  exact ⟨exports, resolved, export_, member, ignores_more more shown, nested⟩

theorem path_fewer {root module : SymbolId}
    (path : Relation.ReflTransGen (Nests program (ignoring options patterns)) root module) :
    Relation.ReflTransGen (Nests program options) root module := by
  induction path with
  | refl => exact .refl
  | tail _ nests ih => exact .tail ih (nests_fewer more nests)

theorem reached_fewer {names : List String} {module : SymbolId}
    (reached : Reached program (ignoring options patterns) names module) :
    Reached program options names module := by
  obtain ⟨collected, found, root, member, path⟩ := reached
  exact ⟨collected, found, root, member, path_fewer more path⟩

theorem isDocumented_fewer {export_ : ResolvedExport}
    (documented : isDocumented program (ignoring options patterns) export_ = true) :
    isDocumented program options export_ = true := by
  simp only [isDocumented, Bool.and_eq_true, Bool.not_eq_true'] at documented ⊢
  exact ⟨ignores_more more documented.1, documented.2⟩

theorem shownIn_fewer {names : List String} {id : DeclId}
    (shown : ShownIn program (ignoring options patterns) names id) : ShownIn program options names id := by
  obtain ⟨module, position, export_, reached, ⟨exports, resolved, here, documented⟩, shows⟩ := shown
  refine ⟨module, position, export_, reached_fewer more reached, ?_, shows_ignoring.mp shows⟩
  exact ⟨exports, resolved, here, isDocumented_fewer more documented⟩

end Reach

section Walks

variable {program : Program} {options : Options} {patterns : List Pattern}
  {roots visited fewerVisited : List SymbolId} {visits fewerVisits : List Visit}

/-- A walk that ignores more exports meets, for every module, a part of what the other walk meets. -/
theorem metBy_sublist (more : options.ignoreExports ⊆ patterns)
    (walked : program.walk options [] (roots.map .walk) = .ok (visits, visited))
    (fewerWalked : program.walk (ignoring options patterns) [] (roots.map .walk) =
      .ok (fewerVisits, fewerVisited))
    (id : SymbolId) : (metBy id fewerVisits).Sublist (metBy id visits) := by
  by_cases entered : id ∈ (enteredHeads fewerVisits).map (·.symbol)
  · obtain ⟨head, inFewer, rfl⟩ := List.mem_map.mp entered
    obtain ⟨root, listed, path⟩ := (entered_iff fewerWalked _).mp entered
    have enteredToo := (entered_iff walked _).mpr ⟨root, listed, path_fewer more path⟩
    obtain ⟨other, inOther, same⟩ := List.mem_map.mp enteredToo
    have known := head_of_entered walked inOther
    rw [same, show program.moduleHead options.baseDir head.symbol = .ok head from
      head_of_entered fewerWalked inFewer] at known
    cases known
    obtain ⟨exports, resolved, met⟩ := metBy_entered walked inOther
    obtain ⟨others, again, metFewer⟩ := metBy_entered fewerWalked inFewer
    rw [resolved] at again
    cases again
    rw [met, metFewer]
    apply List.Sublist.map
    apply List.monotone_filter_right
    intro export_
    exact isDocumented_fewer more
  · rw [metBy_unentered fewerWalked entered]
    exact List.nil_sublist _

theorem met_subperm (more : options.ignoreExports ⊆ patterns)
    (walked : program.walk options [] (roots.map .walk) = .ok (visits, visited))
    (fewerWalked : program.walk (ignoring options patterns) [] (roots.map .walk) =
      .ok (fewerVisits, fewerVisited)) :
    (met fewerVisits).Subperm (met visits) := by
  apply List.subperm_ext_iff.mpr
  intro pair _
  rw [← count_metBy, ← count_metBy]
  exact (metBy_sublist more walked fewerWalked pair.1.symbol).count_le pair

end Walks

section Extraction

variable {program : Program} {options : Options} {patterns : List Pattern} {names : List String}
  {docs fewer : DocSet}

theorem shownExports_subperm (more : options.ignoreExports ⊆ patterns)
    (returned : program.extract options names = .ok docs) (small : docs.size < UInt32.size)
    (fewerReturned : program.extract (ignoring options patterns) names = .ok fewer)
    (fewerSmall : fewer.size < UInt32.size) :
    (shownExports fewer).Subperm (shownExports docs) := by
  obtain ⟨collected, visits, _, found, walked, emitted⟩ := extract_emitted returned small
  obtain ⟨again, fewerVisits, _, foundAgain, fewerWalked, fewerEmitted⟩ :=
    extract_emitted fewerReturned fewerSmall
  rw [found] at foundAgain
  cases foundAgain
  have same : shownMet program (ignoring options patterns) = shownMet program options := by
    funext pair
    rw [shownMet, describe_ignoring, shownMet]
  -- What is shown of an export depends on it alone, so a part of those met is a part of those shown.
  obtain ⟨part, listed, within⟩ := met_subperm more walked fewerWalked
  apply (List.map_subperm_map_iff fun _ _ => Option.some.inj).mp
  rw [shownExports_emitted emitted small, shownExports_emitted fewerEmitted fewerSmall, same]
  exact ⟨part.map _, listed.map _, within.map _⟩

theorem moduleIds_iff (returned : program.extract options names = .ok docs) (id : String) :
    id ∈ docs.modules.map (·.id) ↔
      ∃ module, Reached program options names module ∧ program.moduleId options.baseDir module = .ok id := by
  obtain ⟨emission, ran, rfl⟩ := extract_ok_iff.mp returned
  obtain ⟨collected, visits, visited, found, walked, folded⟩ := run_ok_iff.mp ran
  exact moduleIds_covered found (by simpa [Function.comp_def] using walked) folded id

/-- Options that ignore more exports and are the same otherwise. A request that gave documents still
gives some, only for modules that had one before, and for each module id the exports are a part of the
earlier ones, apart from their order and from the ids of documents. -/
theorem extract_more_patterns (accepted : program.check = .ok ())
    (more : options.ignoreExports ⊆ patterns) (found : ∀ name ∈ names, (program.findFile? name).isSome) :
    ((∃ docs, program.extract options names = .ok docs) →
      ∃ fewer, program.extract (ignoring options patterns) names = .ok fewer) ∧
    ∀ docs fewer, program.extract options names = .ok docs →
      program.extract (ignoring options patterns) names = .ok fewer →
      docs.size < UInt32.size → fewer.size < UInt32.size →
      (∀ id ∈ fewer.modules.map (·.id), id ∈ docs.modules.map (·.id)) ∧
      ∀ id, ((shownExports fewer).filter (·.moduleId = id)).Subperm
        ((shownExports docs).filter (·.moduleId = id)) := by
  have closed := closed_of_check accepted
  constructor
  · rw [extract_returns_iff closed _ found, extract_returns_iff closed _ found]
    intro typed id shown
    exact typed id (shownIn_fewer more shown)
  · intro docs fewer returned fewerReturned small fewerSmall
    constructor
    · intro id member
      obtain ⟨module, reached, named⟩ := (moduleIds_iff fewerReturned id).mp member
      exact (moduleIds_iff returned id).mpr ⟨module, reached_fewer more reached, named⟩
    · intro id
      exact (shownExports_subperm more returned small fewerReturned fewerSmall).filter _

/-- A module that exports a namespace of another file under a name of its own. -/
def borrowed : Program where
  files := #[{ name := "a", moduleSymbol := some ⟨0⟩ }, { name := "b", statements := [⟨2⟩] }]
  symbols := #[
    { name := "a", flags := SymbolFlags.valueModule, exports := [⟨1⟩, ⟨3⟩, ⟨4⟩] },
    { name := "_n", flags := SymbolFlags.alias_, aliasOf := some ⟨2⟩ },
    { name := "n", flags := SymbolFlags.namespaceModule, exports := [⟨5⟩, ⟨1⟩] },
    { name := "_v", flags := SymbolFlags.blockScopedVariable, declarations := [⟨0⟩], parent := some ⟨0⟩ },
    { name := "f", flags := SymbolFlags.function, declarations := [⟨1⟩], parent := some ⟨0⟩ },
    { name := "g", flags := SymbolFlags.function, declarations := [⟨2⟩], parent := some ⟨2⟩ }]
  declarations := #[
    { kind := .variable_, file := ⟨0⟩, name := "_v" },
    { kind := .function, file := ⟨0⟩, name := "f" },
    { kind := .function, file := ⟨1⟩, name := "g" }]

def underscored : List Pattern := (Pattern.read "^_").toList

/-- Without the names that begin with an underscore the namespace is entered through its own file, after
all of the module, and one of three exports is gone. -/
theorem extract_more_patterns_borrowed :
    borrowed.check = .ok () ∧
      ∃ docs fewer, borrowed.extract {} ["a", "b"] = .ok docs ∧
        borrowed.extract (ignoring {} underscored) ["a", "b"] = .ok fewer ∧
        (shownExports docs).map (·.name) = ["g", "_v", "f"] ∧
        (shownExports fewer).map (·.name) = ["f", "g"] ∧
        (∀ id ∈ fewer.modules.map (·.id), id ∈ docs.modules.map (·.id)) ∧
        ∀ id, ((shownExports fewer).filter (·.moduleId = id)).Subperm
          ((shownExports docs).filter (·.moduleId = id)) := by
  have accepted : borrowed.check = .ok () := by decide +kernel
  have found : ∀ name ∈ ["a", "b"], (borrowed.findFile? name).isSome := by decide +kernel
  have more : ({} : Options).ignoreExports ⊆ underscored := List.nil_subset _
  obtain ⟨_, parts⟩ := extract_more_patterns accepted more found
  obtain ⟨docs, returned, small, all⟩ : ∃ docs, borrowed.extract {} ["a", "b"] = .ok docs ∧
      docs.size < UInt32.size ∧ (shownExports docs).map (·.name) = ["g", "_v", "f"] :=
    ⟨(borrowed.extract {} ["a", "b"]).toOption.getD {}, by decide +kernel, by decide +kernel,
      by decide +kernel⟩
  obtain ⟨fewer, fewerReturned, fewerSmall, left⟩ : ∃ fewer,
      borrowed.extract (ignoring {} underscored) ["a", "b"] = .ok fewer ∧ fewer.size < UInt32.size ∧
        (shownExports fewer).map (·.name) = ["f", "g"] :=
    ⟨(borrowed.extract (ignoring {} underscored) ["a", "b"]).toOption.getD {}, by decide +kernel,
      by decide +kernel, by decide +kernel⟩
  exact ⟨accepted, docs, fewer, returned, fewerReturned, all, left,
    parts docs fewer returned fewerReturned small fewerSmall⟩

end Extraction

end ApiDocs.Proofs.ExportPatterns
