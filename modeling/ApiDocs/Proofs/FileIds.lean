import ApiDocs.Proofs.FileNames

/-! Ids of files under the base directory and beside it. The id of a file under it is the path from there
without its extension, however many slashes the base directory ends with; for every other file there
might as well be no base directory. -/

namespace ApiDocs.Proofs.FileIds

open Text FileName FileNames

section Endings

/-- What a name may end with: an extension, or nothing of its own. -/
def endings : List String := extensions ++ [""]

/-- Of the given endings, one that the name has, and no longer one is. -/
structure Longest (endings : List String) (name : List Char) (ending : String) : Prop where
  listed : ending ∈ endings
  ends : ending.toList <:+ name
  longest : ∀ other ∈ endings, other.toList <:+ name → other.toList.length ≤ ending.toList.length

/-- No ending stands before a longer one that ends with it. -/
def LongestFirst (endings : List String) : Prop :=
  endings.Pairwise fun earlier later => ¬ earlier.toList <:+ later.toList

theorem endings_longestFirst : LongestFirst endings := by
  unfold LongestFirst
  decide

variable {candidates : List String} {name rest : List Char} {ending : String}

theorem Longest.rest_unique {other : String} {otherRest : List Char} (first : Longest candidates name ending)
    (second : Longest candidates name other) (split : name = rest ++ ending.toList)
    (splitToo : name = otherRest ++ other.toList) : rest = otherRest := by
  have lengths : ending.toList.length = other.toList.length :=
    Nat.le_antisymm (second.longest ending first.listed first.ends)
      (first.longest other second.listed second.ends)
  exact (List.append_inj' (split.symm.trans splitToo) lengths).1

/-- The first ending that a name turns out to have is the longest one. -/
theorem longest_of_found (ordered : LongestFirst candidates)
    (found : candidates.findSome? (fun ending => before? ending.toList name) = some rest) :
    ∃ ending, name = rest ++ ending.toList ∧ Longest candidates name ending := by
  induction candidates with
  | nil => cases found
  | cons ending candidates ih =>
    obtain ⟨before, others⟩ := List.pairwise_cons.mp ordered
    rw [List.findSome?_cons] at found
    cases taken : before? ending.toList name with
    | some short =>
      rw [taken] at found
      cases found
      have split := before?_eq_some.mp taken
      have ends : ending.toList <:+ name := ⟨rest, split.symm⟩
      refine ⟨ending, split, List.mem_cons_self, ends, List.forall_mem_cons.mpr ⟨fun _ => Nat.le_refl _, ?_⟩⟩
      intro other member endsToo
      apply Nat.le_of_not_lt
      intro longer
      exact before other member (List.suffix_of_suffix_length_le ends endsToo (Nat.le_of_lt longer))
    | none =>
      rw [taken] at found
      obtain ⟨other, split, longest⟩ := ih others found
      refine ⟨other, split, List.mem_cons_of_mem _ longest.listed, longest.ends,
        List.forall_mem_cons.mpr ⟨fun ⟨short, split⟩ => ?_, longest.longest⟩⟩
      rw [before?_eq_some.mpr split.symm] at taken
      cases taken

theorem findSome?_endings (name : List Char) :
    endings.findSome? (fun ending => before? ending.toList name) = some (withoutExtension name) := by
  have empty : before? [] name = some name := before?_eq_some.mpr (by simp)
  rw [endings, List.findSome?_append, withoutExtension]
  cases extensions.findSome? fun extension => before? extension.toList name with
  | some short => rfl
  | none => simp [empty]

/-- A name loses the longest extension that it has, or nothing if it has none. -/
theorem withoutExtension_eq_iff :
    withoutExtension name = rest ↔ ∃ ending, name = rest ++ ending.toList ∧ Longest endings name ending := by
  obtain ⟨own, split, longest⟩ := longest_of_found endings_longestFirst (findSome?_endings name)
  constructor
  · rintro rfl
    exact ⟨own, split, longest⟩
  · intro other
    obtain ⟨ending, splitToo, longestToo⟩ := other
    exact longest.rest_unique longestToo split splitToo

end Endings

section Directories

/-- The directory with a number of slashes behind it. -/
def withSlashes (directory : String) (count : Nat) : String :=
  directory ++ String.ofList (List.replicate count '/')

variable {base : String}

theorem withoutTrailingSlashes_withSlashes (solid : ¬ "/".toList <:+ base.toList) (count : Nat) :
    withoutTrailingSlashes (withSlashes base count).toList = base.toList := by
  have last : base.toList.reverse.dropWhile (· == '/') = base.toList.reverse := by
    cases turned : base.toList.reverse with
    | nil => rfl
    | cons c others =>
      apply List.dropWhile_cons_of_neg
      rintro same
      refine solid ⟨others.reverse, ?_⟩
      have straight := congrArg List.reverse turned
      rw [List.reverse_reverse, List.reverse_cons, eq_of_beq same] at straight
      exact straight.symm
  rw [withoutTrailingSlashes, withSlashes, String.toList_append, String.toList_ofList, List.reverse_append,
    List.reverse_replicate, List.dropWhile_append_of_pos, last, List.reverse_reverse]
  simp

/-- The name begins with the directory. -/
def Below (directory name : String) : Prop := (directory ++ "/").toList <+: name.toList

instance (directory name : String) : Decidable (Below directory name) :=
  inferInstanceAs (Decidable (_ <+: _))

theorem under_iff_below (solid : ¬ "/".toList <:+ base.toList) (nonempty : base ≠ "") (count : Nat)
    {name : String} :
    Under (withoutTrailingSlashes (withSlashes base count).toList) name.toList ↔ Below base name := by
  have some : base.toList ≠ [] := by simpa using nonempty
  rw [withoutTrailingSlashes_withSlashes solid, Under, Below, String.toList_append]
  exact and_iff_right some

theorem relativeTo_below (solid : ¬ "/".toList <:+ base.toList) (nonempty : base ≠ "") (count : Nat)
    (path : String) :
    relativeTo (withSlashes base count).toList (base ++ "/" ++ path).toList = path.toList := by
  have cut := withoutTrailingSlashes_withSlashes solid count
  have some : withoutTrailingSlashes (withSlashes base count).toList ≠ [] := by simpa [cut] using nonempty
  have whole : (base ++ "/" ++ path).toList =
      withoutTrailingSlashes (withSlashes base count).toList ++ '/' :: path.toList := by
    simp [cut]
  rw [whole, relativeTo_of_under some]

end Directories

section Ids

theorem isPlain_iff {path : List Char} : IsPlain path ↔ ¬ "./".toList <+: path := by
  rw [IsPlain, Option.eq_none_iff_forall_ne_some]
  refine ⟨fun plain dotted => ?_, fun plain rest found => ?_⟩
  · obtain ⟨rest, rfl⟩ := dotted
    exact plain rest (after?_eq_some.mpr rfl)
  · exact plain ⟨rest, (after?_eq_some.mp found).symm⟩

theorem plainChars_eq_iff {path rest : List Char} :
    plainChars path = rest ↔ path = "./".toList ++ rest ∨ ¬ "./".toList <+: path ∧ path = rest := by
  rw [← isPlain_iff]
  rcases plain_or_dotted path with plain | ⟨other, rfl⟩
  · have undotted : path ≠ "./".toList ++ rest := fun same => isPlain_iff.mp plain ⟨rest, same.symm⟩
    rw [plainChars_of_plain plain]
    exact ((or_iff_right undotted).trans (and_iff_right plain)).symm
  · have dotted : ¬ IsPlain ('.' :: '/' :: other) := fun plain => isPlain_iff.mp plain ⟨other, rfl⟩
    simp [plainChars_dotted, dotted]

/-- How a path spells an id: before it stands `./` or nothing, and behind it the longest extension that
there is, or nothing. -/
structure Spells (path id start ending : String) : Prop where
  whole : path = start ++ id ++ ending
  leading : start = "./" ∨ start = "" ∧ ¬ "./".toList <+: path.toList
  longest : Longest endings (id ++ ending).toList ending

theorem spells_iff {path id : String} :
    withoutExtension (plainChars path.toList) = id.toList ↔ ∃ start ending, Spells path id start ending := by
  rw [withoutExtension_eq_iff]
  constructor
  · intro split
    obtain ⟨ending, whole, longest⟩ := split
    have named : Longest endings (id ++ ending).toList ending := by
      rwa [String.toList_append, ← whole]
    rcases plainChars_eq_iff.mp whole with dotted | ⟨plain, same⟩
    · refine ⟨"./", ending, ?_, .inl rfl, named⟩
      simpa [← String.toList_inj] using dotted
    · refine ⟨"", ending, ?_, .inr ⟨rfl, plain⟩, named⟩
      simpa [← String.toList_inj] using same
  · intro spelled
    obtain ⟨start, ending, whole, leading, longest⟩ := spelled
    have plain : plainChars path.toList = id.toList ++ ending.toList := by
      apply plainChars_eq_iff.mpr
      rcases leading with rfl | ⟨rfl, undotted⟩
      · exact .inl (by simp [whole])
      · exact .inr ⟨undotted, by simp [whole]⟩
    exact ⟨ending, plain, by rwa [plain, ← String.toList_append]⟩

theorem longest_endings {name : List Char} {ending : String} (longest : Longest extensions name ending) :
    Longest endings name ending := by
  refine ⟨List.mem_append_left _ longest.listed, longest.ends, fun other member ends => ?_⟩
  rcases List.mem_append.mp member with listed | empty
  · exact longest.longest other listed ends
  · rw [List.mem_singleton.mp empty]
    exact Nat.zero_le _

/-- An extension does not make a path begin with `./`. -/
theorem undotted_append {path ending : String} (listed : ending ∈ extensions)
    (undotted : ¬ "./".toList <+: path.toList) : ¬ "./".toList <+: (path ++ ending).toList := by
  have firsts : ∀ extension ∈ extensions, ¬ "./".toList <+: extension.toList ∧ ¬ ['/'] <+: extension.toList := by
    decide
  obtain ⟨notBoth, notSlash⟩ := firsts ending listed
  rw [String.toList_append]
  match path.toList, undotted with
  | [], _ => exact notBoth
  | [_], _ => exact fun dotted => notSlash (List.cons_prefix_cons.mp dotted).2
  | _ :: _ :: _, undotted =>
    intro dotted
    exact undotted (List.prefix_of_prefix_length_le dotted (List.prefix_append _ _) (by simp))

end Ids

section Relative

variable {base : String} (solid : ¬ "/".toList <:+ base.toList) (nonempty : base ≠ "") (count : Nat)

include solid nonempty

/-- The id of a file under the base directory is what its path from there spells. -/
theorem moduleId_below_iff {path id : String} :
    moduleId (withSlashes base count) (base ++ "/" ++ path) = id ↔
      ∃ start ending, Spells path id start ending := by
  rw [moduleId, relativeTo_below solid nonempty, ← spells_iff, ← String.toList_inj, String.toList_ofList]

theorem moduleId_beside {name : String} (beside : ¬ Below base name) :
    moduleId (withSlashes base count) name = moduleId "" name := by
  have outside := mt (under_iff_below solid nonempty count).mp beside
  rw [moduleId, moduleId, relativeTo_of_not_under outside]
  rfl

/-- Under a base directory the id of a file is its path from there without its extension, and beside it
the same as with no base directory. Two files under it have one id if and only if their paths spell the
same id, so that they differ in an extension or a leading `./` at most. -/
theorem moduleId_relative :
    (∀ path ending : String, ¬ "./".toList <+: path.toList →
      Longest extensions (path ++ ending).toList ending →
      moduleId (withSlashes base count) (base ++ "/" ++ path ++ ending) = path) ∧
    (∀ name, ¬ Below base name → moduleId (withSlashes base count) name = moduleId "" name) ∧
    ∀ first second : String,
      moduleId (withSlashes base count) (base ++ "/" ++ first) =
          moduleId (withSlashes base count) (base ++ "/" ++ second) ↔
        ∃ id, (∃ start ending, Spells first id start ending) ∧ ∃ start ending, Spells second id start ending := by
  refine ⟨fun path ending undotted longest => ?_, fun name => moduleId_beside solid nonempty count, ?_⟩
  · rw [String.append_assoc]
    refine (moduleId_below_iff solid nonempty count).mpr ⟨"", ending, by simp, .inr ⟨rfl, ?_⟩, ?_⟩
    · exact undotted_append longest.listed undotted
    · exact longest_endings longest
  · intro first second
    constructor
    · intro same
      exact ⟨_, (moduleId_below_iff solid nonempty count).mp same,
        (moduleId_below_iff solid nonempty count).mp rfl⟩
    · intro common
      obtain ⟨id, spelled, spelledToo⟩ := common
      exact ((moduleId_below_iff solid nonempty count).mpr spelled).trans
        ((moduleId_below_iff solid nonempty count).mpr spelledToo).symm

end Relative

/-- The longer of two extensions goes, a directory whose name only begins like the base directory is not
taken off, and one id is spelled in two ways. -/
theorem moduleId_relative_facade :
    ¬ "/".toList <:+ "/src".toList ∧ "/src" ≠ "" ∧
      moduleId (withSlashes "/src" 2) ("/src" ++ "/" ++ "lib/facade" ++ ".d.ts") = "lib/facade" ∧
      moduleId (withSlashes "/src" 2) "/srcs/other.ts" = moduleId "" "/srcs/other.ts" ∧
      moduleId (withSlashes "/src" 2) ("/src" ++ "/" ++ "lib/facade.d.ts") =
        moduleId (withSlashes "/src" 2) ("/src" ++ "/" ++ "./lib/facade.jsx") := by
  have solid : ¬ "/".toList <:+ "/src".toList := by decide
  have nonempty : "/src" ≠ "" := by decide
  obtain ⟨below, beside, shared⟩ := moduleId_relative solid nonempty 2
  refine ⟨solid, nonempty, ?_, beside _ (by decide), (shared _ _).mpr ?_⟩
  · exact below _ _ (by decide) ⟨by decide, by decide, by decide⟩
  · refine ⟨"lib/facade", ⟨"", ".d.ts", by decide, by decide, ?_⟩, "./", ".jsx", by decide, by decide, ?_⟩
    · exact ⟨by decide, by decide, by decide⟩
    · exact ⟨by decide, by decide, by decide⟩

end ApiDocs.Proofs.FileIds
