import ApiDocs.FileName

/-! Names of one file and the module ids they give. Two names mean the same file if they differ in a
leading `./` only. The base directory is taken off a name as it is written, before a leading `./` is, so
names of a file under the base directory give different ids, and those of all other files the same. -/

namespace ApiDocs.Proofs.FileNames

open Text FileName

section PlainForms

/-- The name has no leading `./`. -/
def IsPlain (name : List Char) : Prop := after? ['.', '/'] name = none

theorem plainChars_of_plain {name : List Char} (plain : IsPlain name) : plainChars name = name := by
  rw [plainChars, show after? ['.', '/'] name = none from plain]
  rfl

theorem plainChars_dotted (name : List Char) : plainChars ('.' :: '/' :: name) = name := by
  simp [plainChars, after?]

theorem plain_or_dotted (name : List Char) : IsPlain name ∨ ∃ rest, name = '.' :: '/' :: rest := by
  cases dotted : after? ['.', '/'] name with
  | none => exact .inl dotted
  | some rest => exact .inr ⟨rest, after?_eq_some.mp dotted⟩

/-- Two names of one file are equal, or one of them is the other with `./` before it. -/
theorem same_file_cases {first second : List Char} (same : plainChars first = plainChars second) :
    first = second ∨ IsPlain first ∧ second = '.' :: '/' :: first ∨
      IsPlain second ∧ first = '.' :: '/' :: second := by
  rcases plain_or_dotted first with plain | ⟨rest, rfl⟩
  · rcases plain_or_dotted second with plainToo | ⟨other, rfl⟩
    · rw [plainChars_of_plain plain, plainChars_of_plain plainToo] at same
      exact .inl same
    · rw [plainChars_of_plain plain, plainChars_dotted] at same
      exact .inr (.inl ⟨plain, by rw [same]⟩)
  · rcases plain_or_dotted second with plain | ⟨other, rfl⟩
    · rw [plainChars_of_plain plain, plainChars_dotted] at same
      exact .inr (.inr ⟨plain, by rw [same]⟩)
    · rw [plainChars_dotted, plainChars_dotted] at same
      exact .inl (by rw [same])

end PlainForms

section Extensions

theorem after?_append_slash {start : List Char} (solid : '/' ∉ start) (chars more : List Char) :
    after? start (chars ++ '/' :: more) = (after? start chars).map (· ++ '/' :: more) := by
  induction start generalizing chars with
  | nil => rfl
  | cons s start ih =>
    obtain ⟨different, rest⟩ := not_or.mp (mt List.mem_cons.mpr solid)
    cases chars with
    | nil => simp [after?, Ne.symm different]
    | cons c chars =>
      simp only [List.cons_append, after?]
      split
      · exact ih rest chars
      · rfl

/-- An ending without slashes is looked for in the last segment of a path. -/
theorem before?_slash {ending : List Char} (solid : '/' ∉ ending) (directory name : List Char) :
    before? ending (directory ++ '/' :: name) = (before? ending name).map (directory ++ '/' :: ·) := by
  have turned : (directory ++ '/' :: name).reverse = name.reverse ++ '/' :: directory.reverse := by simp
  rw [before?, turned, after?_append_slash (by simpa using solid), before?]
  simp [Function.comp_def]

theorem extensions_solid : ∀ extension ∈ extensions, '/' ∉ extension.toList := by decide

theorem findSome?_slash {endings : List String} (solid : ∀ ending ∈ endings, '/' ∉ ending.toList)
    (directory name : List Char) :
    endings.findSome? (fun ending => before? ending.toList (directory ++ '/' :: name)) =
      (endings.findSome? fun ending => before? ending.toList name).map (directory ++ '/' :: ·) := by
  induction endings with
  | nil => rfl
  | cons ending endings ih =>
    have others := ih fun other member => solid other (List.mem_cons_of_mem _ member)
    rw [List.findSome?_cons, List.findSome?_cons, before?_slash (solid ending List.mem_cons_self), others]
    cases before? ending.toList name <;> rfl

/-- The extension of a path is that of its last segment. -/
theorem withoutExtension_slash (directory name : List Char) :
    withoutExtension (directory ++ '/' :: name) = directory ++ '/' :: withoutExtension name := by
  rw [withoutExtension, withoutExtension, findSome?_slash extensions_solid]
  cases extensions.findSome? fun extension => before? extension.toList name <;> rfl

theorem length_withoutExtension_plainChars (name : List Char) :
    (withoutExtension (plainChars name)).length ≤ (withoutExtension name).length := by
  rcases plain_or_dotted name with plain | ⟨rest, rfl⟩
  · exact Nat.le_of_eq (by rw [plainChars_of_plain plain])
  · rw [plainChars_dotted, show '.' :: '/' :: rest = ['.'] ++ '/' :: rest from rfl,
      withoutExtension_slash]
    simp only [List.length_append, List.length_cons]
    omega

/-- A path does not lose its directory with its extension. -/
theorem withoutExtension_ne (directory name : List Char) :
    withoutExtension (directory ++ '/' :: name) ≠ withoutExtension (plainChars name) := by
  intro same
  have lengths := congrArg List.length same
  have bound := length_withoutExtension_plainChars name
  rw [withoutExtension_slash, List.length_append, List.length_cons] at lengths
  omega

end Extensions

section Directories

/-- The name is that of a file somewhere in the directory. -/
def Under (directory name : List Char) : Prop := directory ≠ [] ∧ directory ++ ['/'] <+: name

instance (directory name : List Char) : Decidable (Under directory name) :=
  inferInstanceAs (Decidable (_ ∧ _))

variable {base name : List Char}

theorem under_iff {directory : List Char} :
    Under directory name ↔ directory ≠ [] ∧ ∃ rest, name = directory ++ '/' :: rest := by
  refine and_congr_right fun _ => exists_congr fun rest => ?_
  rw [List.append_assoc]
  exact eq_comm

theorem relativeTo_of_under {rest : List Char} (nonempty : withoutTrailingSlashes base ≠ []) :
    relativeTo base (withoutTrailingSlashes base ++ '/' :: rest) = rest := by
  unfold relativeTo
  cases directory : withoutTrailingSlashes base with
  | nil => exact absurd directory nonempty
  | cons c segments =>
    have below : after? (c :: segments ++ ['/']) (c :: segments ++ '/' :: rest) = some rest :=
      after?_eq_some.mpr (by simp)
    simp only [below, Option.getD_some]

theorem relativeTo_of_not_under (outside : ¬ Under (withoutTrailingSlashes base) name) :
    relativeTo base name = name := by
  unfold relativeTo
  cases directory : withoutTrailingSlashes base with
  | nil => rfl
  | cons c segments =>
    cases below : after? (c :: segments ++ ['/']) name with
    | none => simp only [below, Option.getD_none]
    | some rest =>
      refine absurd (under_iff.mpr ?_) outside
      exact ⟨by simp [directory], rest, by simpa [directory] using after?_eq_some.mp below⟩

/-- Without the slashes at its end a directory is not `./`. -/
theorem withoutTrailingSlashes_ne_dotted : withoutTrailingSlashes base ≠ ['.', '/'] := by
  intro same
  have turned : base.reverse.dropWhile (· == '/') = ['/', '.'] := by
    simpa [withoutTrailingSlashes] using congrArg List.reverse same
  have first := List.head?_dropWhile_not (· == '/') base.reverse
  rw [turned] at first
  simp at first

theorem plainChars_relativeTo_of_not_under (plain : IsPlain name)
    (outside : ¬ Under (withoutTrailingSlashes base) name) : plainChars (relativeTo base name) = name := by
  rw [relativeTo_of_not_under outside, plainChars_of_plain plain]

/-- A base directory without `./` takes no more than that off a name with it. -/
theorem plainChars_relativeTo_dotted (plainBase : IsPlain (withoutTrailingSlashes base))
    (plain : IsPlain name) : plainChars (relativeTo base ('.' :: '/' :: name)) = name := by
  by_cases under : Under (withoutTrailingSlashes base) ('.' :: '/' :: name)
  · obtain ⟨nonempty, rest, same⟩ := under_iff.mp under
    rw [same, relativeTo_of_under nonempty]
    match directory : withoutTrailingSlashes base with
    | [] => exact absurd directory nonempty
    | [_] =>
      rw [directory] at same
      cases same
      exact plainChars_of_plain plain
    | _ :: _ :: _ =>
      rw [directory] at same plainBase
      cases same
      simp [IsPlain, after?] at plainBase
  · rw [relativeTo_of_not_under under, plainChars_dotted]

/-- What is left of a name and of its dotted form differs only if the file is under the base directory.
Then one of the two keeps the directory and the other does not. -/
theorem relativeTo_cases (base : List Char) (plain : IsPlain name) :
    ¬ Under (plainChars (withoutTrailingSlashes base)) name ∧
        plainChars (relativeTo base name) = name ∧
        plainChars (relativeTo base ('.' :: '/' :: name)) = name ∨
      Under (plainChars (withoutTrailingSlashes base)) name ∧
        ∃ directory rest, name = directory ++ '/' :: rest ∧
          (plainChars (relativeTo base name) = plainChars rest ∧
              plainChars (relativeTo base ('.' :: '/' :: name)) = name ∨
            plainChars (relativeTo base name) = name ∧
              plainChars (relativeTo base ('.' :: '/' :: name)) = plainChars rest) := by
  rcases plain_or_dotted (withoutTrailingSlashes base) with plainBase | ⟨directory, dotted⟩
  · rw [plainChars_of_plain plainBase]
    have other := plainChars_relativeTo_dotted plainBase plain
    by_cases under : Under (withoutTrailingSlashes base) name
    · obtain ⟨nonempty, rest, rfl⟩ := under_iff.mp under
      exact .inr ⟨under, _, rest, rfl, .inl ⟨by rw [relativeTo_of_under nonempty], other⟩⟩
    · exact .inl ⟨under, plainChars_relativeTo_of_not_under plain under, other⟩
  · rw [dotted, plainChars_dotted]
    have nonempty : directory ≠ [] := by
      rintro rfl
      exact withoutTrailingSlashes_ne_dotted dotted
    have own : plainChars (relativeTo base name) = name := by
      refine plainChars_relativeTo_of_not_under plain fun under => ?_
      obtain ⟨_, rest, rfl⟩ := under_iff.mp under
      simp [dotted, IsPlain, after?] at plain
    by_cases under : Under directory name
    · obtain ⟨_, rest, rfl⟩ := under_iff.mp under
      refine .inr ⟨under, directory, rest, rfl, .inr ⟨own, ?_⟩⟩
      have below : '.' :: '/' :: (directory ++ '/' :: rest) = withoutTrailingSlashes base ++ '/' :: rest := by
        rw [dotted]
        rfl
      rw [below, relativeTo_of_under (by simp [dotted])]
    · refine .inl ⟨under, own, ?_⟩
      rw [relativeTo_of_not_under, plainChars_dotted]
      intro dottedUnder
      obtain ⟨_, rest, same⟩ := under_iff.mp dottedUnder
      rw [dotted] at same
      cases same
      exact under (under_iff.mpr ⟨nonempty, rest, rfl⟩)

end Directories

section Ids

/-- A plain name and its dotted form give the same id exactly if the file is not under the base
directory. -/
theorem ids_eq_iff (base : List Char) {name : List Char} (plain : IsPlain name) :
    withoutExtension (plainChars (relativeTo base name)) =
        withoutExtension (plainChars (relativeTo base ('.' :: '/' :: name))) ↔
      ¬ Under (plainChars (withoutTrailingSlashes base)) name := by
  rcases relativeTo_cases base plain with ⟨outside, own, other⟩ |
    ⟨under, directory, rest, rfl, ⟨own, other⟩ | ⟨own, other⟩⟩
  · rw [own, other]
    exact iff_of_true rfl outside
  · rw [own, other]
    exact iff_of_false (withoutExtension_ne directory rest).symm fun outside => outside under
  · rw [own, other]
    exact iff_of_false (withoutExtension_ne directory rest) fun outside => outside under

theorem dotted_ne (name : List Char) : name ≠ '.' :: '/' :: name := by
  intro same
  have lengths := congrArg List.length same
  simp only [List.length_cons] at lengths
  omega

/-- Two different names of one file give the same module id if and only if the file is not under the base
directory, where a `./` before either of them does not count. -/
theorem moduleId_eq_iff (base : String) {first second : String} (same : plain first = plain second) :
    moduleId base first = moduleId base second ↔
      first = second ∨
        ¬ Under (plainChars (withoutTrailingSlashes base.toList)) (plainChars first.toList) := by
  have sameChars : plainChars first.toList = plainChars second.toList := String.ofList_inj.mp same
  have ids : moduleId base first = moduleId base second ↔
      withoutExtension (plainChars (relativeTo base.toList first.toList)) =
        withoutExtension (plainChars (relativeTo base.toList second.toList)) := String.ofList_inj
  rw [ids, ← String.toList_inj]
  rcases same_file_cases sameChars with equal | ⟨plain, dotted⟩ | ⟨plain, dotted⟩
  · simp [equal]
  · rw [dotted, ids_eq_iff _ plain, plainChars_of_plain plain]
    simp [dotted_ne]
  · rw [dotted, eq_comm, ids_eq_iff _ plain, plainChars_dotted]
    simp [(dotted_ne _).symm]

/-- A file beside the base directory has one id under both of its names, and a file in it has two. -/
theorem moduleId_eq_iff_source :
    plain "lib/a.ts" = plain "./lib/a.ts" ∧ moduleId "src" "lib/a.ts" = moduleId "src" "./lib/a.ts" ∧
      plain "src/a.ts" = plain "./src/a.ts" ∧ moduleId "src/" "src/a.ts" ≠ moduleId "src/" "./src/a.ts" := by
  have other : plain "lib/a.ts" = plain "./lib/a.ts" := by decide
  have same : plain "src/a.ts" = plain "./src/a.ts" := by decide
  refine ⟨other, (moduleId_eq_iff "src" other).mpr (.inr (by decide)), same, ?_⟩
  rw [Ne, moduleId_eq_iff "src/" same]
  decide

/-- Two names of one file, with two ids: the base directory is taken off one of them only. -/
theorem source_dotted :
    plain "src/a.ts" = plain "./src/a.ts" ∧ moduleId "src" "src/a.ts" = "a" ∧
      moduleId "src" "./src/a.ts" = "src/a" ∧
      moduleId "src" "src/a.ts" ≠ moduleId "src" "./src/a.ts" := by
  decide

end Ids

end ApiDocs.Proofs.FileNames
