import ApiDocs.Proofs.PatternMeaning

/-! Patterns that can be read. Their repetitions never ask for more than they allow, so the search for
them decides what they mean. -/

namespace ApiDocs.Proofs.PatternReading

open Pattern PatternMeaning

/-- All that was read of an open group is bounded. -/
structure Sound (group : Group) : Prop where
  branches : ∀ branch ∈ group.branches, Bounded branch
  items : ∀ value, .expr value ∈ group.items → Bounded value

section Groups

variable {group : Group} {value : Expr}

theorem sound_empty (flags : Flags) : Sound { flags } := by
  constructor <;> simp

theorem Sound.branch (sound : Sound group) : Bounded group.branch := by
  apply List.foldlRecOn
  · trivial
  · intro later bounded item member
    cases item with
    | switches => exact bounded
    | expr value =>
      have first := sound.items value member
      dsimp only
      split
      · exact first
      · exact ⟨first, bounded⟩

theorem Sound.close (sound : Sound group) : Bounded group.close := by
  apply List.foldlRecOn
  · exact sound.branch
  · exact fun later bounded earlier member => ⟨sound.branches earlier member, bounded⟩

theorem Sound.add (sound : Sound group) (bounded : Bounded value) : Sound (group.add value) where
  branches := sound.branches
  items := by
    rintro other (_ | ⟨_, member⟩)
    · exact bounded
    · exact sound.items other member

theorem Sound.switch (sound : Sound group) (flags : Flags) :
    Sound { group with flags, items := .switches :: group.items } where
  branches := sound.branches
  items := by
    rintro other (_ | ⟨_, member⟩)
    exact sound.items other member

theorem Sound.endBranch (sound : Sound group) : Sound group.endBranch where
  branches := List.forall_mem_cons.mpr ⟨sound.branch, sound.branches⟩
  items := by simp [Group.endBranch]

theorem Sound.repeatLatest (sound : Sound group) {least : Nat} {most : Option Nat}
    (within : ∀ bound ∈ most, least ≤ bound) {repeated : Group}
    (done : group.repeatLatest least most = some repeated) : Sound repeated := by
  unfold Group.repeatLatest at done
  split at done
  next latest items listed =>
    cases done
    constructor
    · exact sound.branches
    · rintro other (_ | ⟨_, member⟩)
      · exact ⟨within, sound.items latest (by simp [listed])⟩
      · exact sound.items other (listed ▸ List.mem_cons_of_mem _ member)
  next => cases done

theorem bounded_literal (group : Group) (char : Char) : Bounded (group.literal char) := by
  unfold Group.literal
  split <;> trivial

/-- The signs for any character and for the two ends of a text or line. -/
theorem bounded_signs (group : Group) : Bounded group.dot ∧ Bounded group.start ∧ Bounded group.stop := by
  unfold Group.dot Group.start Group.stop
  refine ⟨?_, ?_, ?_⟩
  all_goals
    split
    · trivial
    · split <;> trivial

theorem bounded_escaped (group : Group) (escaped : Escaped) : Bounded (group.escaped escaped) := by
  cases escaped with
  | char value => exact bounded_literal group value
  | set | edge => trivial

end Groups

theorem readBounds_within {chars rest : List Char} {least : Nat} {most : Option Nat}
    (read : readBounds chars = some ((least, most), rest)) : ∀ bound ∈ most, least ≤ bound := by
  obtain ⟨first, _, read⟩ := Option.bind_eq_some_iff.mp read
  dsimp only at read
  split at read
  · cases read
  · split at read
    · cases read
      rintro _ ⟨⟩
      exact Nat.le_refl least
    · cases read
      rintro _ ⟨⟩
    · obtain ⟨last, _, read⟩ := Option.bind_eq_some_iff.mp read
      split at read
      · cases read
      next fits =>
        simp only [Bool.or_eq_true, decide_eq_true_eq, not_or, Nat.not_lt] at fits
        split at read
        · cases read
          rintro _ ⟨⟩
          exact fits.2
        · cases read
    · cases read

/-- Whatever is read next, the open groups stay sound, and so is what they become in the end. -/
theorem readGroups_bounded {fuel : Nat} {group : Group} {outer : List Group} {names : List (List Char)}
    {chars : List Char} {expr : Expr} (sound : Sound group) (all : ∀ parent ∈ outer, Sound parent)
    (read : readGroups fuel group outer names chars = some expr) : Bounded expr := by
  -- One case for each sign that may come next: it changes the open groups by one of their operations.
  fun_induction readGroups fuel group outer names chars with
  | case1 group outer =>
    cases read
    exact sound.close
  | case2 => cases read
  | case3 fuel group outer =>
    cases read
    exact sound.close
  | case4 => cases read
  | case5 fuel group outer names chars rest _ inGroup inNamed switched =>
    obtain ⟨⟨opening, rest⟩, _, read⟩ := Option.bind_eq_some_iff.mp read
    have within : ∀ parent ∈ group :: outer, Sound parent := List.forall_mem_cons.mpr ⟨sound, all⟩
    cases opening with
    | switches flags => exact switched rest flags (sound.switch flags) all read
    | group flags name =>
      cases name with
      | none => exact inGroup rest flags (sound_empty flags) within read
      | some name =>
        dsimp only at read
        split at read
        · cases read
        · exact inNamed rest flags name (sound_empty flags) within read
  | case6 => cases read
  | case7 fuel group names chars rest _ parent outer ih =>
    obtain ⟨parentSound, others⟩ := List.forall_mem_cons.mp all
    exact ih (parentSound.add sound.close) others read
  | case8 fuel group outer names chars rest _ ih => exact ih sound.endBranch all read
  | case9 fuel group outer names chars rest _ mode bracket inside _ ih =>
    obtain ⟨⟨set, rest⟩, _, read⟩ := Option.bind_eq_some_iff.mp read
    exact ih set rest (sound.add trivial) all read
  | case10 fuel group outer names chars rest _ ih =>
    obtain ⟨repeated, done, read⟩ := Option.bind_eq_some_iff.mp read
    exact ih repeated (sound.repeatLatest (by simp) done) all read
  | case11 fuel group outer names chars rest _ ih =>
    obtain ⟨repeated, done, read⟩ := Option.bind_eq_some_iff.mp read
    exact ih repeated (sound.repeatLatest (by simp) done) all read
  | case12 fuel group outer names chars rest _ ih =>
    obtain ⟨repeated, done, read⟩ := Option.bind_eq_some_iff.mp read
    exact ih repeated (sound.repeatLatest (by simp) done) all read
  | case13 fuel group outer names chars rest _ ih =>
    obtain ⟨⟨⟨least, most⟩, after⟩, bounds, read⟩ := Option.bind_eq_some_iff.mp read
    obtain ⟨repeated, done, read⟩ := Option.bind_eq_some_iff.mp read
    exact ih after repeated (sound.repeatLatest (readBounds_within bounds) done) all read
  | case14 fuel group outer names chars rest _ ih =>
    obtain ⟨⟨escaped, after⟩, _, read⟩ := Option.bind_eq_some_iff.mp read
    exact ih escaped after (sound.add (bounded_escaped group escaped)) all read
  | case15 fuel group outer names chars rest _ ih => exact ih (sound.add (bounded_signs group).1) all read
  | case16 fuel group outer names chars rest _ ih => exact ih (sound.add (bounded_signs group).2.1) all read
  | case17 fuel group outer names chars rest _ ih => exact ih (sound.add (bounded_signs group).2.2) all read
  | case18 fuel group outer names chars char rest =>
    rename_i ih
    exact ih (sound.add (bounded_literal group char)) all read

/-- A pattern that was read is found exactly in the texts that have a part which it describes. -/
theorem isMatch_iff {source : String} {pattern : Pattern} (read : Pattern.read source = some pattern)
    (text : String) : pattern.isMatch text = true ↔ FoundIn pattern.expr text.toList := by
  obtain ⟨expr, readExpr, rfl⟩ := Option.map_eq_some_iff.mp read
  exact isFoundIn_iff (readGroups_bounded (sound_empty {}) (List.forall_mem_nil _) readExpr) text

end ApiDocs.Proofs.PatternReading
