import ApiDocs.Pattern

/-! What search expressions mean. An expression describes parts of a text, and what stands on both sides
of a part may matter. The search takes one pass and keeps what remains of the matches that have begun. It
finds exactly the texts that have a described part. -/

namespace ApiDocs.Proofs.PatternMeaning

open Pattern

/-- A condition on what stands before a part of a text, on the part, and on what stands after it. -/
abbrev Condition := List Char → List Char → List Char → Prop

/-- The part consists of two, one directly after the other. -/
def Joined (first second : Condition) : Condition := fun before part after =>
  ∃ start rest, part = start ++ rest ∧ first before start (rest ++ after) ∧
    second (before ++ start) rest after

/-- The part consists of this many, one after another. -/
def Repeated (body : Condition) : Nat → Condition
  | 0 => fun _ part _ => part = []
  | count + 1 => Joined body (Repeated body count)

/-- The part consists of some number within these bounds. -/
def Times (body : Condition) (least : Nat) (most : Option Nat) : Condition := fun before part after =>
  ∃ count, least ≤ count ∧ (∀ bound ∈ most, count ≤ bound) ∧ Repeated body count before part after

/-- The expression describes this part of the text. -/
def Matches : Expr → Condition
  | .empty => fun _ part _ => part = []
  | .one set => fun _ part _ => ∃ char, part = [char] ∧ set.contains char = true
  | .edge condition => fun before part after =>
    part = [] ∧ condition.holds ⟨before.getLast?, after.head?⟩ = true
  | .seq first second => Joined (Matches first) (Matches second)
  | .alt left right => fun before part after => Matches left before part after ∨ Matches right before part after
  | .times body least most => Times (Matches body) least most

/-- Some part of the text is described. -/
def FoundIn (expr : Expr) (text : List Char) : Prop :=
  ∃ before part after, text = before ++ part ++ after ∧ Matches expr before part after

/-- No repetition asks for more than it allows. -/
def Bounded : Expr → Prop
  | .seq first second => Bounded first ∧ Bounded second
  | .alt left right => Bounded left ∧ Bounded right
  | .times body least most => (∀ bound ∈ most, least ≤ bound) ∧ Bounded body
  | .empty | .one _ | .edge _ => True

section Parts

variable {first second body : Condition} {before part after : List Char} {char : Char} {count : Nat}

theorem joined_nil : Joined first second before [] after ↔ first before [] after ∧ second before [] after := by
  constructor
  · rintro ⟨start, rest, split, one, two⟩
    obtain ⟨rfl, rfl⟩ := List.nil_eq_append_iff.mp split
    exact ⟨one, by simpa using two⟩
  · rintro ⟨one, two⟩
    exact ⟨[], [], rfl, one, by simpa using two⟩

/-- The first character belongs to the second part only where the first part is empty. -/
theorem joined_cons : Joined first second before (char :: part) after ↔
    first before [] (char :: part ++ after) ∧ second before (char :: part) after ∨
      ∃ start rest, part = start ++ rest ∧ first before (char :: start) (rest ++ after) ∧
        second (before ++ [char] ++ start) rest after := by
  constructor
  · rintro ⟨start, rest, split, one, two⟩
    cases start with
    | nil =>
      cases split
      exact .inl ⟨one, by simpa using two⟩
    | cons char start =>
      cases split
      exact .inr ⟨start, rest, rfl, one, by simpa using two⟩
  · rintro (⟨one, two⟩ | ⟨start, rest, rfl, one, two⟩)
    · exact ⟨[], char :: part, rfl, one, by simpa using two⟩
    · exact ⟨char :: start, rest, rfl, one, by simpa using two⟩

theorem repeated_nil : Repeated body count before [] after ↔ count = 0 ∨ body before [] after := by
  induction count with
  | zero => simp [Repeated]
  | succ count ih =>
    simp only [Repeated, joined_nil, ih]
    constructor
    · exact fun both => .inr both.1
    · rintro (impossible | empty)
      · cases impossible
      · exact ⟨empty, .inr empty⟩

/-- Where the repeated part may be empty, there may be more of it. -/
theorem repeated_add (empty : body before [] (part ++ after)) (more : Nat)
    (repeated : Repeated body count before part after) : Repeated body (count + more) before part after := by
  induction more with
  | zero => exact repeated
  | succ more ih => exact ⟨[], part, rfl, empty, by simpa using ih⟩

/-- The repetition that takes the first character: those before it are empty. -/
theorem repeated_cons (repeated : Repeated body count before (char :: part) after) :
    ∃ start rest further, part = start ++ rest ∧ body before (char :: start) (rest ++ after) ∧
      Repeated body further (before ++ [char] ++ start) rest after ∧ further < count ∧
      (further + 1 = count ∨ body before [] (char :: part ++ after)) := by
  induction count with
  | zero => cases repeated
  | succ count ih =>
    rcases joined_cons.mp repeated with ⟨empty, others⟩ | ⟨start, rest, split, one, others⟩
    · obtain ⟨start, rest, further, split, one, others, fewer, _⟩ := ih others
      exact ⟨start, rest, further, split, one, others, by omega, .inr empty⟩
    · exact ⟨start, rest, count, split, one, others, by omega, .inl rfl⟩

/-- The repetition that takes a character, and the bounds that are left for those after it. -/
theorem times_cons {least : Nat} {most : Option Nat} {mayBeEmpty : Bool}
    (within : ∀ bound ∈ most, least ≤ bound)
    (empty : mayBeEmpty = true ↔ body before [] (char :: part ++ after)) :
    Times body least most before (char :: part) after ↔
      most ≠ some 0 ∧ ∃ start rest, part = start ++ rest ∧ body before (char :: start) (rest ++ after) ∧
        Times body (if mayBeEmpty then 0 else least - 1) (most.map (· - 1)) (before ++ [char] ++ start)
          rest after := by
  constructor
  · rintro ⟨count, enough, allowed, repeated⟩
    obtain ⟨start, rest, further, split, one, others, fewer, last⟩ := repeated_cons repeated
    refine ⟨?_, start, rest, split, one, further, ?_, ?_, others⟩
    · rintro rfl
      have := allowed 0 rfl
      omega
    · cases mayBeEmpty with
      | true => exact Nat.zero_le further
      | false =>
        have last : further + 1 = count := last.resolve_right (mt empty.mpr Bool.false_ne_true)
        simp only [Bool.false_eq_true, ↓reduceIte]
        omega
    · intro bound left
      obtain ⟨limit, known, rfl⟩ := Option.map_eq_some_iff.mp left
      have := allowed limit known
      omega
  · rintro ⟨some_, start, rest, rfl, one, further, enough, allowed, others⟩
    have once : Repeated body (further + 1) before (char :: (start ++ rest)) after :=
      ⟨char :: start, rest, rfl, one, by simpa using others⟩
    have fits : ∀ bound ∈ most, further + 1 ≤ bound := by
      intro bound known
      have := allowed (bound - 1) (Option.map_eq_some_iff.mpr ⟨bound, known, rfl⟩)
      have : bound ≠ 0 := fun none_ => some_ (none_ ▸ known)
      omega
    cases mayBeEmpty with
    | false =>
      refine ⟨further + 1, ?_, fits, once⟩
      simp only [Bool.false_eq_true, ↓reduceIte] at enough
      omega
    | true =>
      -- Empty repetitions in front make up for those that are missing.
      refine ⟨further + 1 + (least - (further + 1)), by omega, ?_, repeated_add (empty.mp rfl) _ once⟩
      intro bound known
      have := fits bound known
      have := within bound known
      omega

end Parts

section Steps

variable {expr : Expr} {before part after : List Char} {char : Char}

theorem matches_one {set : CharSet} :
    Matches (.one set) before (char :: part) after ↔ set.contains char = true ∧ part = [] := by
  constructor
  · rintro ⟨_, same, inside⟩
    cases same
    exact ⟨inside, rfl⟩
  · rintro ⟨inside, rfl⟩
    exact ⟨char, rfl, inside⟩

theorem matchesEmpty_iff (before after : List Char) (bounded : Bounded expr) :
    expr.matchesEmpty ⟨before.getLast?, after.head?⟩ = true ↔ Matches expr before [] after := by
  induction expr with
  | empty => simp [Expr.matchesEmpty, Matches]
  | one set => simp [Expr.matchesEmpty, Matches]
  | edge condition => simp [Expr.matchesEmpty, Matches]
  | seq first second one two =>
    rw [Expr.matchesEmpty, Bool.and_eq_true, one bounded.1, two bounded.2, Matches, joined_nil]
  | alt left right one two =>
    rw [Expr.matchesEmpty, Bool.or_eq_true, one bounded.1, two bounded.2, Matches]
  | times body least most ih =>
    simp only [Expr.matchesEmpty, Bool.or_eq_true, beq_iff_eq, ih bounded.2, Matches, Times, repeated_nil]
    constructor
    · rintro (rfl | empty)
      · exact ⟨0, Nat.le_refl 0, fun _ _ => Nat.zero_le _, .inl rfl⟩
      · exact ⟨least, Nat.le_refl least, bounded.1, .inr empty⟩
    · rintro ⟨count, enough, _, rfl | empty⟩
      · exact .inl (Nat.le_zero.mp enough)
      · exact .inr empty

theorem matchesEmpty_next (bounded : Bounded expr) :
    expr.matchesEmpty ⟨before.getLast?, some char⟩ = true ↔ Matches expr before [] (char :: after) :=
  matchesEmpty_iff before (char :: after) bounded

theorem matches_andThen (first second : Expr) :
    Matches (first.andThen second) before part after ↔
      Joined (Matches first) (Matches second) before part after := by
  cases first with
  | empty =>
    simp only [Expr.andThen]
    constructor
    · intro matched
      exact ⟨[], part, rfl, rfl, by simpa using matched⟩
    · rintro ⟨_, rest, rfl, rfl, matched⟩
      simpa using matched
  | _ => rfl

/-- What remains of the first of two parts, with the second after it. -/
theorem exists_andThen {rests : List Expr} {second : Expr} :
    (∃ rest ∈ rests.map (Expr.andThen · second), Matches rest before part after) ↔
      ∃ start last, part = start ++ last ∧ (∃ rest ∈ rests, Matches rest before start (last ++ after)) ∧
        Matches second (before ++ start) last after := by
  constructor
  · rintro ⟨_, continued, matched⟩
    obtain ⟨rest, member, rfl⟩ := List.mem_map.mp continued
    obtain ⟨start, last, split, one, two⟩ := (matches_andThen rest second).mp matched
    exact ⟨start, last, split, ⟨rest, member, one⟩, two⟩
  · rintro ⟨start, last, split, ⟨rest, member, one⟩, two⟩
    exact ⟨rest.andThen second, List.mem_map.mpr ⟨rest, member, rfl⟩,
      (matches_andThen rest second).mpr ⟨start, last, split, one, two⟩⟩

theorem Bounded.andThen {first second : Expr} (one : Bounded first) (two : Bounded second) :
    Bounded (first.andThen second) := by
  cases first with
  | empty => exact two
  | _ => exact ⟨one, two⟩

theorem Bounded.remainders (bounded : Bounded expr) {place : Place} :
    ∀ rest ∈ expr.remainders place char, Bounded rest := by
  induction expr with
  | empty | edge => simp [Expr.remainders]
  | one set =>
    intro rest member
    simp only [Expr.remainders] at member
    split at member
    · cases List.mem_singleton.mp member
      trivial
    · cases member
  | seq first second one two =>
    intro rest member
    rcases List.mem_append.mp member with inFirst | inSecond
    · obtain ⟨begun, inside, rfl⟩ := List.mem_map.mp inFirst
      exact (one bounded.1 begun inside).andThen bounded.2
    · split at inSecond
      · exact two bounded.2 rest inSecond
      · cases inSecond
  | alt left right one two =>
    intro rest member
    rcases List.mem_append.mp member with inLeft | inRight
    · exact one bounded.1 rest inLeft
    · exact two bounded.2 rest inRight
  | times body least most ih =>
    intro rest member
    simp only [Expr.remainders] at member
    split at member
    · cases member
    · obtain ⟨begun, inside, rfl⟩ := List.mem_map.mp member
      refine (ih bounded.2 begun inside).andThen ⟨?_, bounded.2⟩
      intro bound allowed
      obtain ⟨limit, known, rfl⟩ := Option.map_eq_some_iff.mp allowed
      have := bounded.1 limit known
      split <;> omega

/-- A match that begins with a character is what remains after this character. -/
theorem matches_cons (bounded : Bounded expr) : Matches expr before (char :: part) after ↔
    ∃ rest ∈ expr.remainders ⟨before.getLast?, some char⟩ char, Matches rest (before ++ [char]) part after := by
  -- Two expressions in a row cut the part, so the hypotheses are needed for other parts as well.
  induction expr generalizing part after with
  | empty => simp [Matches, Expr.remainders]
  | one set =>
    rw [matches_one, Expr.remainders]
    cases set.contains char <;> simp [Matches]
  | edge condition => simp [Matches, Expr.remainders]
  | seq first second one two =>
    rw [Matches, joined_cons, List.cons_append, ← matchesEmpty_next bounded.1, or_comm]
    simp only [Expr.remainders, List.mem_append, or_and_right, exists_or, exists_andThen,
      one bounded.1, two bounded.2]
    cases first.matchesEmpty ⟨before.getLast?, some char⟩ <;> simp
  | alt left right one two =>
    simp only [Matches, Expr.remainders, one bounded.1, two bounded.2, List.mem_append, or_and_right, exists_or]
  | times body least most ih =>
    rw [Matches, times_cons bounded.1 (matchesEmpty_next bounded.2), Expr.remainders]
    by_cases none_ : most = some 0
    · simp [none_]
    · simp only [none_, ↓reduceIte, ne_eq, not_false_eq_true, true_and, exists_andThen, Matches, ih bounded.2]

end Steps

section Search

variable {expr : Expr} {begun : List Expr} {before text : List Char} {char : Char}

/-- What remains of a match that has begun stands at the beginning of the rest of the text. -/
def UnderWay (begun : List Expr) (before text : List Char) : Prop :=
  ∃ rest ∈ begun, ∃ part after, text = part ++ after ∧ Matches rest before part after

/-- A match begins somewhere in the rest of the text. -/
def Ahead (expr : Expr) (before text : List Char) : Prop :=
  ∃ skipped rest, text = skipped ++ rest ∧ UnderWay [expr] (before ++ skipped) rest

theorem underWay_either : UnderWay (expr :: begun) before text ↔
    UnderWay [expr] before text ∨ UnderWay begun before text := by
  simp [UnderWay]

theorem ahead_nil : Ahead expr before [] ↔ UnderWay [expr] before [] := by
  constructor
  · rintro ⟨skipped, rest, split, matched⟩
    obtain ⟨rfl, rfl⟩ := List.nil_eq_append_iff.mp split
    simpa using matched
  · intro matched
    exact ⟨[], [], rfl, by simpa using matched⟩

theorem ahead_cons : Ahead expr before (char :: text) ↔
    UnderWay [expr] before (char :: text) ∨ Ahead expr (before ++ [char]) text := by
  constructor
  · rintro ⟨skipped, rest, split, matched⟩
    cases skipped with
    | nil =>
      cases split
      exact .inl (by simpa using matched)
    | cons char skipped =>
      cases split
      exact .inr ⟨skipped, rest, rfl, by simpa using matched⟩
  · rintro (matched | ⟨skipped, rest, rfl, matched⟩)
    · exact ⟨[], char :: text, rfl, by simpa using matched⟩
    · exact ⟨char :: skipped, rest, rfl, by simpa using matched⟩

theorem underWay_nil (bounded : ∀ rest ∈ begun, Bounded rest) :
    UnderWay begun before [] ↔ begun.any (Expr.matchesEmpty ⟨before.getLast?, none⟩) = true := by
  rw [List.any_eq_true]
  constructor
  · rintro ⟨rest, member, part, after, split, matched⟩
    obtain ⟨rfl, rfl⟩ := List.nil_eq_append_iff.mp split
    exact ⟨rest, member, (matchesEmpty_iff before [] (bounded rest member)).mpr matched⟩
  · rintro ⟨rest, member, empty⟩
    exact ⟨rest, member, [], [], rfl, (matchesEmpty_iff before [] (bounded rest member)).mp empty⟩

/-- A match under way ends here or goes on with the next character. -/
theorem underWay_cons (bounded : ∀ rest ∈ begun, Bounded rest) : UnderWay begun before (char :: text) ↔
    begun.any (Expr.matchesEmpty ⟨before.getLast?, some char⟩) = true ∨
      UnderWay (begun.flatMap (Expr.remainders ⟨before.getLast?, some char⟩ char)) (before ++ [char]) text := by
  rw [List.any_eq_true]
  constructor
  · rintro ⟨rest, member, part, after, split, matched⟩
    cases part with
    | nil =>
      cases split
      exact .inl ⟨rest, member, (matchesEmpty_next (bounded rest member)).mpr matched⟩
    | cons char part =>
      cases split
      obtain ⟨next, left, matched⟩ := (matches_cons (bounded rest member)).mp matched
      exact .inr ⟨next, List.mem_flatMap.mpr ⟨rest, member, left⟩, part, after, rfl, matched⟩
  · rintro (⟨rest, member, empty⟩ | ⟨next, reached, part, after, rfl, matched⟩)
    · exact ⟨rest, member, [], char :: text, rfl, (matchesEmpty_next (bounded rest member)).mp empty⟩
    · obtain ⟨rest, member, left⟩ := List.mem_flatMap.mp reached
      exact ⟨rest, member, char :: part, after, rfl,
        (matches_cons (bounded rest member)).mpr ⟨next, left, matched⟩⟩

theorem underWay_eraseDups : UnderWay begun.eraseDups before text ↔ UnderWay begun before text := by
  simp only [UnderWay, List.mem_eraseDups]

/-- The search ends well if a match that has begun does, or one that begins later. -/
theorem search_iff (before : List Char) (bounded : Bounded expr) (all : ∀ rest ∈ begun, Bounded rest) :
    expr.search begun before.getLast? text = true ↔ UnderWay begun before text ∨ Ahead expr before text := by
  induction text generalizing begun before with
  | nil =>
    have every : ∀ rest ∈ expr :: begun, Bounded rest := List.forall_mem_cons.mpr ⟨bounded, all⟩
    rw [Expr.search, ← underWay_nil every, underWay_either, ahead_nil, or_comm]
  | cons char text ih =>
    have every : ∀ rest ∈ expr :: begun, Bounded rest := List.forall_mem_cons.mpr ⟨bounded, all⟩
    have remaining : ∀ rest ∈
        ((expr :: begun).flatMap (Expr.remainders ⟨before.getLast?, some char⟩ char)).eraseDups, Bounded rest := by
      intro rest member
      obtain ⟨earlier, known, left⟩ := List.mem_flatMap.mp (List.mem_eraseDups.mp member)
      exact (every earlier known).remainders rest left
    have later := ih (before ++ [char]) remaining
    rw [List.getLast?_concat] at later
    simp only [Expr.search, Bool.or_eq_true, later, underWay_eraseDups]
    rw [← or_assoc, ← underWay_cons every, underWay_either, or_assoc, or_left_comm, ahead_cons]

/-- One pass finds exactly what the expression describes. -/
theorem isFoundIn_iff (bounded : Bounded expr) (text : String) :
    expr.isFoundIn text = true ↔ FoundIn expr text.toList := by
  have fromStart : expr.isFoundIn text = true ↔ UnderWay [] [] text.toList ∨ Ahead expr [] text.toList :=
    search_iff [] bounded (List.forall_mem_nil _)
  rw [fromStart]
  constructor
  · rintro (⟨_, impossible, _⟩ | ⟨before, _, split, _, only, part, after, rfl, matched⟩)
    · cases impossible
    · cases List.mem_singleton.mp only
      exact ⟨before, part, after, by simpa using split, matched⟩
  · rintro ⟨before, part, after, split, matched⟩
    exact .inr ⟨before, part ++ after, by simpa using split, expr, List.mem_singleton_self expr,
      part, after, rfl, matched⟩

end Search

end ApiDocs.Proofs.PatternMeaning
