import ApiDocs.Proofs.IndexedScan

/-! What stripping does to a type text. The text is split into literals, numbers, dotted names and
single characters in the one way in which all of them reach as far as they can; dotted names are cut
to their last segment unless a qualifier is kept, and everything else is copied. A pass by index over the
characters comes to the same, and no slice that it takes is out of range. -/

namespace ApiDocs.Proofs.Stripping

open IndexedScan TypeText TypeTokens

section Qualifiers

/-- Leading segments of a name, short of all of them, make a qualifier that is kept. -/
def Qualified (keep : String → Bool) (segments : List (List Char)) : Prop :=
  ∃ count, 0 < count ∧ count < segments.length ∧
    keep (String.ofList (['.'].intercalate (segments.take count))) = true

theorem mem_qualifiers_iff {first qualifier : List Char} {rest : List (List Char)} :
    qualifier ∈ Token.qualifiers first rest ↔
      ∃ count, 0 < count ∧ count < (first :: rest).length ∧
        ['.'].intercalate ((first :: rest).take count) = qualifier := by
  rw [qualifiers_eq, List.mem_map]
  refine exists_congr fun count => ?_
  rw [List.mem_range'_1, List.length_cons, and_assoc, Nat.add_comm 1, Nat.succ_le_iff]

theorem isKept_iff {keep : String → Bool} {first : List Char} {rest : List (List Char)} :
    Token.isKept keep first rest = true ↔ Qualified keep (first :: rest) := by
  simp only [Token.isKept, List.any_eq_true, mem_qualifiers_iff]
  constructor
  · rintro ⟨_, ⟨count, positive, short, rfl⟩, kept⟩
    exact ⟨count, positive, short, kept⟩
  · rintro ⟨count, positive, short, kept⟩
    exact ⟨_, ⟨count, positive, short, rfl⟩, kept⟩

end Qualifiers

section Tokens

/-- What is shown for a token: a name of several segments gives way to its last one, unless one of
its qualifiers is kept. -/
inductive Becomes (keep : String → Bool) : Token → List Char → Prop where
  | literal {chars} : Becomes keep (.literal chars) chars
  | number {chars} : Becomes keep (.number chars) chars
  | other {c} : Becomes keep (.other c) [c]
  | single {name} : Becomes keep (.chain name []) name
  | kept {first rest} (qualified : Qualified keep (first :: rest)) :
      Becomes keep (.chain first rest) (['.'].intercalate (first :: rest))
  | cut {first middle last} (unqualified : ¬ Qualified keep (first :: (middle ++ [last]))) :
      Becomes keep (.chain first (middle ++ [last])) last

theorem source_chain (first : List Char) (rest : List (List Char)) :
    (Token.chain first rest).source = ['.'].intercalate (first :: rest) := by
  induction rest generalizing first with
  | nil => simp [Token.source, Token.dotted, List.intercalate]
  | cons next rest ih =>
    rw [← intercalate_joined, ← ih]
    simp [Token.source, Token.dotted]

theorem becomes_shown (keep : String → Bool) (token : Token) : Becomes keep token (token.shown keep) := by
  cases token with
  | literal | number | other => constructor
  | chain first rest =>
    by_cases kept : Token.isKept keep first rest = true
    · rw [Token.shown, if_pos kept, source_chain]
      exact .kept (isKept_iff.mp kept)
    · rw [Token.shown, if_neg kept]
      rcases List.eq_nil_or_concat rest with rfl | ⟨middle, last, rfl⟩
      · exact .single
      · rw [List.concat_eq_append, isKept_iff] at kept
        rw [List.concat_eq_append, List.getLastD_concat]
        exact .cut kept

end Tokens

/-- Every text is split into tokens in exactly one way, and stripping copies them one by one, with
names cut to their last segment unless a qualifier is kept. A pass by index takes no slice out of range. -/
theorem strip_tokens (keep : String → Bool) (text : String) :
    ∃ list pieces, Spelled list ∧ list.flatMap Token.source = text.toList ∧
      (∀ other, Spelled other → other.flatMap Token.source = text.toList → other = list) ∧
      List.Forall₂ (Becomes keep) list pieces ∧
      (stripNamespaces keep text).toList = pieces.flatten ∧
      stripIndexed keep text = some (stripNamespaces keep text) := by
  refine ⟨tokens text.toList, (tokens text.toList).map (Token.shown keep), spelled_tokens _,
    flatMap_source_tokens _, ?_, ?_, ?_, stripIndexed_eq keep text⟩
  · intro other spelled same
    exact (tokens_eq_iff.mpr ⟨spelled, same⟩).symm
  · rw [List.forall₂_map_right_iff, List.forall₂_same]
    exact fun token _ => becomes_shown keep token
  · rw [stripNamespaces, String.toList_ofList, List.flatMap_def]

example : stripNamespaces (· == "Rx") "Rx.Of<a.b.C> | 1.e | 'x.y\\" = "Rx.Of<C> | 1.e | 'x.y\\" := by
  decide +kernel

end ApiDocs.Proofs.Stripping
