import ApiDocs.Proofs.Stripping

/-! How stripping composes. A second pass finds the tokens that the first one left, so a name stays
whole only if both passes keep it. A separator that stands outside of quoted texts joins no token, so
what is before it and what is behind it can be stripped apart. -/

namespace ApiDocs.Proofs.StrippingLaws

open Text TypeText TypeTokens Stripping

section Passes

/-- What is left of a token if a name of several segments gives way to its last one, unless it is to
stay whole. -/
inductive Reduces (stays : List (List Char) → Prop) : Token → List Char → Prop where
  | literal {chars} : Reduces stays (.literal chars) chars
  | number {chars} : Reduces stays (.number chars) chars
  | other {c} : Reduces stays (.other c) [c]
  | single {name} : Reduces stays (.chain name []) name
  | whole {first rest} (stayed : stays (first :: rest)) :
      Reduces stays (.chain first rest) (['.'].intercalate (first :: rest))
  | last {first middle last} (gone : ¬ stays (first :: (middle ++ [last]))) :
      Reduces stays (.chain first (middle ++ [last])) last

variable (early late : String → Bool)

theorem shown_cut_chain (first : List Char) (rest : List (List Char)) :
    (cut early (.chain first rest)).shown late =
      if Token.isKept early first rest && Token.isKept late first rest then (Token.chain first rest).source
      else rest.getLastD first := by
  by_cases kept : Token.isKept early first rest = true
  · rw [cut, if_pos kept, kept, Bool.true_and, Token.shown]
  · -- What the first pass cuts has one segment, and one segment is shown as it is.
    rw [cut, if_neg kept, eq_false_of_ne_true kept, Bool.false_and, if_neg Bool.false_ne_true]
    rfl

theorem reduces_twice (token : Token) :
    Reduces (fun segments => Qualified early segments ∧ Qualified late segments) token
      ((cut early token).shown late) := by
  cases token with
  | literal chars => exact .literal
  | number chars => exact .number
  | other c => exact .other
  | chain first rest =>
    rw [shown_cut_chain]
    split
    next kept =>
      rw [Bool.and_eq_true, isKept_iff, isKept_iff] at kept
      rw [source_chain]
      exact .whole kept
    next gone =>
      rw [Bool.and_eq_true, isKept_iff, isKept_iff] at gone
      rcases List.eq_nil_or_concat rest with rfl | ⟨middle, last, rfl⟩
      · exact .single
      · rw [List.concat_eq_append] at gone ⊢
        rw [List.getLastD_concat]
        exact .last gone

theorem shown_cut_comm (token : Token) :
    (cut early token).shown late = (cut late token).shown early := by
  cases token with
  | literal chars => rfl
  | number chars => rfl
  | other c => rfl
  | chain first rest => rw [shown_cut_chain, shown_cut_chain, Bool.and_comm]

/-- Two passes show each token of the text cut by the first and shown by the second. -/
theorem strip_strip (text : String) :
    stripNamespaces late (stripNamespaces early text) =
      String.ofList ((tokens text.toList).flatMap fun token => (cut early token).shown late) := by
  rw [stripNamespaces, stripNamespaces, String.toList_ofList, tokens_shown, List.flatMap_map]

theorem trimChars_of_trimmed {chars : List Char} (trimmed : Trimmed chars) : trimChars chars = chars := by
  rw [trimChars, dropWhile_of_stops trimmed.front, dropWhile_of_stops trimmed.back, List.reverse_reverse]

theorem display_display (keep : String → Bool) (raw : String) :
    display keep (display keep raw) = display keep raw := by
  have final := final_display keep raw
  rw [display, trim, trimChars_of_trimmed final.trimmed, String.ofList_toList]
  exact final.stripped

/-- Two passes leave a name of several segments whole if and only if both keep it. So their order is
all the same, a pass that is repeated changes nothing, and neither does showing a type again. -/
theorem strip_composes (text : String) :
    (∃ list pieces, Spelled list ∧ list.flatMap Token.source = text.toList ∧
      (∀ other, Spelled other → other.flatMap Token.source = text.toList → other = list) ∧
      List.Forall₂ (Reduces fun segments => Qualified early segments ∧ Qualified late segments) list
        pieces ∧
      (stripNamespaces late (stripNamespaces early text)).toList = pieces.flatten) ∧
    stripNamespaces late (stripNamespaces early text) =
      stripNamespaces early (stripNamespaces late text) ∧
    stripNamespaces early (stripNamespaces early text) = stripNamespaces early text ∧
    display early (display early text) = display early text := by
  refine ⟨⟨tokens text.toList, (tokens text.toList).map fun token => (cut early token).shown late,
    spelled_tokens _, flatMap_source_tokens _, ?_, ?_, ?_⟩, ?_, ?_, ?_⟩
  · intro other spelled same
    exact (tokens_eq_iff.mpr ⟨spelled, same⟩).symm
  · rw [List.forall₂_map_right_iff, List.forall₂_same]
    exact fun token _ => reduces_twice early late token
  · rw [strip_strip, String.toList_ofList, List.flatMap_def]
  · rw [strip_strip, strip_strip]
    simp only [shown_cut_comm early late]
  · exact stripNamespaces_stripped early text
  · exact display_display early text

-- Both passes keep `a.b.C`, each for a qualifier of its own.
example :
    stripNamespaces (· == "a.b") (stripNamespaces (fun q => q == "a" || q == "x") "a.b.C | x.Y") =
      "a.b.C | Y" := by
  decide +kernel

end Passes

section Separators

/-- A character that belongs to no name, number or quoted text. -/
structure Separator (c : Char) : Prop where
  noPart : isIdentPart c = false
  noDot : c ≠ '.'
  unquoted : isQuote c = false

/-- A quoted text, behind its opening quote, that is still open where it ends. -/
inductive Unclosed (quote : Char) : List Char → Prop where
  | nil : Unclosed quote []
  | escaping : Unclosed quote ['\\']
  | plain {c chars} (other : c ≠ quote) (unescaped : c ≠ '\\') (more : Unclosed quote chars) :
      Unclosed quote (c :: chars)
  | escaped {c chars} (more : Unclosed quote chars) : Unclosed quote ('\\' :: c :: chars)

/-- The last token is a quoted text that is still open. -/
def EndsQuoted (list : List Token) : Prop :=
  ∃ front quote inside, list = front ++ [.literal (quote :: inside)] ∧ Unclosed quote inside

/-- A quoted text is closed, and so it is before any other rest, or it ran to the end of the text. -/
theorem literal_extends {quote : Char} {chars before : List Char} (read : Literal quote chars before) :
    before = [] ∧ Unclosed quote chars ∨ ∀ after, Literal quote chars after := by
  induction read with
  | closed => exact .inr fun _ => .closed
  | unclosed => exact .inl ⟨rfl, .nil⟩
  | escaping => exact .inl ⟨rfl, .escaping⟩
  | plain other unescaped more ih =>
    obtain ⟨ended, unclosed⟩ | extends_ := ih
    · exact .inl ⟨ended, .plain other unescaped unclosed⟩
    · exact .inr fun after => .plain other unescaped (extends_ after)
  | escaped more ih =>
    obtain ⟨ended, unclosed⟩ | extends_ := ih
    · exact .inl ⟨ended, .escaped unclosed⟩
    · exact .inr fun after => .escaped (extends_ after)

namespace Separator

variable {c : Char} (separator : Separator c)

include separator

theorem fits (after : List Char) : Fits (.other c) after := by
  refine .other separator.unquoted ?_ ?_
  · by_contra digit
    have part := isIdentPart_of_isDigit (eq_true_of_ne_false digit)
    simp [separator.noPart] at part
  · by_contra start
    have part := (nameStart (eq_true_of_ne_false start)).part
    simp [separator.noPart] at part

theorem continues {before after : List Char} (continues : Continues (before ++ c :: after)) :
    Continues before := by
  obtain ⟨d, rest, same, start⟩ := continues
  match before, same with
  | [], same =>
    cases same
    exact absurd rfl separator.noDot
  | [dot], same =>
    -- The text behind the dot begins with the separator, which begins no name.
    cases same
    have part := (nameStart start).part
    simp [separator.noPart] at part
  | dot :: next :: before, same =>
    cases same
    exact ⟨d, before, rfl, start⟩

/-- A token that fits before a rest also fits if a separator and more text are added to the rest,
unless the token is a quoted text that would go on. -/
theorem extends_fits {token : Token} {before : List Char} (fits : Fits token before)
    (closed : before = [] → ¬ EndsQuoted [token]) (after : List Char) :
    Fits token (before ++ c :: after) := by
  cases fits with
  | @literal quote chars _ quoted read =>
    obtain ⟨ended, unclosed⟩ | extends_ := literal_extends read
    · exact absurd ⟨[], quote, chars, rfl, unclosed⟩ (closed ended)
    · exact .literal quoted (extends_ _)
  | number digit parts stops =>
    refine .number digit parts (stops_append stops ?_ after)
    simp [isNumberPart, separator.noPart, separator.noDot]
  | chain names stops ends =>
    refine .chain names (stops_append stops separator.noPart after) ?_
    exact fun continues => ends (separator.continues continues)
  | other unquoted noDigit noStart => exact .other unquoted noDigit noStart

end Separator

theorem source_ne_nil {token : Token} {after : List Char} (fits : Fits token after) :
    token.source ≠ [] := by
  obtain ⟨c, rest, spelled, scanned⟩ := scanToken_of_fits fits
  have nonempty := scanToken_source_ne_nil c rest
  rwa [scanned] at nonempty

theorem spelled_separated {c : Char} (separator : Separator c) {list others : List Token}
    (spelled : Spelled list) (closed : ¬ EndsQuoted list) (rest : Spelled others) :
    Spelled (list ++ .other c :: others) := by
  induction list with
  | nil => exact ⟨separator.fits _, rest⟩
  | cons token list ih =>
    obtain ⟨fits, spelled⟩ := spelled
    rw [List.cons_append]
    refine ⟨?_, ih spelled ?_⟩
    · rw [List.flatMap_append]
      refine separator.extends_fits fits ?_ _
      -- Only the last token has no text behind it, and that one is closed.
      intro ended
      cases list with
      | nil => exact closed
      | cons next list =>
        have nonempty := source_ne_nil spelled.1
        simp [nonempty] at ended
    · intro ⟨front, quote, inside, same, unclosed⟩
      exact closed ⟨token :: front, quote, inside, by rw [same, List.cons_append], unclosed⟩

/-- A separator stands for itself, between the tokens before it and those behind it. -/
theorem tokens_separated {c : Char} (separator : Separator c) {before : List Char}
    (closed : ¬ EndsQuoted (tokens before)) (after : List Char) :
    tokens (before ++ c :: after) = tokens before ++ .other c :: tokens after := by
  apply tokens_eq_iff.mpr
  refine ⟨spelled_separated separator (spelled_tokens before) closed (spelled_tokens after), ?_⟩
  simp [flatMap_source_tokens, Token.source]

/-- A separator outside of quoted texts splits a text into two that are stripped apart. -/
theorem strip_separated (keep : String → Bool) {before : String} {c : Char} (separator : Separator c)
    (closed : ¬ EndsQuoted (tokens before.toList)) (after : String) :
    stripNamespaces keep (before ++ String.singleton c ++ after) =
      stripNamespaces keep before ++ String.singleton c ++ stripNamespaces keep after := by
  apply String.toList_injective
  simp only [stripNamespaces, String.toList_append, String.toList_ofList, String.toList_singleton,
    List.append_assoc, List.singleton_append]
  rw [tokens_separated separator closed, List.flatMap_append, List.flatMap_cons]
  rfl

/-- A quoted text that ends with an escaped quote is closed by the next one, and a backslash behind it
escapes nothing. -/
theorem strip_separated_backslash :
    Separator '\\' ∧ ¬ EndsQuoted (tokens "Rx.Of<ns.T> | '\\''".toList) ∧
      stripNamespaces (· == "Rx") ("Rx.Of<ns.T> | '\\''" ++ String.singleton '\\' ++ "'p.q' & a.b.C") =
        "Rx.Of<T> | '\\''" ++ String.singleton '\\' ++ "'p.q' & C" := by
  have separator : Separator '\\' := ⟨by decide +kernel, by decide, by decide⟩
  have last : (tokens "Rx.Of<ns.T> | '\\''".toList).getLast? =
      some (.literal ['\'', '\\', '\'', '\'']) := by
    decide +kernel
  have closed : ¬ EndsQuoted (tokens "Rx.Of<ns.T> | '\\''".toList) := by
    intro ⟨front, quote, inside, same, unclosed⟩
    rw [same, List.getLast?_concat] at last
    cases last
    cases unclosed with
    | plain other unescaped more => exact unescaped rfl
    | escaped more =>
      cases more with
      | plain other unescaped more => exact other rfl
  have front : stripNamespaces (· == "Rx") "Rx.Of<ns.T> | '\\''" = "Rx.Of<T> | '\\''" := by decide +kernel
  have back : stripNamespaces (· == "Rx") "'p.q' & a.b.C" = "'p.q' & C" := by decide +kernel
  have split := strip_separated (· == "Rx") separator closed "'p.q' & a.b.C"
  rw [front, back] at split
  exact ⟨separator, closed, split⟩

-- Inside a quoted text that is still open, no separator ends it.
example : stripNamespaces (fun _ => false) ("'a" ++ String.singleton ' ' ++ "b.C") = "'a b.C" := by
  decide +kernel

end Separators

end ApiDocs.Proofs.StrippingLaws
