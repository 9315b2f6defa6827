import ApiDocs.Proofs.TypeTokens
import Mathlib.Data.List.Forall2

/-! Stripping by places in an array of characters: loops move an index along the text, and what is shown is
cut out between two places. Every character is read behind a comparison of its place with the size, so only
cuts can fail: one that is out of order or reaches past the end gives no result. On every text there is a
result, and it is the stripped text. -/

namespace ApiDocs.Proofs.IndexedScan

open TypeText TypeTokens

section Slices

variable {α : Type} {items : Array α} {i : Nat} {part rest : List α}

/-- The items from `start` up to `stop`, if the places are in order and the array reaches that far. -/
def slice (items : Array α) (start stop : Nat) : Option (List α) :=
  if start ≤ stop ∧ stop ≤ items.size then some (items.extract start stop).toList else none

/-- The items from a place on. -/
def tailAt (items : Array α) (i : Nat) : List α := items.toList.drop i

theorem tailAt_of_lt (inside : i < items.size) : tailAt items i = items[i] :: tailAt items (i + 1) := by
  rw [tailAt, List.drop_eq_getElem_cons (by simpa using inside), Array.getElem_toList, tailAt]

theorem tailAt_of_le (outside : items.size ≤ i) : tailAt items i = [] :=
  List.drop_eq_nil_of_le (by simpa using outside)

theorem size_of_tailAt (inside : i ≤ items.size) (spelled : tailAt items i = part ++ rest) :
    i + part.length + rest.length = items.size := by
  have whole := congrArg List.length spelled
  simp only [tailAt, List.length_drop, Array.length_toList, List.length_append] at whole
  omega

theorem tailAt_add (spelled : tailAt items i = part ++ rest) : tailAt items (i + part.length) = rest := by
  rw [tailAt] at spelled ⊢
  rw [← List.drop_drop, spelled, List.drop_left]

theorem slice_tailAt (inside : i ≤ items.size) (spelled : tailAt items i = part ++ rest) :
    slice items i (i + part.length) = some part := by
  have := size_of_tailAt inside spelled
  rw [slice, if_pos (by omega), Array.toList_extract, List.extract_eq_take_drop, ← tailAt, spelled,
    Nat.add_sub_cancel_left, List.take_left]

end Slices

section Loops

variable (chars : Array Char)

/-- The first place from `i` on whose character fails the test. -/
def spanEnd (test : Char → Bool) (i : Nat) : Nat :=
  if inside : i < chars.size then
    if test chars[i] then spanEnd test (i + 1) else i
  else i
termination_by chars.size - i

/-- The first place from `i` on where a quote stands that no backslash takes along. Without one the index
runs past the end, and one place further if the last character is a backslash. -/
def quoteEnd (quote : Char) (i : Nat) : Nat :=
  if inside : i < chars.size then
    if chars[i] == quote then i
    else if chars[i] == '\\' then quoteEnd quote (i + 1 + 1)
    else quoteEnd quote (i + 1)
  else i
termination_by chars.size - i

def literalEnd (quote : Char) (i : Nat) : Nat := min (quoteEnd chars quote i + 1) chars.size

/-- A dot stands here, and a name begins behind it. -/
def continuesAt (i : Nat) : Bool :=
  if inside : i + 1 < chars.size then chars[i] == '.' && isIdentStart chars[i + 1] else false

theorem lt_of_continuesAt {i : Nat} (continues : continuesAt chars i = true) : i + 1 < chars.size := by
  unfold continuesAt at continues
  split at continues
  · assumption
  · cases continues

theorem spanEnd_eq (test : Char → Bool) (i : Nat) :
    spanEnd chars test i = i + ((tailAt chars i).takeWhile test).length := by
  fun_induction spanEnd chars test i with
  | case1 i inside passes ih =>
    rw [ih, tailAt_of_lt inside, List.takeWhile_cons_of_pos passes, List.length_cons]
    omega
  | case2 i inside fails =>
    rw [tailAt_of_lt inside, List.takeWhile_cons_of_neg fails]
    rfl
  | case3 i outside =>
    rw [tailAt_of_le (Nat.le_of_not_lt outside)]
    rfl

/-- The index is held back at the end of the text, so a literal ends where its scan does. -/
theorem literalEnd_eq (quote : Char) {i : Nat} (inside : i ≤ chars.size) :
    literalEnd chars quote i = i + (scanLiteral quote (tailAt chars i)).1.length := by
  rw [literalEnd]
  fun_induction quoteEnd chars quote i with
  | case1 i here closing =>
    rw [tailAt_of_lt here]
    have : (scanLiteral quote (chars[i] :: tailAt chars (i + 1))).1 = [chars[i]] := by
      cases tailAt chars (i + 1) <;> simp [scanLiteral, closing]
    rw [this, List.length_singleton]
    omega
  | case2 i here open_ escape ih =>
    by_cases further : i + 1 < chars.size
    · rw [ih (by omega), tailAt_of_lt here, tailAt_of_lt further]
      simp only [scanLiteral, open_, escape, if_true, List.length_cons, Bool.false_eq_true, if_false]
      omega
    · rw [tailAt_of_lt here, tailAt_of_le (Nat.le_of_not_lt further), quoteEnd, dif_neg (by omega)]
      simp [scanLiteral]
      omega
  | case3 i here open_ plain ih =>
    rw [ih here, tailAt_of_lt here]
    cases tailAt chars (i + 1) with
    | nil => simp [scanLiteral]
    | cons d rest =>
      simp only [scanLiteral, open_, plain, Bool.false_eq_true, if_false, List.length_cons]
      omega
  | case4 i outside =>
    rw [tailAt_of_le (Nat.le_of_not_lt outside)]
    simp [scanLiteral]
    omega

-- A quote and a backslash: the search ends past the text, the literal with it.
example : quoteEnd #['\x27', '\\'] '\x27' 1 = 3 ∧ literalEnd #['\x27', '\\'] '\x27' 1 = 2 := by decide +kernel

theorem continuesAt_iff {i : Nat} : continuesAt chars i = true ↔ Continues (tailAt chars i) := by
  by_cases inside : i + 1 < chars.size
  · rw [continuesAt, dif_pos inside, tailAt_of_lt (Nat.lt_of_succ_lt inside), tailAt_of_lt inside]
    simp [Continues]
  · rw [continuesAt, dif_neg inside]
    refine iff_of_false Bool.false_ne_true ?_
    rintro ⟨c, rest, spelled, _⟩
    have := congrArg List.length spelled
    simp [tailAt] at this
    omega

end Loops

section Names

variable (chars : Array Char)

/-- The places of the segments of a name, and the place where it ends. -/
def segments (i : Nat) : List (Nat × Nat) × Nat :=
  let stop := spanEnd chars isIdentPart i
  if continuesAt chars stop then
    let (others, last) := segments (stop + 1)
    ((i, stop) :: others, last)
  else ([(i, stop)], stop)
termination_by chars.size - i
decreasing_by
  have := spanEnd_eq chars isIdentPart i
  have := lt_of_continuesAt chars ‹_›
  omega

/-- Some of the leading segments, short of all of them, are joined to a qualifier that is kept. -/
def keepsQualifier (keep : String → Bool) (names : Array (List Char)) : Option Bool :=
  (List.range' 1 (names.size - 1)).anyM fun count => do
    let leading ← slice names 0 count
    return keep (String.ofList (['.'].intercalate leading))

/-- What is shown for a name, given the places of its segments and its own. -/
def shownName (keep : String → Bool) (places : List (Nat × Nat)) (start stop : Nat) :
    Option (List Char) :=
  if places.length = 1 then slice chars start stop
  else do
    let names ← places.mapM fun place => slice chars place.1 place.2
    if ← keepsQualifier keep names.toArray then slice chars start stop
    else return names.getLastD []

theorem spanEnd_of_stops {test : Char → Bool} {i : Nat} {part after : List Char}
    (spelled : tailAt chars i = part ++ after) (all : ∀ c ∈ part, test c = true) (stops : Stops test after) :
    spanEnd chars test i = i + part.length := by
  rw [spanEnd_eq, spelled, (takeWhile_stops all stops).1]

/-- The first segment of a name ends in front of the others. -/
theorem spanEnd_name {name after : List Char} {rest : List (List Char)} {i : Nat} (isName : IsName name)
    (stops : Stops isIdentPart after) (spelled : tailAt chars i = name ++ (Token.dotted rest ++ after)) :
    spanEnd chars isIdentPart i = i + name.length := by
  obtain ⟨c, others, rfl, start, parts⟩ := isName
  refine spanEnd_of_stops chars spelled ?_ (stops_dotted stops rest)
  exact List.forall_mem_cons.mpr ⟨(nameStart start).part, parts⟩

/-- The places of the segments cut out a name's segments, and the name ends where the last of them does. -/
theorem segments_eq {first after : List Char} {rest : List (List Char)} {i : Nat} (inside : i ≤ chars.size)
    (spelled : tailAt chars i = first ++ (Token.dotted rest ++ after))
    (names : ∀ name ∈ first :: rest, IsName name) (stops : Stops isIdentPart after) (ends : ¬ Continues after) :
    List.Forall₂ (fun place name => slice chars place.1 place.2 = some name) (segments chars i).1
        (first :: rest) ∧
      (segments chars i).2 = i + (Token.chain first rest).source.length := by
  have cut := slice_tailAt inside spelled
  have behind := tailAt_add spelled
  have stop := spanEnd_name chars (names first List.mem_cons_self) stops spelled
  induction rest generalizing first i with
  | nil =>
    have noMore : ¬ continuesAt chars (i + first.length) = true := by
      rw [continuesAt_iff, behind]
      exact ends
    rw [segments, stop]
    simp only [if_neg noMore]
    exact ⟨.cons cut .nil, by simp [Token.source, Token.dotted]⟩
  | cons next rest ih =>
    have more : continuesAt chars (i + first.length) = true := by
      obtain ⟨c, others, rfl, start, _⟩ := names next (by simp)
      rw [continuesAt_iff, behind]
      exact ⟨c, _, rfl, start⟩
    have dot : tailAt chars (i + first.length) = ['.'] ++ (next ++ (Token.dotted rest ++ after)) := by
      simp [behind, Token.dotted]
    have spelled := tailAt_add dot
    have inside := Nat.le_of_lt (lt_of_continuesAt chars more)
    have others := List.forall_mem_cons.mp names
    obtain ⟨slices, last⟩ := ih inside spelled others.2 (slice_tailAt inside spelled) (tailAt_add spelled)
      (spanEnd_name chars (others.2 next List.mem_cons_self) stops spelled)
    rw [segments, stop]
    simp only [if_pos more]
    refine ⟨.cons cut slices, ?_⟩
    simp only [Token.source, Token.dotted, List.flatMap_cons, List.length_append, List.length_cons] at last ⊢
    omega

end Names

section Qualifiers

theorem intercalate_joined (dot first next : List Char) (rest : List (List Char)) :
    dot.intercalate ((first ++ dot ++ next) :: rest) = dot.intercalate (first :: next :: rest) := by
  cases rest <;> simp [List.intercalate]

/-- Qualifiers are what some of the leading segments are joined to. -/
theorem qualifiers_eq (first : List Char) (rest : List (List Char)) :
    Token.qualifiers first rest =
      (List.range' 1 rest.length).map fun count => ['.'].intercalate ((first :: rest).take count) := by
  induction rest generalizing first with
  | nil => rfl
  | cons next rest ih =>
    rw [Token.qualifiers, ih, List.length_cons, List.range'_succ, List.map_cons]
    congr 1
    · simp [List.intercalate]
    · rw [List.range'_succ_left (s := 1), List.map_map]
      refine List.map_congr_left fun count member => ?_
      obtain ⟨count, rfl⟩ := Nat.exists_eq_succ_of_ne_zero
        (Nat.ne_of_gt (List.mem_range'_1.mp member).1)
      rw [List.append_cons]
      exact intercalate_joined ['.'] first next (rest.take count)

theorem anyM_some {α : Type} {list : List α} {test : α → Option Bool} {holds : α → Bool}
    (all : ∀ item ∈ list, test item = some (holds item)) : list.anyM test = some (list.any holds) := by
  induction list with
  | nil => rfl
  | cons item list ih =>
    rw [List.anyM, all item List.mem_cons_self, ih fun other member => all other (List.mem_cons_of_mem _ member),
      List.any_cons]
    cases holds item <;> rfl

theorem keepsQualifier_eq (keep : String → Bool) (first : List Char) (rest : List (List Char)) :
    keepsQualifier keep (first :: rest).toArray = some (Token.isKept keep first rest) := by
  rw [Token.isKept, qualifiers_eq, List.any_map]
  refine anyM_some fun count member => ?_
  have short : count ≤ (first :: rest).length := by
    have := (List.mem_range'_1.mp member).2
    simp at this ⊢
    omega
  have leading : slice (first :: rest).toArray 0 (0 + ((first :: rest).take count).length) = _ :=
    slice_tailAt (Nat.zero_le _) (List.take_append_drop count (first :: rest)).symm
  rw [Nat.zero_add, List.length_take_of_le short] at leading
  rw [leading]
  rfl

end Qualifiers

section Tokens

theorem mapM_of_forall₂ {α β : Type} {items : List α} {results : List β} {body : α → Option β}
    (each : List.Forall₂ (fun item result => body item = some result) items results) :
    items.mapM body = some results := by
  induction each with
  | nil => rfl
  | cons first _ rest =>
    rw [List.mapM_cons, first, rest]
    rfl

variable (chars : Array Char)

/-- What is shown for the token at a place, and the place behind the token. -/
def tokenAt (keep : String → Bool) (i : Nat) (inside : i < chars.size) : Option (List Char × Nat) :=
  if isQuote chars[i] then do
    let stop := literalEnd chars chars[i] (i + 1)
    return (← slice chars i stop, stop)
  else if chars[i].isDigit then do
    let stop := spanEnd chars isNumberPart i
    return (← slice chars i stop, stop)
  else if isIdentStart chars[i] then do
    let (places, stop) := segments chars i
    return (← shownName chars keep places i stop, stop)
  else some ([chars[i]], i + 1)

variable {chars} {keep : String → Bool} {i : Nat}

theorem shownName_eq {places : List (Nat × Nat)} {first : List Char} {rest : List (List Char)} {stop : Nat}
    (names : List.Forall₂ (fun place name => slice chars place.1 place.2 = some name) places (first :: rest))
    (whole : slice chars i stop = some (Token.chain first rest).source) :
    shownName chars keep places i stop = some ((Token.chain first rest).shown keep) := by
  rw [shownName, names.length_eq, mapM_of_forall₂ names, whole]
  cases rest with
  | nil => simp [Token.shown, Token.source, Token.dotted]
  | cons next rest =>
    have several : ¬ (first :: next :: rest).length = 1 := by simp
    simp only [if_neg several, keepsQualifier_eq, Option.bind_eq_bind, Option.bind_some, Token.shown]
    split <;> rfl

/-- A token that fits is found at its place, and all of it is within the text. -/
theorem tokenAt_of_fits (inside : i < chars.size) {token : Token} {after : List Char} (fits : Fits token after)
    (spelled : tailAt chars i = token.source ++ after) :
    tokenAt chars keep i inside = some (token.shown keep, i + token.source.length) := by
  have whole := slice_tailAt (Nat.le_of_lt inside) spelled
  have here := (tailAt_of_lt inside).symm.trans spelled
  rw [tokenAt]
  cases fits with
  | @literal quote inner _ quoted read =>
    obtain ⟨same, _⟩ := List.cons.inj here
    have behind : tailAt chars (i + 1) = inner ++ after := (List.cons.inj here).2
    have stop : literalEnd chars quote (i + 1) = i + (Token.literal (quote :: inner)).source.length := by
      rw [literalEnd_eq chars quote inside, behind, scanLiteral_of_literal quoted read]
      exact Nat.add_right_comm i 1 inner.length
    simp only [same, if_pos quoted, stop, whole]
    rfl
  | @number c rest _ digit parts stops =>
    obtain ⟨same, _⟩ := List.cons.inj here
    have unquoted : ¬ isQuote c = true := fun quoted => by
      rw [isDigit_of_isQuote quoted] at digit
      cases digit
    have stop : spanEnd chars isNumberPart i = i + (Token.number (c :: rest)).source.length :=
      spanEnd_of_stops chars spelled (List.forall_mem_cons.mpr ⟨isNumberPart_of_isDigit digit, parts⟩) stops
    simp only [same, if_neg unquoted, if_pos digit, stop, whole]
    rfl
  | @chain first rest _ names stops ends =>
    rw [Token.source, List.append_assoc] at spelled
    obtain ⟨places, stop⟩ := segments_eq chars (Nat.le_of_lt inside) spelled names stops ends
    obtain ⟨c, others, rfl, start, _⟩ := names first List.mem_cons_self
    obtain ⟨same, _⟩ := List.cons.inj here
    have begins := nameStart start
    simp only [same, begins.unquoted, begins.noDigit, start, stop, shownName_eq places whole]
    rfl
  | other unquoted noDigit noStart =>
    obtain ⟨same, _⟩ := List.cons.inj here
    simp [same, unquoted, noDigit, noStart, Token.shown, Token.source]

theorem tokenAt_eq (inside : i < chars.size) :
    tokenAt chars keep i inside =
      some ((scanToken chars[i] (tailAt chars (i + 1))).1.shown keep,
        i + (scanToken chars[i] (tailAt chars (i + 1))).1.source.length) := by
  refine tokenAt_of_fits inside (fits_scanToken _ _) ?_
  rw [scanToken_append, tailAt_of_lt inside]

/-- Adds what is shown for the tokens from a place on. -/
def stripFrom (chars : Array Char) (keep : String → Bool) (i : Nat) (out : List Char) : Option (List Char) :=
  if inside : i < chars.size then
    match _ : tokenAt chars keep i inside with
    | some (shown, next) => stripFrom chars keep next (out ++ shown)
    | none => none
  else some out
termination_by chars.size - i
decreasing_by
  have advances := List.length_pos_iff.mpr (scanToken_source_ne_nil chars[i] (tailAt chars (i + 1)))
  cases ‹tokenAt chars keep i inside = _›.symm.trans (tokenAt_eq inside)
  omega

theorem stripFrom_eq (out : List Char) :
    stripFrom chars keep i out = some (out ++ (tokens (tailAt chars i)).flatMap (Token.shown keep)) := by
  fun_induction stripFrom chars keep i out with
  | case1 i out inside shown next read ih =>
    have spelled := scanToken_append chars[i] (tailAt chars (i + 1))
    rw [← tailAt_of_lt inside] at spelled
    cases read.symm.trans (tokenAt_eq inside)
    rw [ih, tailAt_add spelled.symm, tailAt_of_lt inside, tokens, List.flatMap_cons, List.append_assoc]
  | case2 i out inside failed => cases failed.symm.trans (tokenAt_eq inside)
  | case3 i out outside =>
    rw [tailAt_of_le (Nat.le_of_not_lt outside), tokens, List.flatMap_nil, List.append_nil]

end Tokens

/-- The text with dotted names cut, if no slice is out of range on the way. -/
def stripIndexed (keep : String → Bool) (text : String) : Option String :=
  (stripFrom text.toList.toArray keep 0 []).map String.ofList

theorem stripIndexed_eq (keep : String → Bool) (text : String) :
    stripIndexed keep text = some (stripNamespaces keep text) := by
  rw [stripIndexed, stripFrom_eq, List.nil_append, Option.map_some]
  rfl

end ApiDocs.Proofs.IndexedScan
