import ApiDocs.Proofs.LeadingRuns
import ApiDocs.TypeText.Strip
import Mathlib.Data.List.Basic

/-! The tokens of type texts. A token fits before a rest if scanning stops after it there, so the tokens
of a text are the only ones that spell it and fit. Cutting dotted names keeps all other tokens. -/

namespace ApiDocs.Proofs.TypeTokens

open Text TypeText

section Characters

theorem mem_of_search {ranges : Array (Nat × Nat)} {code low high : Nat}
    (found : CodeRanges.search ranges code low high = true) :
    ∃ range ∈ ranges.toList, range.1 ≤ code ∧ code ≤ range.2 := by
  fun_induction CodeRanges.search ranges code low high with
  | case1 | case5 => cases found
  | case2 low high _ first last _ _ ih | case3 low high _ first last _ _ _ ih => exact ih found
  | case4 low high _ first last there first_le le_last =>
    exact ⟨(first, last), Array.mem_toList_iff.mpr (Array.mem_of_getElem? there), by omega, by omega⟩

theorem isWhite_of_isAlphabetic {c : Char} (letter : isAlphabetic c = true) : isWhite c = false := by
  have apart : (alphabetic.ranges.toList.all fun range => whiteSpace.ranges.toList.all fun white =>
      range.2 < white.1 || white.2 < range.1) = true := by decide +kernel
  by_contra both
  obtain ⟨range, member, low, high⟩ := mem_of_search letter
  obtain ⟨white, memberToo, lowToo, highToo⟩ := mem_of_search (Bool.not_eq_false _ ▸ both)
  have := List.all_eq_true.mp (List.all_eq_true.mp apart range member) white memberToo
  simp only [Bool.or_eq_true, decide_eq_true_eq] at this
  omega

theorem isDigit_of_isAlphabetic {c : Char} (letter : isAlphabetic c = true) : c.isDigit = false := by
  have behind : (alphabetic.ranges.toList.all fun range => '9'.toNat < range.1) = true := by decide +kernel
  obtain ⟨range, member, low, _⟩ := mem_of_search letter
  have large := of_decide_eq_true (List.all_eq_true.mp behind range member)
  by_contra digit
  simp only [Char.isDigit, Bool.not_eq_false, Bool.and_eq_true, decide_eq_true_eq] at digit
  have small : c.toNat ≤ '9'.toNat := digit.2
  omega

theorem isIdentPart_of_isDigit {c : Char} (digit : c.isDigit = true) : isIdentPart c = true := by
  have listed : ((List.range 10).all fun value =>
      CodeRanges.search number.ranges ('0'.toNat + value) 0 number.ranges.size) = true := by
    decide +kernel
  simp only [Char.isDigit, Bool.and_eq_true, decide_eq_true_eq] at digit
  have low : '0'.toNat ≤ c.toNat := digit.1
  have high : c.toNat ≤ '0'.toNat + 9 := digit.2
  have inside : c.toNat - '0'.toNat ∈ List.range 10 := by
    rw [List.mem_range]
    omega
  have found := List.all_eq_true.mp listed _ inside
  rw [Nat.add_sub_cancel' low] at found
  simp [isIdentPart, isAlphanumeric, CodeRanges.contains, found]

theorem isDigit_of_isQuote {c : Char} (quoted : isQuote c = true) : c.isDigit = false := by
  simp only [isQuote, Bool.or_eq_true, beq_iff_eq] at quoted
  obtain (rfl | rfl) | rfl := quoted <;> rfl

/-- What begins a name begins no other token, and is no white space. -/
structure NameStart (c : Char) : Prop where
  unquoted : isQuote c = false
  noDigit : c.isDigit = false
  solid : isWhite c = false
  part : isIdentPart c = true
  noDot : c ≠ '.'

theorem nameStart {c : Char} (start : isIdentStart c = true) : NameStart c := by
  have excluded : (['\x22', '\x27', '\x60', '.'].all fun other => !isIdentStart other) = true := by
    decide +kernel
  have different : ∀ other ∈ ['\x22', '\x27', '\x60', '.'], c ≠ other := by
    intro other member same
    subst same
    have foreign := List.all_eq_true.mp excluded c member
    simp [start] at foreign
  refine ⟨?_, ?_, ?_, ?_, different '.' (by simp)⟩
  · simp only [List.forall_mem_cons] at different
    simp [isQuote, different]
  all_goals
    simp only [isIdentStart, Bool.or_eq_true, beq_iff_eq] at start
    obtain (letter | rfl) | rfl := start
  · exact isDigit_of_isAlphabetic letter
  · rfl
  · rfl
  · exact isWhite_of_isAlphabetic letter
  · decide +kernel
  · decide +kernel
  · simp only [isIdentPart, isAlphanumeric, show alphabetic.contains c = true from letter, Bool.true_or]
  · decide +kernel
  · decide +kernel

theorem isIdentPart_dot : isIdentPart '.' = false := by decide +kernel

end Characters

section Scanning

/-- What is read of a quoted text behind its opening quote: all up to the closing quote, which no
backslash may take along, or the whole rest if there is none. -/
inductive Literal (quote : Char) : List Char → List Char → Prop where
  | closed {after} : Literal quote [quote] after
  | unclosed : Literal quote [] []
  | escaping : Literal quote ['\\'] []
  | plain {c chars after} (other : c ≠ quote) (unescaped : c ≠ '\\') (more : Literal quote chars after) :
      Literal quote (c :: chars) after
  | escaped {c chars after} (more : Literal quote chars after) : Literal quote ('\\' :: c :: chars) after

def IsName (chars : List Char) : Prop :=
  ∃ c rest, chars = c :: rest ∧ isIdentStart c = true ∧ ∀ d ∈ rest, isIdentPart d = true

def isNumberPart (char : Char) : Bool := isIdentPart char || char == '.'

theorem isNumberPart_of_isDigit {c : Char} (digit : c.isDigit = true) : isNumberPart c = true := by
  rw [isNumberPart, isIdentPart_of_isDigit digit, Bool.true_or]

/-- The text goes on with a dot and a name. -/
def Continues (after : List Char) : Prop :=
  ∃ c rest, after = '.' :: c :: rest ∧ isIdentStart c = true

/-- A token that is scanned if it stands before the given rest. -/
inductive Fits : Token → List Char → Prop where
  | literal {quote chars after} (quoted : isQuote quote = true) (read : Literal quote chars after) :
      Fits (.literal (quote :: chars)) after
  | number {c rest after} (digit : c.isDigit = true) (parts : ∀ d ∈ rest, isNumberPart d = true)
      (stops : Stops isNumberPart after) : Fits (.number (c :: rest)) after
  | chain {first rest after} (names : ∀ name ∈ first :: rest, IsName name)
      (stops : Stops isIdentPart after) (ends : ¬ Continues after) : Fits (.chain first rest) after
  | other {c after} (unquoted : isQuote c = false) (noDigit : c.isDigit = false)
      (noStart : isIdentStart c = false) : Fits (.other c) after

theorem scanLiteral_of_literal {quote : Char} {chars after : List Char} (quoted : isQuote quote = true)
    (read : Literal quote chars after) : scanLiteral quote (chars ++ after) = (chars, after) := by
  induction read with
  | @closed after => cases after <;> simp [scanLiteral]
  | unclosed | escaping => rfl
  | @plain c chars after other unescaped more ih =>
    -- The scan looks at two characters at once, so the last one is a case of its own.
    cases remaining : chars ++ after with
    | nil =>
      obtain ⟨rfl, rfl⟩ := List.append_eq_nil_iff.mp remaining
      rfl
    | cons d others =>
      rw [remaining] at ih
      simp [scanLiteral, remaining, other, unescaped, ih]
  | escaped more ih =>
    have different : '\\' ≠ quote := by
      intro same
      subst same
      cases quoted
    simp [scanLiteral, different, ih]

theorem literal_scanLiteral (quote : Char) (chars : List Char) :
    Literal quote (scanLiteral quote chars).1 (scanLiteral quote chars).2 := by
  fun_induction scanLiteral quote chars with
  | case1 => exact .unclosed
  | case2 last =>
    by_cases closing : last = quote
    · rw [closing]
      exact .closed
    · by_cases escape : last = '\\'
      · rw [escape]
        exact .escaping
      · exact .plain closing escape .unclosed
  | case3 c d rest closing =>
    rw [beq_iff_eq.mp closing]
    exact .closed
  | case4 c d rest open_ escape inside after scanned ih =>
    rw [scanned] at ih
    rw [beq_iff_eq.mp escape]
    exact .escaped ih
  | case5 c d rest open_ plain inside after scanned ih =>
    rw [scanned] at ih
    exact .plain (by simpa using open_) (by simpa using plain) ih

theorem stops_dotted {after : List Char} (stops : Stops isIdentPart after) (names : List (List Char)) :
    Stops isIdentPart (Token.dotted names ++ after) := by
  cases names with
  | nil => exact stops
  | cons name names =>
    intro c first
    cases first
    exact isIdentPart_dot

theorem scanSegments_stops {after : List Char} (ends : ¬ Continues after) :
    scanSegments after = ([], after) := by
  unfold scanSegments
  split
  next c rest =>
    rw [if_neg]
    intro start
    exact ends ⟨c, rest, rfl, start⟩
  · rfl

theorem scanSegments_names {names : List (List Char)} {after : List Char}
    (all : ∀ name ∈ names, IsName name) (stops : Stops isIdentPart after) (ends : ¬ Continues after) :
    scanSegments (Token.dotted names ++ after) = (names, after) := by
  induction names with
  | nil => exact scanSegments_stops ends
  | cons name names ih =>
    obtain ⟨c, rest, rfl, start, parts⟩ := all name List.mem_cons_self
    have remaining := ih fun other member => all other (List.mem_cons_of_mem _ member)
    obtain ⟨taken, dropped⟩ := takeWhile_stops parts (stops_dotted stops names)
    have spelled : Token.dotted ((c :: rest) :: names) ++ after =
        '.' :: c :: (rest ++ (Token.dotted names ++ after)) := by
      simp [Token.dotted]
    rw [spelled, scanSegments, if_pos start, taken, dropped, remaining]

theorem isName_takeWhile {c : Char} (start : isIdentStart c = true) (rest : List Char) :
    IsName (c :: rest.takeWhile isIdentPart) :=
  ⟨c, _, rfl, start, fun _ => List.mem_takeWhile_imp⟩

theorem names_scanSegments (chars : List Char) :
    (∀ name ∈ (scanSegments chars).1, IsName name) ∧ ¬ Continues (scanSegments chars).2 ∧
      (Stops isIdentPart chars → Stops isIdentPart (scanSegments chars).2) := by
  fun_induction scanSegments chars with
  | case1 c rest start segments after scanned ih =>
    rw [scanned] at ih
    obtain ⟨names, ends, stops⟩ := ih
    refine ⟨List.forall_mem_cons.mpr ⟨isName_takeWhile start rest, names⟩, ends, ?_⟩
    exact fun _ => stops (stops_dropWhile _ _)
  | case2 c rest noStart =>
    refine ⟨by simp, ?_, id⟩
    intro continues
    obtain ⟨_, _, same, start⟩ := continues
    cases same
    exact noStart start
  | case3 chars plain =>
    refine ⟨by simp, ?_, id⟩
    intro continues
    obtain ⟨c, rest, same, _⟩ := continues
    exact plain c rest same

/-- A token that fits is the one that is scanned. -/
theorem scanToken_of_fits {token : Token} {after : List Char} (fits : Fits token after) :
    ∃ c rest, token.source ++ after = c :: rest ∧ scanToken c rest = (token, after) := by
  cases fits with
  | @literal quote chars _ quoted read =>
    refine ⟨quote, chars ++ after, rfl, ?_⟩
    rw [scanToken, if_pos quoted, scanLiteral_of_literal quoted read]
  | @number c rest _ digit parts stops =>
    obtain ⟨taken, dropped⟩ := takeWhile_stops parts stops
    have unquoted : ¬ isQuote c = true := by
      intro quoted
      rw [isDigit_of_isQuote quoted] at digit
      cases digit
    refine ⟨c, rest ++ after, rfl, ?_⟩
    rw [scanToken, if_neg unquoted, if_pos digit]
    exact congrArg₂ (fun rest after => (Token.number (c :: rest), after)) taken dropped
  | @chain first rest _ names stops ends =>
    have segments := scanSegments_names (List.forall_mem_cons.mp names).2 stops ends
    obtain ⟨c, others, rfl, start, parts⟩ := names first List.mem_cons_self
    have begins := nameStart start
    obtain ⟨taken, dropped⟩ := takeWhile_stops parts (stops_dotted stops rest)
    refine ⟨c, others ++ (Token.dotted rest ++ after), by simp [Token.source], ?_⟩
    simp [scanToken, begins.unquoted, begins.noDigit, start, taken, dropped, segments]
  | @other c _ unquoted noDigit noStart =>
    exact ⟨c, after, rfl, by simp [scanToken, unquoted, noDigit, noStart]⟩

/-- What is scanned fits before what is left. -/
theorem fits_scanToken (c : Char) (rest : List Char) : Fits (scanToken c rest).1 (scanToken c rest).2 := by
  unfold scanToken
  split
  next quoted => exact .literal quoted (literal_scanLiteral c rest)
  next unquoted =>
    split
    next digit => exact .number digit (fun d => List.mem_takeWhile_imp) (stops_dropWhile _ _)
    next noDigit =>
      split
      next start =>
        obtain ⟨names, ends, stops⟩ := names_scanSegments (rest.dropWhile isIdentPart)
        have all := List.forall_mem_cons.mpr ⟨isName_takeWhile start rest, names⟩
        exact .chain all (stops (stops_dropWhile _ _)) ends
      next noStart => exact .other (by simpa using unquoted) (by simpa using noDigit) (by simpa using noStart)

end Scanning

section Spelling

/-- Every token fits before the text of those behind it. -/
def Spelled : List Token → Prop
  | [] => True
  | token :: rest => Fits token (rest.flatMap Token.source) ∧ Spelled rest

theorem spelled_tokens (chars : List Char) : Spelled (tokens chars) := by
  fun_induction tokens chars with
  | case1 => trivial
  | case2 c rest ih =>
    refine ⟨?_, ih⟩
    rw [flatMap_source_tokens]
    exact fits_scanToken c rest

theorem tokens_of_spelled {list : List Token} (spelled : Spelled list) :
    tokens (list.flatMap Token.source) = list := by
  induction list with
  | nil => simp [tokens]
  | cons token list ih =>
    obtain ⟨fits, rest⟩ := spelled
    obtain ⟨c, others, same, scanned⟩ := scanToken_of_fits fits
    rw [List.flatMap_cons, same, tokens, scanned, ih rest]

/-- The tokens of a text are those that spell it and fit. -/
theorem tokens_eq_iff {chars : List Char} {list : List Token} :
    tokens chars = list ↔ Spelled list ∧ list.flatMap Token.source = chars := by
  constructor
  · intro same
    subst same
    exact ⟨spelled_tokens chars, flatMap_source_tokens chars⟩
  · intro spelled
    obtain ⟨spelled, rfl⟩ := spelled
    exact tokens_of_spelled spelled

end Spelling

section Cutting

/-- The token that is shown for a token. -/
def cut (keep : String → Bool) : Token → Token
  | .chain first rest =>
    if Token.isKept keep first rest then .chain first rest else .chain (rest.getLastD first) []
  | token => token

variable (keep : String → Bool)

theorem source_cut (token : Token) : (cut keep token).source = token.shown keep := by
  cases token with
  | chain first rest =>
    simp only [cut, Token.shown]
    split
    · rfl
    · exact List.append_nil _
  | literal | number | other => rfl

/-- What is shown already is shown unchanged. -/
theorem shown_cut (token : Token) : (cut keep token).shown keep = token.shown keep := by
  cases token with
  | chain first rest =>
    by_cases kept : Token.isKept keep first rest = true
    · rw [cut, if_pos kept]
    · rw [cut, if_neg kept, Token.shown, Token.shown, if_neg kept]
      rfl
  | literal | number | other => rfl

/-- A cut name is made of names that were there. -/
theorem names_cut {first : List Char} {rest : List (List Char)}
    (names : ∀ name ∈ first :: rest, IsName name) :
    ∃ head tail, cut keep (.chain first rest) = .chain head tail ∧
      ∀ name ∈ head :: tail, IsName name := by
  by_cases kept : Token.isKept keep first rest = true
  · exact ⟨first, rest, if_pos kept, names⟩
  · refine ⟨rest.getLastD first, [], if_neg kept, List.forall_mem_singleton.mpr ?_⟩
    exact names _ List.getLastD_mem_cons

/-- Two texts that look alike to a scan that is about to end: they begin with names, or with the same
character and, behind a dot, alike. -/
inductive Alike : List Char → List Char → Prop where
  | nil : Alike [] []
  | names {c d rest others} (start : isIdentStart c = true) (startToo : isIdentStart d = true) :
      Alike (c :: rest) (d :: others)
  | same {c rest others} (behind : c = '.' → Alike rest others) : Alike (c :: rest) (c :: others)

namespace Alike

variable {before after : List Char}

theorem stops {test : Char → Bool}
    (agrees : ∀ c d, isIdentStart c = true → isIdentStart d = true → test c = test d)
    (alike : Alike before after) (stops : Stops test before) : Stops test after := by
  cases alike with
  | nil => exact stops
  | @names c d rest others start startToo =>
    intro other first
    cases first
    rw [← agrees c d start startToo]
    exact stops c rfl
  | same behind => exact stops

theorem continues (alike : Alike before after) (continues : Continues after) : Continues before := by
  obtain ⟨d, others, rfl, start⟩ := continues
  cases alike with
  | names _ dot => exact absurd rfl (nameStart dot).noDot
  | same behind =>
    cases behind rfl with
    | names first _ => exact ⟨_, _, rfl, first⟩
    | same _ => exact ⟨_, _, rfl, start⟩

theorem literal {quote : Char} {chars : List Char} (alike : Alike before after)
    (read : Literal quote chars before) : Literal quote chars after := by
  induction read with
  | closed => exact .closed
  | unclosed =>
    cases alike
    exact .unclosed
  | escaping =>
    cases alike
    exact .escaping
  | plain other unescaped more ih => exact .plain other unescaped (ih alike)
  | escaped more ih => exact .escaped (ih alike)

end Alike

theorem fits_cut {token : Token} {before after : List Char} (fits : Fits token before)
    (alike : Alike before after) : Fits (cut keep token) after := by
  cases fits with
  | literal quoted read => exact .literal quoted (alike.literal read)
  | number digit parts stops =>
    refine .number digit parts (alike.stops ?_ stops)
    intro c d start startToo
    simp [isNumberPart, (nameStart start).part, (nameStart startToo).part]
  | chain names stops ends =>
    obtain ⟨head, tail, same, namesToo⟩ := names_cut keep names
    rw [same]
    refine .chain namesToo (alike.stops ?_ stops) fun continues => ends (alike.continues continues)
    intro c d start startToo
    rw [(nameStart start).part, (nameStart startToo).part]
  | other unquoted noDigit noStart => exact .other unquoted noDigit noStart

/-- Cutting names changes nothing that the scan of an earlier token can see. -/
theorem alike_cut {list : List Token} (spelled : Spelled list) :
    Alike (list.flatMap Token.source) ((list.map (cut keep)).flatMap Token.source) := by
  induction list with
  | nil => exact .nil
  | cons token list ih =>
    obtain ⟨fits, rest⟩ := spelled
    rw [List.map_cons, List.flatMap_cons, List.flatMap_cons]
    cases fits with
    | @literal quote _ _ quoted read =>
      refine .same fun dot => ?_
      subst dot
      cases quoted
    | @number c _ _ digit parts stops =>
      refine .same fun dot => ?_
      subst dot
      cases digit
    | chain names stops ends =>
      obtain ⟨head, tail, same, namesToo⟩ := names_cut keep names
      obtain ⟨c, _, rfl, start, _⟩ := names _ List.mem_cons_self
      obtain ⟨d, _, rfl, startToo, _⟩ := namesToo _ List.mem_cons_self
      rw [same]
      exact .names start startToo
    | other =>
      -- Behind a dot an earlier scan sees one character more, so the dot needs the induction.
      exact .same fun _ => ih rest

theorem spelled_cut {list : List Token} (spelled : Spelled list) : Spelled (list.map (cut keep)) := by
  induction list with
  | nil => trivial
  | cons token list ih =>
    obtain ⟨fits, rest⟩ := spelled
    exact ⟨fits_cut keep fits (alike_cut keep rest), ih rest⟩

theorem flatMap_shown (list : List Token) :
    list.flatMap (Token.shown keep) = (list.map (cut keep)).flatMap Token.source := by
  rw [List.flatMap_map]
  simp only [source_cut]

/-- Stripping cuts the tokens of a text, and no others arise. -/
theorem tokens_shown (chars : List Char) :
    tokens ((tokens chars).flatMap (Token.shown keep)) = (tokens chars).map (cut keep) := by
  have spelled := spelled_cut keep (spelled_tokens chars)
  exact tokens_eq_iff.mpr ⟨spelled, (flatMap_shown keep (tokens chars)).symm⟩

theorem stripNamespaces_stripped (text : String) :
    stripNamespaces keep (stripNamespaces keep text) = stripNamespaces keep text := by
  unfold stripNamespaces
  rw [String.toList_ofList, tokens_shown, List.flatMap_map]
  simp only [shown_cut]

end Cutting

section Ends

/-- There is no white space at either end. -/
structure Trimmed (chars : List Char) : Prop where
  front : Stops isWhite chars
  back : Stops isWhite chars.reverse

theorem trimmed_trimChars (chars : List Char) : Trimmed (trimChars chars) := by
  constructor
  · intro c first
    have whole := List.takeWhile_append_dropWhile (p := isWhite) (l := (chars.dropWhile isWhite).reverse)
    have there : c ∈ (chars.dropWhile isWhite).head? := by
      rw [trimChars, List.head?_reverse] at first
      rw [← List.getLast?_reverse, ← whole, List.getLast?_append, Option.mem_def.mp first]
      rfl
    exact stops_dropWhile isWhite chars c there
  · rw [trimChars, List.reverse_reverse]
    exact stops_dropWhile isWhite _

variable (keep : String → Bool)

theorem getLast?_chain {first : List Char} {rest : List (List Char)}
    (names : ∀ name ∈ first :: rest, IsName name) :
    (Token.chain first rest).source.getLast? = (rest.getLastD first).getLast? := by
  induction rest generalizing first with
  | nil => simp [Token.source, Token.dotted]
  | cons name rest ih =>
    have last := ih fun other member => names other (List.mem_cons_of_mem _ member)
    obtain ⟨c, others, same, _⟩ := names name (by simp)
    have spelled : (Token.chain first (name :: rest)).source =
        (first ++ ['.']) ++ (Token.chain name rest).source := by
      simp [Token.source, Token.dotted]
    have nonempty : (Token.chain name rest).source ≠ [] := by simp [Token.source, same]
    rw [spelled, List.getLast?_append_of_ne_nil _ nonempty, last, List.getLastD_cons]

theorem getLast?_cut {token : Token} {after : List Char} (fits : Fits token after) :
    (cut keep token).source.getLast? = token.source.getLast? := by
  cases fits with
  | chain names stops ends =>
    rw [getLast?_chain names, source_cut, Token.shown]
    split
    · exact getLast?_chain names
    · rfl
  | literal | number | other => rfl

/-- Cutting names keeps the last character. -/
theorem getLast?_flatMap_cut {list : List Token} (spelled : Spelled list) :
    ((list.map (cut keep)).flatMap Token.source).getLast? = (list.flatMap Token.source).getLast? := by
  induction list with
  | nil => rfl
  | cons token list ih =>
    obtain ⟨fits, rest⟩ := spelled
    simp only [List.map_cons, List.flatMap_cons, List.getLast?_append, ih rest, getLast?_cut keep fits]

theorem trimmed_shown {chars : List Char} (trimmed : Trimmed chars) :
    Trimmed ((tokens chars).flatMap (Token.shown keep)) := by
  have spelled := spelled_tokens chars
  have alike := alike_cut keep spelled
  have last := getLast?_flatMap_cut keep spelled
  rw [flatMap_source_tokens] at alike last
  rw [flatMap_shown]
  constructor
  · refine alike.stops ?_ trimmed.front
    intro c d start startToo
    rw [(nameStart start).solid, (nameStart startToo).solid]
  · intro c first
    rw [List.head?_reverse, last, ← List.head?_reverse] at first
    exact trimmed.back c first

/-- A type in its final form: nothing is left to strip, and no white space stands around it. -/
structure Final (type : String) : Prop where
  stripped : stripNamespaces keep type = type
  trimmed : Trimmed type.toList

theorem final_display (raw : String) : Final keep (display keep raw) := by
  refine ⟨stripNamespaces_stripped keep _, ?_⟩
  rw [display, stripNamespaces, String.toList_ofList, trim, String.toList_ofList]
  exact trimmed_shown keep (trimmed_trimChars raw.toList)

end Ends

end ApiDocs.Proofs.TypeTokens
