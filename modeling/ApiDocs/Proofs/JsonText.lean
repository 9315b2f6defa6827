import ApiDocs.Json.Write
import ApiDocs.Proofs.JsonTokens
import ApiDocs.Proofs.LeadingRuns
import ApiDocs.Proofs.Outcome
import Mathlib.Data.List.Chain

/-! Values and their text. In either layout the text of a value is split into the tokens of the
value again: escapes stand for their characters, and no number runs into what follows it. -/

namespace ApiDocs.Proofs.JsonText

open Json Text JsonTokens

section Texts

theorem push_char (earlier : List Piece) (c : Char) :
    Piece.push earlier (.char c) = .char c :: earlier := by
  cases earlier with
  | nil => rfl
  | cons piece earlier => cases piece <;> rfl

theorem scanEscape_control {c : Char} (control : c.toNat < 0x20) (rest : List Char) :
    scanEscape ('u' :: '0' :: '0' :: hexDigit (c.toNat / 16) :: hexDigit (c.toNat % 16) :: rest) =
      some (.char c, rest) := by
  have high := hexDigit?_hexDigit (show c.toNat / 16 < 16 by omega)
  have low := hexDigit?_hexDigit (show c.toNat % 16 < 16 by omega)
  have zero : hexDigit? '0' = some 0 := by decide
  have code := Nat.div_add_mod' c.toNat 16
  have plain : Piece.ofCode c.toNat = .char c := by
    rw [Piece.ofCode, if_neg (by omega), Char.ofNat_toNat]
  simp [scanEscape, high, low, zero, code, plain]

theorem scanText_escaped {c : Char} {chars rest : List Char}
    (read : scanEscape chars = some (.char c, rest)) (earlier : List Piece) :
    scanText earlier ('\\' :: chars) = scanText (.char c :: earlier) rest := by
  rw [scanText]
  split
  next missing => simp [read] at missing
  next piece after found =>
    rw [read] at found
    cases found
    rw [push_char]

theorem scanText_escape (earlier : List Piece) (c : Char) (rest : List Char) :
    scanText earlier (escape c ++ rest) = scanText (.char c :: earlier) rest := by
  unfold escape
  split
  iterate 7 exact scanText_escaped rfl earlier
  next notQuote notBackslash _ _ _ _ _ =>
    split
    next control => exact scanText_escaped (scanEscape_control control rest) earlier
    next plain =>
      rw [List.singleton_append, scanText.eq_def]
      simp only
      rw [if_neg plain]

theorem scanText_escapes (chars rest : List Char) (earlier : List Piece) :
    scanText earlier (chars.flatMap escape ++ '\x22' :: rest) =
      scanText ((chars.map .char).reverse ++ earlier) ('\x22' :: rest) := by
  induction chars generalizing earlier with
  | nil => rfl
  | cons c chars ih =>
    rw [List.flatMap_cons, List.append_assoc, scanText_escape, ih]
    simp

theorem mapM_char? (chars : List Char) : (chars.map Piece.char).mapM Piece.char? = some chars := by
  have whole : (chars.map Piece.char).mapM Piece.char? = some (chars.map id) := by
    rw [List.mapM_map]
    exact mapM_eq_map fun _ _ => rfl
  rw [whole, List.map_id]

theorem scanText_written (chars rest : List Char) :
    scanText [] (chars.flatMap escape ++ '\x22' :: rest) = some (.str (String.ofList chars), rest) := by
  rw [scanText_escapes, scanText, List.append_nil, List.reverse_reverse, mapM_char?]

end Texts

section Numbers

/-- A number may go on with the character. -/
def goesOn (c : Char) : Bool := c.isDigit || c == '.' || c == 'e' || c == 'E'

theorem goesOn_eq_false {c : Char} :
    goesOn c = false ↔ c.isDigit = false ∧ c ≠ '.' ∧ c ≠ 'e' ∧ c ≠ 'E' := by
  simp [goesOn, and_assoc]

theorem stops_isDigit {rest : List Char} (stops : Stops goesOn rest) : Stops Char.isDigit rest :=
  stops.mono fun c digit => by simp [goesOn, digit]

theorem digits_nonzero {value : Nat} (positive : 0 < value) :
    ∃ digit rest, Nat.toDigits 10 value = digit :: rest ∧ digit ≠ '0' := by
  induction value using Nat.strongRecOn with
  | ind value ih =>
    rw [Nat.toDigits_eq_if (by decide)]
    split
    next small =>
      have nonzero : ∀ digit < 10, 0 < digit → Nat.digitChar digit ≠ '0' := by decide
      exact ⟨_, _, rfl, nonzero value small positive⟩
    next large =>
      obtain ⟨digit, rest, spelled, nonzero⟩ := ih (value / 10) (by omega) (by omega)
      exact ⟨digit, rest ++ [(value % 10).digitChar], by rw [spelled, List.cons_append], nonzero⟩

theorem digits_all (value : Nat) : ∀ c ∈ Nat.toDigits 10 value, c.isDigit = true :=
  fun _ member => Nat.isDigit_of_mem_toDigits (by decide) (by decide) member

theorem scanDigits_written {digits rest : List Char} (nonempty : digits ≠ [])
    (all : ∀ c ∈ digits, c.isDigit = true) (stops : Stops Char.isDigit rest) :
    scanDigits (digits ++ rest) = some (digits, rest) := by
  obtain ⟨taken, dropped⟩ := takeWhile_stops all stops
  rw [scanDigits, taken, dropped]
  cases digits with
  | nil => exact absurd rfl nonempty
  | cons digit digits => rfl

theorem scanWhole_written (value : Nat) {rest : List Char} (stops : Stops Char.isDigit rest) :
    scanWhole (Nat.toDigits 10 value ++ rest) = some (Nat.toDigits 10 value, rest) := by
  rcases Nat.eq_zero_or_pos value with rfl | positive
  · rw [Nat.toDigits_zero]
    rfl
  · have scanned := scanDigits_written Nat.toDigits_ne_nil (digits_all value) stops
    obtain ⟨digit, others, spelled, nonzero⟩ := digits_nonzero positive
    rw [spelled, List.cons_append] at scanned ⊢
    unfold scanWhole
    split
    next same =>
      cases same
      exact absurd rfl nonzero
    next => exact scanned

theorem scanFraction_stops {rest : List Char} (stops : Stops goesOn rest) :
    scanFraction rest = some ([], rest) := by
  unfold scanFraction
  split
  next => exact absurd rfl (goesOn_eq_false.mp (stops '.' rfl)).2.1
  next => rfl

theorem scanExponent_stops {rest : List Char} (stops : Stops goesOn rest) :
    scanExponent rest = some ([], rest) := by
  cases rest with
  | nil => rfl
  | cons c rest =>
    obtain ⟨_, _, small, large⟩ := goesOn_eq_false.mp (stops c rfl)
    simp [scanExponent, small, large]

theorem scanUnsigned_written (value : Nat) {rest : List Char} (stops : Stops goesOn rest) :
    scanUnsigned [] (Nat.toDigits 10 value ++ rest) = some (.num value, rest) := by
  simp [scanUnsigned, scanWhole_written value (stops_isDigit stops), scanFraction_stops stops,
    scanExponent_stops stops, Nat.ofDigitChars_ten_toDigits]

theorem scanToken_digit {c : Char} (digit : c.isDigit = true) (rest : List Char) :
    scanToken c rest = (scanUnsigned [] (c :: rest)).map fun (number, rest) => (.scalar number, rest) := by
  unfold scanToken
  split
  iterate 11 exact absurd digit (by decide)
  next => rfl

end Numbers

section Tokens

/-- The text of the token stands for the token. -/
def isExact : Token → Bool
  | .scalar (.real _) => false
  | .scalar .unpaired => false
  | _ => true

def isScalar : Token → Bool
  | .scalar _ => true
  | _ => false

/-- Two tokens that may stand next to each other without white space. -/
def Apart (first next : Token) : Prop := isScalar first = true → isScalar next = false

theorem isBlank_of_isDigit {c : Char} (digit : c.isDigit = true) : isBlank c = false := by
  apply Bool.eq_false_iff.mpr
  intro blank
  simp only [isBlank, Bool.or_eq_true, beq_iff_eq] at blank
  rcases blank with ((rfl | rfl) | rfl) | rfl
  all_goals exact absurd digit (by decide)

/-- A token is scanned off the front of a text, whatever follows it, unless it is a number: then
what follows must not go on with it. -/
theorem scanToken_written {token : Token} (exact : isExact token = true) {rest : List Char}
    (stops : isScalar token = true → Stops goesOn rest) :
    ∃ c tail, token.write.toList = c :: tail ∧ isBlank c = false ∧
      scanToken c (tail ++ rest) = some (token, rest) := by
  cases token with
  | beginArray | endArray | beginObject | endObject | colon | comma =>
    exact ⟨_, [], rfl, by decide, rfl⟩
  | scalar value =>
    cases value with
    | null => exact ⟨'n', ['u', 'l', 'l'], rfl, by decide, rfl⟩
    | bool value =>
      cases value with
      | true => exact ⟨'t', ['r', 'u', 'e'], rfl, by decide, rfl⟩
      | false => exact ⟨'f', ['a', 'l', 's', 'e'], rfl, by decide, rfl⟩
    | num value =>
      have scanned := scanUnsigned_written value (stops rfl)
      have digits := digits_all value
      have spelled : (Token.scalar (.num value)).write.toList = Nat.toDigits 10 value := by
        rw [Token.write, Scalar.write, Nat.toString_eq_ofList_toDigits, String.toList_ofList]
      rw [spelled]
      cases split : Nat.toDigits 10 value with
      | nil => exact absurd split Nat.toDigits_ne_nil
      | cons digit tail =>
        rw [split] at scanned digits
        have first := digits digit List.mem_cons_self
        refine ⟨digit, tail, rfl, isBlank_of_isDigit first, ?_⟩
        rw [scanToken_digit first, ← List.cons_append, scanned]
        rfl
    | str value =>
      refine ⟨'\x22', value.toList.flatMap escape ++ ['\x22'], ?_, by decide, ?_⟩
      · rw [Token.write, Scalar.write, String.toList_ofList, List.cons_append]
      · rw [scanToken, List.append_assoc, List.singleton_append, scanText_written]
        simp
    | real | unpaired => cases exact

theorem scanFrom_blanks {blanks : List Char} (all : ∀ c ∈ blanks, isBlank c = true)
    (earlier : List Token) (rest : List Char) :
    scanFrom earlier (blanks ++ rest) = scanFrom earlier rest := by
  induction blanks with
  | nil => rfl
  | cons c blanks ih =>
    rw [List.cons_append, scanFrom, if_pos (all c List.mem_cons_self)]
    exact ih fun other member => all other (List.mem_cons_of_mem _ member)

theorem scanFrom_token {token : Token} (exact : isExact token = true) {rest : List Char}
    (stops : isScalar token = true → Stops goesOn rest) (earlier : List Token) :
    scanFrom earlier (token.write.toList ++ rest) = scanFrom (token :: earlier) rest := by
  obtain ⟨c, tail, spelled, solid, scanned⟩ := scanToken_written exact stops
  rw [spelled, List.cons_append, scanFrom, if_neg (by simp [solid])]
  split
  next missing => simp [scanned] at missing
  next found after again =>
    rw [scanned] at again
    cases again
    rfl

end Tokens

section Layouts

def between (layout : Layout) (depth : Nat) (last : Option Token) (next : Token) : String :=
  match layout with
  | .compact => ""
  | .indented => gap depth last next

/-- What a writer at the given depth and behind the given token adds for the tokens. -/
def spell (layout : Layout) (depth : Nat) (last : Option Token) : List Token → List Char
  | [] => []
  | token :: rest =>
    (between layout depth last token).toList ++ (token.write.toList ++
      spell layout (if token.opens then depth + 1 else if token.closes then depth - 1 else depth)
        (some token) rest)

theorem text_foldl_put (layout : Layout) (tokens : List Token) (writer : Writer) :
    (tokens.foldl (Writer.put layout) writer).text.toList =
      writer.text.toList ++ spell layout writer.depth writer.last tokens := by
  induction tokens generalizing writer with
  | nil => simp [spell]
  | cons token tokens ih =>
    rw [List.foldl_cons, ih]
    cases layout with
    | compact => simp [Writer.put, spell, between]
    | indented => simp [Writer.put, spell, between]

theorem newline_blank (depth : Nat) : ∀ c ∈ (newline depth).toList, isBlank c = true := by
  intro c member
  simp only [newline, String.toList_append, String.toList_ofList, List.mem_append,
    List.mem_replicate] at member
  rcases member with line | ⟨_, rfl⟩
  · rw [List.mem_singleton.mp line]
    decide
  · decide

theorem between_blank (layout : Layout) (depth : Nat) (last : Option Token) (next : Token) :
    ∀ c ∈ (between layout depth last next).toList, isBlank c = true := by
  cases layout with
  | compact => simp [between]
  | indented =>
    cases last with
    | none => simp [between, gap]
    | some last =>
      have space : ∀ c ∈ " ".toList, isBlank c = true := List.all_eq_true.mp (by decide)
      simp only [between, gap]
      split
      · split
        · simp
        · exact newline_blank depth
      · split
        · exact newline_blank (depth - 1)
        · split
          · exact newline_blank depth
          · split
            · exact space
            · simp

theorem goesOn_of_isBlank {c : Char} (blank : isBlank c = true) : goesOn c = false := by
  simp only [isBlank, Bool.or_eq_true, beq_iff_eq] at blank
  rcases blank with ((rfl | rfl) | rfl) | rfl
  all_goals decide

theorem stops_spell {tokens : List Token} (apart : ∀ next ∈ tokens.head?, isScalar next = false)
    (layout : Layout) (depth : Nat) (last : Option Token) :
    Stops goesOn (spell layout depth last tokens) := by
  cases tokens with
  | nil =>
    intro c member
    cases member
  | cons next tokens =>
    have blank := between_blank layout depth last next
    have mark := apart next rfl
    rw [spell]
    cases white : (between layout depth last next).toList with
    | nil =>
      cases next with
      | scalar value => cases mark
      | beginArray | endArray | beginObject | endObject | colon | comma =>
        rintro c ⟨⟩
        decide
    | cons c blanks =>
      rintro first ⟨⟩
      apply goesOn_of_isBlank
      exact blank _ (white ▸ List.mem_cons_self)

theorem scanFrom_spell {tokens : List Token} (exact : ∀ token ∈ tokens, isExact token = true)
    (apart : tokens.IsChain Apart) (layout : Layout) (depth : Nat) (last : Option Token)
    (earlier : List Token) :
    scanFrom earlier (spell layout depth last tokens) = some (earlier.reverse ++ tokens) := by
  induction tokens generalizing depth last earlier with
  | nil => simp [spell, scanFrom]
  | cons token tokens ih =>
    obtain ⟨next, others⟩ := List.isChain_cons.mp apart
    have first := exact token List.mem_cons_self
    have rest := ih (fun other member => exact other (List.mem_cons_of_mem _ member)) others
    rw [spell, scanFrom_blanks (between_blank _ _ _ _), scanFrom_token first, rest]
    · simp
    · -- What follows a scalar must not be taken for a part of it.
      intro scalar
      exact stops_spell (fun other member => next other member scalar) _ _ _

end Layouts

section Values

/-- The value is made of texts, truth values, whole numbers and nulls. -/
inductive Exact : Json → Prop where
  | null : Exact .null
  | bool (value : Bool) : Exact (.bool value)
  | num (value : Nat) : Exact (.num value)
  | str (value : String) : Exact (.str value)
  | arr {elements} (each : ∀ element ∈ elements, Exact element) : Exact (.arr elements)
  | obj {fields} (each : ∀ field ∈ fields, Exact field.2) : Exact (.obj fields)

theorem mem_separated {parts : List (List Token)} {token : Token} (member : token ∈ separated parts) :
    token = .comma ∨ ∃ part ∈ parts, token ∈ part := by
  induction parts with
  | nil => cases member
  | cons part parts ih =>
    cases parts with
    | nil => exact .inr ⟨part, List.mem_cons_self, member⟩
    | cons next parts =>
      rw [separated, List.mem_append, List.mem_cons] at member
      · rcases member with inside | comma | later
        · exact .inr ⟨part, List.mem_cons_self, inside⟩
        · exact .inl comma
        · obtain comma | ⟨other, listed, inside⟩ := ih later
          · exact .inl comma
          · exact .inr ⟨other, List.mem_cons_of_mem _ listed, inside⟩
      · simp

theorem exact_tokens {value : Json} (exact : Exact value) :
    ∀ token ∈ value.tokens, isExact token = true := by
  induction exact with
  | null | bool | num | str =>
    intro token member
    rw [tokens, List.mem_singleton] at member
    subst member
    rfl
  | arr each ih =>
    intro token member
    simp only [tokens_arr, List.mem_cons, List.mem_append, List.not_mem_nil, or_false] at member
    rcases member with rfl | inside | rfl
    · rfl
    · obtain rfl | ⟨part, listed, place⟩ := mem_separated inside
      · rfl
      · obtain ⟨element, member, rfl⟩ := List.mem_map.mp listed
        exact ih element member token place
    · rfl
  | obj each ih =>
    intro token member
    simp only [tokens_obj, List.mem_cons, List.mem_append, List.not_mem_nil, or_false] at member
    rcases member with rfl | inside | rfl
    · rfl
    · obtain rfl | ⟨part, listed, place⟩ := mem_separated inside
      · rfl
      · obtain ⟨field, member, rfl⟩ := List.mem_map.mp listed
        rcases List.mem_cons.mp place with rfl | place
        · rfl
        · rcases List.mem_cons.mp place with rfl | place
          · rfl
          · exact ih field member token place
    · rfl

theorem apart_append {first rest : List Token} {mark : Token} (plain : isScalar mark = false)
    (before : first.IsChain Apart) (after : (mark :: rest).IsChain Apart) :
    (first ++ mark :: rest).IsChain Apart := by
  apply List.isChain_append.mpr
  refine ⟨before, after, ?_⟩
  rintro last _ next ⟨⟩ _
  exact plain

theorem apart_cons {mark : Token} {rest : List Token} (plain : isScalar mark = false)
    (after : rest.IsChain Apart) : (mark :: rest).IsChain Apart := by
  apply List.isChain_cons.mpr
  refine ⟨fun next _ scalar => ?_, after⟩
  rw [plain] at scalar
  cases scalar

theorem apart_separated {parts : List (List Token)} (each : ∀ part ∈ parts, part.IsChain Apart) :
    (separated parts).IsChain Apart := by
  induction parts with
  | nil => exact .nil
  | cons part parts ih =>
    have first := each part List.mem_cons_self
    have others := ih fun other member => each other (List.mem_cons_of_mem _ member)
    cases parts with
    | nil => exact first
    | cons next parts =>
      rw [separated]
      · exact apart_append rfl first (apart_cons rfl others)
      · simp

theorem apart_tokens (value : Json) : value.tokens.IsChain Apart := by
  induction value using json_induction with
  | scalar value => exact .singleton _
  | arr elements each =>
    rw [tokens_arr]
    apply apart_cons rfl
    apply apart_append rfl _ (.singleton _)
    apply apart_separated
    intro part member
    obtain ⟨element, listed, rfl⟩ := List.mem_map.mp member
    exact each element listed
  | obj fields each =>
    rw [tokens_obj]
    apply apart_cons rfl
    apply apart_append rfl _ (.singleton _)
    apply apart_separated
    intro part member
    obtain ⟨field, listed, rfl⟩ := List.mem_map.mp member
    have named : [Token.scalar (.str field.1)].IsChain Apart := .singleton _
    exact apart_append rfl named (apart_cons rfl (each field listed))

theorem scan_write {value : Json} (exact : Exact value) (layout : Layout) :
    scan (value.write layout) = some value.tokens := by
  have scanned := scanFrom_spell (exact_tokens exact) (apart_tokens value) layout 0 none []
  rw [scan, Json.write, text_foldl_put]
  simpa using scanned

theorem read_write {value : Json} (exact : Exact value) (layout : Layout) :
    Json.read (value.write layout) = some value := by
  rw [Json.read, scan_write exact, Option.bind_eq_bind, Option.bind_some, ofTokens_tokens]

end Values

end ApiDocs.Proofs.JsonText
