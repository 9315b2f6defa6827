import ApiDocs.Pattern.CharSet

/-!
Search expressions. An expression is matched by following what may remain of it after each
character, so the search takes one pass over the text.
-/

namespace ApiDocs.Pattern

/-- Conditions on a place between two characters. -/
inductive Edge where
  | textStart
  | textEnd
  | lineStart
  | lineEnd
  /-- Lines may end with a carriage return, a line feed, or both in this order. -/
  | returnLineStart
  | returnLineEnd
  | wordBoundary
  | noWordBoundary
  | wordStart
  | wordEnd
  | wordStartHalf
  | wordEndHalf
  deriving DecidableEq

inductive Expr where
  /-- The empty text. -/
  | empty
  | one (set : CharSet)
  | edge (condition : Edge)
  | seq (first second : Expr)
  | alt (left right : Expr)
  /-- At least `least` times, and at most `most` times if there is a bound. -/
  | times (body : Expr) (least : Nat) (most : Option Nat)
  deriving DecidableEq

/-- A place in a text: the characters on both sides. -/
structure Place where
  before : Option Char
  after : Option Char

namespace Place

def isWord (side : Option Char) : Bool := side.any Text.isWord

end Place

def Edge.holds (condition : Edge) (place : Place) : Bool :=
  let wordBefore := Place.isWord place.before
  let wordAfter := Place.isWord place.after
  match condition with
  | textStart => place.before.isNone
  | textEnd => place.after.isNone
  | lineStart => place.before.isNone || place.before == some '\n'
  | lineEnd => place.after.isNone || place.after == some '\n'
  | returnLineStart =>
    place.before.isNone || place.before == some '\n' ||
      place.before == some '\r' && place.after != some '\n'
  | returnLineEnd =>
    place.after.isNone || place.after == some '\r' ||
      place.after == some '\n' && place.before != some '\r'
  | wordBoundary => wordBefore != wordAfter
  | noWordBoundary => wordBefore == wordAfter
  | wordStart => !wordBefore && wordAfter
  | wordEnd => wordBefore && !wordAfter
  | wordStartHalf => !wordBefore
  | wordEndHalf => !wordAfter

namespace Expr

/-- The expression matches the empty text at this place. -/
def matchesEmpty (place : Place) : Expr → Bool
  | empty => true
  | one _ => false
  | edge condition => condition.holds place
  | seq first second => first.matchesEmpty place && second.matchesEmpty place
  | alt left right => left.matchesEmpty place || right.matchesEmpty place
  | times body least _ => least == 0 || body.matchesEmpty place

/-- One expression after another; the empty one leaves no trace. -/
def andThen : Expr → Expr → Expr
  | empty, next => next
  | first, next => seq first next

/-- What may remain to be matched once `char`, which stands after this place, is taken. -/
def remainders (place : Place) (char : Char) : Expr → List Expr
  | empty => []
  | one set => if set.contains char then [empty] else []
  | edge _ => []
  | seq first second =>
    (first.remainders place char).map (andThen · second) ++
      if first.matchesEmpty place then second.remainders place char else []
  | alt left right => left.remainders place char ++ right.remainders place char
  | times body least most =>
    if most = some 0 then []
    else
      let fewer := if body.matchesEmpty place then 0 else least - 1
      (body.remainders place char).map (andThen · (times body fewer (most.map (· - 1))))

/-- Whether a match that has begun, as one of `begun` remains, or one that begins later, ends
somewhere in the text. -/
def search (expr : Expr) (begun : List Expr) (before : Option Char) : List Char → Bool
  | [] => (expr :: begun).any (matchesEmpty ⟨before, none⟩)
  | c :: rest =>
    let place : Place := ⟨before, some c⟩
    (expr :: begun).any (matchesEmpty place) ||
      search expr ((expr :: begun).flatMap (remainders place c)).eraseDups (some c) rest

/-- Some part of the text matches the expression. -/
def isFoundIn (expr : Expr) (text : String) : Bool := expr.search [] none text.toList

end Expr

end ApiDocs.Pattern
