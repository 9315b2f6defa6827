/-!
Sets of code points as sorted tables of ranges, searched by halving.
-/

namespace ApiDocs.Text

/-- Inclusive ranges of code points, in increasing order and apart from each other. -/
structure CodeRanges where
  ranges : Array (Nat × Nat)

namespace CodeRanges

/-- Looks for `code` among the ranges from index `low` up to, not including, `high`. -/
def search (ranges : Array (Nat × Nat)) (code low high : Nat) : Bool :=
  if low < high then
    match ranges[(low + high) / 2]? with
    | none => false
    | some (first, last) =>
      if code < first then search ranges code low ((low + high) / 2)
      else if last < code then search ranges code ((low + high) / 2 + 1) high
      else true
  else false
termination_by high - low

def contains (table : CodeRanges) (char : Char) : Bool :=
  search table.ranges char.toNat 0 table.ranges.size

end CodeRanges

end ApiDocs.Text
