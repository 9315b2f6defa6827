/-!
Hexadecimal digits and numbers.
-/

namespace ApiDocs.Text

def hexDigit? (char : Char) : Option Nat :=
  if '0' ≤ char ∧ char ≤ '9' then some (char.toNat - '0'.toNat)
  else if 'a' ≤ char ∧ char ≤ 'f' then some (char.toNat - 'a'.toNat + 10)
  else if 'A' ≤ char ∧ char ≤ 'F' then some (char.toNat - 'A'.toNat + 10)
  else none

/-- The lower-case digit of a value below sixteen. -/
def hexDigit (value : Nat) : Char :=
  if value < 10 then Char.ofNat ('0'.toNat + value) else Char.ofNat ('a'.toNat + (value - 10))

/-- The number spelled by a non-empty run of digits. -/
def hexNumber? : List Char → Option Nat
  | [] => none
  | digits => digits.foldlM (fun number digit => (hexDigit? digit).map (number * 16 + ·)) 0

theorem hexDigit?_hexDigit {value : Nat} (small : value < 16) :
    hexDigit? (hexDigit value) = some value := by
  have all : ∀ value ∈ List.range 16, hexDigit? (hexDigit value) = some value := by decide
  exact all value (List.mem_range.mpr small)

end ApiDocs.Text
