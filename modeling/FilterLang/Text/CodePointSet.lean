/-!
# Sets of code points

A set of code points is a list of ranges, smallest first, so that a search may
stop at the first range that starts beyond the code point sought.
-/

namespace FilterLang

/-- A set of code points as ascending ranges, both ends of each included. -/
structure CodePointSet where
  /-- The ranges, in ascending order. -/
  ranges : List (Nat × Nat)

namespace CodePointSet

/-- Search ascending ranges for a code point. -/
def search (codePoint : Nat) : List (Nat × Nat) → Bool
  | [] => false
  | (first, last) :: later =>
      if codePoint < first then
        false
      else if codePoint ≤ last then
        true
      else
        search codePoint later

/-- Whether a character is in a set. -/
def contains (set : CodePointSet) (character : Char) : Bool :=
  search character.toNat set.ranges

end CodePointSet
end FilterLang
