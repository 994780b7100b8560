/-!
# Numerals

Numbers are read in base ten or sixteen, most significant digit first, with
digits of either case, any number of leading zeros and at least one digit. They
are written in base sixteen in lower case and without leading zeros.
-/

namespace FilterLang
namespace Numeral

/-- The value of a digit in base sixteen. -/
def hexValue? (digit : Char) : Option Nat :=
  if '0' ≤ digit ∧ digit ≤ '9' then
    some (digit.toNat - '0'.toNat)
  else if 'a' ≤ digit ∧ digit ≤ 'f' then
    some (digit.toNat - 'a'.toNat + 10)
  else if 'A' ≤ digit ∧ digit ≤ 'F' then
    some (digit.toNat - 'A'.toNat + 10)
  else
    none

/-- The value of a digit in a base of at most sixteen. -/
def digitValue?
    (base : Nat)
    (digit : Char) : Option Nat :=
  (hexValue? digit).filter (· < base)

/-- Read digits behind a number that has been read already. -/
def valueFrom? (base number : Nat) : List Char → Option Nat
  | [] => some number
  | digit :: digits =>
      match digitValue? base digit with
      | none => none
      | some value => valueFrom? base (base * number + value) digits

/-- The value of a list of digits, which must not be empty. -/
def value? (base : Nat) : List Char → Option Nat
  | [] => none
  | digit :: digits => valueFrom? base 0 (digit :: digits)

/-- The value of a list of digits that may have one plus sign in front. -/
def unsigned? (base : Nat) : List Char → Option Nat
  | '+' :: digits => value? base digits
  | digits => value? base digits

theorem valueFrom?_append
    (base number : Nat)
    (digits : List Char)
    (digit : Char) :
    valueFrom? base number (digits ++ [digit]) =
      (valueFrom? base number digits).bind fun front =>
        (digitValue? base digit).map (base * front + ·) := by
  induction digits generalizing number with
  | nil =>
      rw [List.nil_append, valueFrom?, valueFrom?]
      cases digitValue? base digit with
      | none => rfl
      | some value => rfl
  | cons first digits hypothesis =>
      rw [List.cons_append, valueFrom?, valueFrom?]
      cases digitValue? base first with
      | none => rfl
      | some value => exact hypothesis (base * number + value)

theorem value?_eq_some_iff
    {base number : Nat}
    {digits : List Char} :
    value? base digits = some number ↔
      digits ≠ [] ∧ valueFrom? base 0 digits = some number := by
  cases digits with
  | nil => simp [value?]
  | cons digit digits => simp [value?]

theorem unsigned?_eq_some_iff
    {base number : Nat}
    {digits : List Char} :
    unsigned? base digits = some number ↔
      value? base digits = some number ∨
        ∃ unsigned, digits = '+' :: unsigned ∧
          value? base unsigned = some number := by
  have noSign (rest : List Char) : value? base ('+' :: rest) = none := by
    rw [value?, valueFrom?]
    rfl
  unfold unsigned?
  split
  · rename_i rest
    simp [noSign]
  · rename_i different
    constructor
    · exact Or.inl
    · rintro (plain | ⟨rest, rfl, -⟩)
      · exact plain
      · exact absurd rfl (different rest)

/-- The digits of a number in base sixteen. -/
def hexDigits (number : Nat) : List Char :=
  Nat.toDigits 16 number

end Numeral
end FilterLang
