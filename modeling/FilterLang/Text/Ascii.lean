/-!
# Characters of the first 128 code points

Whatever holds of the first 128 code points, as can be checked one by one, holds
of every letter and digit.
-/

namespace FilterLang

theorem of_ascii
    (property : Char → Prop)
    (checked : ∀ code < 128, property (Char.ofNat code))
    {character : Char}
    (ascii : character.toNat < 128) :
    property character := by
  have atCode := checked character.toNat ascii
  rwa [Char.ofNat_toNat] at atCode

theorem ascii_of_isAlphanum
    {character : Char}
    (isAlphanum : character.isAlphanum) :
    character.toNat < 128 := by
  have toNat_eq : character.toNat = character.val.toNat := rfl
  delta Char.isAlphanum Char.isAlpha Char.isUpper Char.isLower Char.isDigit
    at isAlphanum
  simp only [Bool.or_eq_true, Bool.and_eq_true, decide_eq_true_eq, ge_iff_le,
    UInt32.le_iff_toNat_le] at isAlphanum
  have bounds :
      ('Z' : Char).val.toNat < 128 ∧ ('z' : Char).val.toNat < 128 ∧
        ('9' : Char).val.toNat < 128 := by
    decide
  omega

theorem ascii_of_isAlpha
    {character : Char}
    (isAlpha : character.isAlpha) :
    character.toNat < 128 := by
  apply ascii_of_isAlphanum
  rw [Char.isAlphanum, isAlpha, Bool.true_or]

theorem ascii_of_toUpper
    {character : Char}
    (ascii : character.toUpper.toNat < 128) :
    character.toNat < 128 := by
  unfold Char.toUpper at ascii
  split at ascii
  · rename_i small
    have bound := UInt32.le_iff_toNat_le.mp small.2
    have toNat_eq : character.toNat = character.val.toNat := rfl
    have small_lt : ('z' : Char).val.toNat < 128 := by decide
    omega
  · exact ascii

end FilterLang
