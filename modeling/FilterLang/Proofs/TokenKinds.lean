import FilterLang.Proofs.Correspondence

/-!
# What the texts and places of tokens decide

Tokens may be given other texts and other places, each token its own, as long as
they keep their kinds. The parser takes the same way then: it gives an expression
with the same operators in the same places, whose leaves carry the new texts in
turn, or it fails with the same error, told of the token at the same index.
-/

namespace FilterLang

/-- Two tokens that stand at one index of two lists. -/
def SameIndex
    (tokens others : List Token)
    (token other : Token) : Prop :=
  ∃ index : Nat, tokens[index]? = some token ∧ others[index]? = some other

section

variable {relabel : Nat → Token → Token}

/-- Tokens that keep their kinds correspond index by index. -/
theorem corresponds_mapIdx
    (keepsKind : ∀ index token, (relabel index token).kind = token.kind)
    (tokens : List Token) :
    List.Forall₂ (Token.Corresponds (SameIndex tokens (tokens.mapIdx relabel)))
      tokens (tokens.mapIdx relabel) := by
  apply List.forall₂_iff_get.mpr
  refine ⟨List.length_mapIdx.symm, ?_⟩
  intro index index_lt otherIndex_lt
  refine ⟨?_, index, List.getElem?_eq_getElem index_lt,
    List.getElem?_eq_getElem otherIndex_lt⟩
  simp [keepsKind]

/-- The parser decides on the kinds of tokens alone. Tokens with other texts and
places, each its own, either parse as well, to an expression of the same shape
whose leaves are the new names and values in turn; or they fail as well, with the
same error in as many groups, told of the token at the same index. -/
theorem parse_decides_on_kinds
    (keepsKind : ∀ index token, (relabel index token).kind = token.kind)
    (maxDepth : Nat)
    (tokens : List Token) :
    OutcomesCorrespond
      (ParseError.Corresponds (SameIndex tokens (tokens.mapIdx relabel)))
      (fun tree other => tree.SameShape other ∧
        tree.leaves = tokens.filterMap Token.leaf? ∧
        other.leaves = (tokens.mapIdx relabel).filterMap Token.leaf?)
      (parse maxDepth tokens) (parse maxDepth (tokens.mapIdx relabel)) := by
  have parsed :=
    parse_corresponds (corresponds_mapIdx keepsKind tokens) maxDepth
  refine parsed.imp_of_ok ?_
  intro tree other tree_eq other_eq sameShape
  exact ⟨sameShape, leaves_of_parse tree_eq, leaves_of_parse other_eq⟩

end

/-- A token with its index as its text, ten bytes behind the one before it. -/
def Token.numbered (index : Nat) (token : Token) : Token :=
  ⟨token.kind, index.repr, ⟨10 * index, 10 * index + 1⟩⟩

/-- The tokens of `(a = NOT)`. -/
def missingValue : List Token :=
  [⟨.openParen, "(", ⟨0, 1⟩⟩, ⟨.identifier, "a", ⟨1, 2⟩⟩,
    ⟨.comparison .equal, "=", ⟨3, 4⟩⟩, ⟨.not, "NOT", ⟨5, 8⟩⟩,
    ⟨.closeParen, ")", ⟨8, 9⟩⟩]

/-- With other texts and places, the same token is found in the same group. -/
theorem parse_decides_on_kinds_numbered :
    (∀ index token, (Token.numbered index token).kind = token.kind) ∧
      parse 1 missingValue =
        .error (.inGroup (.unreducedOperand (.binary (.comparison .equal))
          .right ⟨.not, "NOT", ⟨5, 8⟩⟩)) ∧
      parse 1 (missingValue.mapIdx Token.numbered) =
        .error (.inGroup (.unreducedOperand (.binary (.comparison .equal))
          .right ⟨.not, "3", ⟨30, 31⟩⟩)) := by
  have inRange : 3 < missingValue.length := by decide
  have distinct : missingValue.Nodup := by decide
  have keepsKind (index : Nat) (token : Token) :
      (Token.numbered index token).kind = token.kind := rfl
  have failed :
      parse 1 missingValue =
        .error (.inGroup (.unreducedOperand (.binary (.comparison .equal))
          .right ⟨.not, "NOT", ⟨5, 8⟩⟩)) := by
    cbv
  refine ⟨keepsKind, failed, ?_⟩
  have corresponds := parse_decides_on_kinds keepsKind 1 missingValue
  rw [failed] at corresponds
  generalize parse 1 (missingValue.mapIdx Token.numbered) = outcome
    at corresponds ⊢
  cases corresponds with
  | error errors =>
      cases errors with
      | inGroup inners =>
          cases inners with
          | unreducedOperand operator side tokens =>
              obtain ⟨-, index, found, other⟩ := tokens
              obtain rfl : 3 = index :=
                (List.getElem?_inj inRange distinct).mp found.symm
              cases other
              rfl

end FilterLang
