import FilterLang.Token

/-!
# Matching parentheses

Parentheses match in the usual way: a closing parenthesis matches the last
opening one that is still open, and is ignored when none is. Tokens are counted
from zero.
-/

namespace FilterLang

/-- Two parentheses that match. -/
structure ParenPair where
  /-- The index of the opening parenthesis. -/
  opening : Nat
  /-- The index of the closing parenthesis. -/
  closing : Nat
  deriving DecidableEq

/-- The pairs closed by tokens that follow `index` others, when the parentheses
at the indices `pending` are still open, the last one first. -/
def parenPairsFrom
    (index : Nat)
    (pending : List Nat) : List Token → List ParenPair
  | [] => []
  | token :: tokens =>
      if token.kind = .openParen then
        parenPairsFrom (index + 1) (index :: pending) tokens
      else if token.kind = .closeParen then
        match pending with
        | [] => parenPairsFrom (index + 1) [] tokens
        | opening :: pending =>
            ⟨opening, index⟩ :: parenPairsFrom (index + 1) pending tokens
      else
        parenPairsFrom (index + 1) pending tokens

/-- The pairs of matching parentheses of a list of tokens. -/
def parenPairs (tokens : List Token) : List ParenPair :=
  parenPairsFrom 0 [] tokens

namespace ParenPair

/-- A pair encloses the places strictly between its parentheses. -/
def encloses
    (pair : ParenPair)
    (index : Nat) : Bool :=
  pair.opening < index && index < pair.closing

/-- The tokens strictly between the parentheses of a pair. -/
def contents
    (pair : ParenPair)
    (tokens : List Token) : List Token :=
  (tokens.take pair.closing).drop (pair.opening + 1)

end ParenPair

/-- The number of pairs that enclose a place in a list of tokens. -/
def nestingLevel
    (tokens : List Token)
    (index : Nat) : Nat :=
  (parenPairs tokens).countP (·.encloses index)

/-- There is an opening parenthesis at a place that matches no other. -/
def IsUnmatchedOpen
    (tokens : List Token)
    (index : Nat) : Prop :=
  (tokens[index]?).any (·.kind = .openParen) ∧
    ∀ pair ∈ parenPairs tokens, pair.opening ≠ index

end FilterLang
