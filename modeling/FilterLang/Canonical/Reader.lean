import FilterLang.Canonical.QuotedReader
import FilterLang.Expr.Basic

/-!
# Reading the canonical form

The reader takes an expression in canonical form, with nothing before, between
or behind its parts. The limit on depth is handed down as the number of levels
that are still allowed, so reading is structural in it.
-/

namespace FilterLang
namespace Canonical

/-- Read what stands between the braces behind the name of a kind, with a reader
for the operands. -/
def readContents
    (readOperand : Place → Except ReadError (Expr × Place))
    (name : String)
    (inside : Place) : Except ReadError (Expr × Place) :=
  match TokenKind.ofName? name with
  | some .identifier => do
      let (text, closing) ← readText inside
      return (.identifier text, closing)
  | some .literal => do
      let (text, closing) ← readText inside
      return (.literal text, closing)
  | some (.operator .not) => do
      let (child, closing) ← readOperand inside
      return (.not child, closing)
  | some (.operator (.binary op)) => do
      let (left, comma) ← readOperand inside
      let second ← comma.expect ','
      let (right, closing) ← readOperand second
      return (.binary op left right, closing)
  | _ => .error (inside.error (.unknownKind name))

/-- Read an expression that may have `levels` levels, its leaves included. -/
def readTree
    (limit : Nat) : (levels : Nat) → Place → Except ReadError (Expr × Place)
  | 0, place => .error (place.error (.tooDeep limit))
  | levels + 1, place => do
      let name := String.ofList (place.rest.takeWhile Char.isUpper)
      let inside ← (place.skip Char.isUpper).expect '{'
      let (tree, closing) ← readContents (readTree limit levels) name inside
      let after ← closing.expect '}'
      return (tree, after)

/-- Read a text that is the canonical form of an expression no deeper than the
limit. -/
def read
    (maxDepth : Nat)
    (text : String) : Except ReadError Expr := do
  let (tree, after) ← readTree maxDepth (maxDepth + 1) (.start text.toList)
  if after.rest.isEmpty then
    return tree
  else
    .error (after.error .trailing)

end Canonical
end FilterLang
