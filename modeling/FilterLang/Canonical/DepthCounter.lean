import FilterLang.Canonical.Reader
import FilterLang.Guarded

/-!
# Reading with a depth counter

The number of expressions around a place may be kept in one counter while a text
is read. The counter goes up before the kind of an expression is read and comes
down behind its closing brace; nothing else changes it, and it alone is compared
with the limit. Both directions are guarded, and so is the number of calls that
are open at once.
-/

namespace FilterLang
namespace Canonical
namespace Counted

/-- Read what stands between the braces behind the name of a kind, with a reader
for the operands, which is handed the counter and hands it back. -/
def readContents
    (readOperand : Nat → Place → Guarded ReadError (Expr × Place × Nat))
    (name : String)
    (counter : Nat)
    (inside : Place) : Guarded ReadError (Expr × Place × Nat) :=
  match TokenKind.ofName? name with
  | some .identifier => do
      let (text, closing) ← Guarded.unbreached (readText inside)
      return (.identifier text, closing, counter)
  | some .literal => do
      let (text, closing) ← Guarded.unbreached (readText inside)
      return (.literal text, closing, counter)
  | some (.operator .not) => do
      let (child, closing, counter) ← readOperand counter inside
      return (.not child, closing, counter)
  | some (.operator (.binary op)) => do
      let (left, comma, counter) ← readOperand counter inside
      let second ← Guarded.unbreached (comma.expect ',')
      let (right, closing, counter) ← readOperand counter second
      return (.binary op left right, closing, counter)
  | _ => .error (.fault (inside.error (.unknownKind name)))

/-- Read an expression, with at most `calls` calls open at once, this one
included. -/
def readTree
    (greatest limit : Nat) :
    (calls counter : Nat) → Place → Guarded ReadError (Expr × Place × Nat)
  | 0, _, _ => .error (.breach .tooManyCalls)
  | calls + 1, counter, place =>
      if limit < counter then
        .error (.fault (place.error (.tooDeep limit)))
      else do
        let raised ← Guarded.increment greatest counter
        let name := String.ofList (place.rest.takeWhile Char.isUpper)
        let inside ←
          Guarded.unbreached ((place.skip Char.isUpper).expect '{')
        let (tree, closing, reached) ←
          readContents (readTree greatest limit calls) name raised inside
        let after ← Guarded.unbreached (closing.expect '}')
        let lowered ← Guarded.decrement reached
        return (tree, after, lowered)

/-- Read a text that is the canonical form of an expression no deeper than the
limit. Neither the counter nor the number of open calls may be greater than the
greatest number. -/
def read
    (greatest maxDepth : Nat)
    (text : String) : Guarded ReadError Expr := do
  let (tree, after, _) ←
    readTree greatest maxDepth greatest 0 (.start text.toList)
  if after.rest.isEmpty then
    return tree
  else
    .error (.fault (after.error .trailing))

end Counted
end Canonical
end FilterLang
