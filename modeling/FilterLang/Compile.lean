import FilterLang.Lexeme.Cursor
import FilterLang.Parse

/-!
# From source text to expressions

Compiling divides a text into tokens and parses them; the first error that is
met is the result.
-/

namespace FilterLang

/-- Why a source text is not an expression. -/
inductive CompileError
  /-- The text cannot be divided into tokens. -/
  | lex (error : LexError)
  /-- The tokens do not make up an expression. -/
  | parse (error : ParseError)
  deriving DecidableEq

namespace CompileError

/-- The text of a compile error. -/
def message : CompileError → String
  | lex error => error.message
  | parse error => error.message

/-- The texts of the errors behind a compile error, outermost first. -/
def sources : CompileError → List String
  | lex error => [error.message]
  | parse error => error.message :: error.causes.map ParseError.message

end CompileError

/-- The expression of a source text. -/
def compile
    (maxDepth : Nat)
    (source : String) : Except CompileError Expr := do
  let tokens ← (tokenize source).mapError .lex
  (parse maxDepth tokens).mapError .parse

theorem compile_eq_ok_iff
    {maxDepth : Nat}
    {source : String}
    {tree : Expr} :
    compile maxDepth source = .ok tree ↔
      ∃ tokens, tokenize source = .ok tokens ∧
        parse maxDepth tokens = .ok tree := by
  unfold compile
  simp only [bind_eq_ok_iff, mapError_eq_ok_iff]

end FilterLang
