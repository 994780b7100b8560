import FilterLang.Canonical.Render
import FilterLang.Expr.Json
import FilterLang.Expr.Layout
import FilterLang.Failure

/-!
# Checking expressions and listing tokens

Checking compiles an expression and prints it in one of three formats, or tells
only that it compiles. Listing prints the tokens of an expression, one a line.
-/

namespace FilterLang

/-- How an expression is printed. -/
inductive OutputFormat
  /-- On one line. -/
  | canonical
  /-- Over several lines. -/
  | pretty
  /-- As a JSON document. -/
  | json
  deriving DecidableEq

/-- A text that names no output format, in lower case. -/
structure UnknownFormat where
  /-- The text. -/
  name : String
  deriving DecidableEq

/-- The text of the error. -/
def UnknownFormat.message (error : UnknownFormat) : String :=
  "unknown format '" ++ error.name ++
    "' (expected canonical, pretty or json)"

namespace OutputFormat

/-- The name of a format. -/
def name : OutputFormat → String
  | canonical => "canonical"
  | pretty => "pretty"
  | json => "json"

/-- The format that a text names, in any letter case. -/
def ofText (text : String) : Except UnknownFormat OutputFormat :=
  match [canonical, pretty, json].find? (·.name = text.toLower) with
  | some format => .ok format
  | none => .error ⟨text.toLower⟩

/-- Print an expression. -/
def print (tree : Expr) : OutputFormat → String
  | canonical => tree.render
  | pretty => tree.pretty defaultIndentWidth
  | json => tree.json .indented

end OutputFormat

namespace Check

/-- What to check, and how to print it. -/
structure Options where
  /-- The expression, if there is one. -/
  expression : Option String
  /-- The format to print in. -/
  format : OutputFormat
  /-- Whether to leave out printing. -/
  syntaxOnly : Bool
  /-- The limit on nesting and depth. -/
  maxDepth : Nat
  deriving DecidableEq

/-- The outcome of a successful check. -/
inductive Outcome
  /-- The expression compiles. -/
  | valid
  /-- The expression compiles and has been printed. -/
  | printed (text : String)
  deriving DecidableEq

/-- Check an expression. -/
def run (options : Options) : Except Failure Outcome := do
  match options.expression with
  | none => .error .noExpression
  | some source =>
      let tree ← (compile options.maxDepth source).mapError .compile
      if options.syntaxOnly then
        return .valid
      else
        return .printed (options.format.print tree)

end Check

/-- The tokens of an expression in writing. -/
def listTokens (source : String) : Except Failure (List String) := do
  let tokens ← (tokenize source).mapError (Failure.compile ∘ CompileError.lex)
  return tokens.map Token.display

end FilterLang
