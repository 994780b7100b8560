import FilterLang.Compile

/-!
# Failures of commands

A command fails because its expression does not compile, because a document or
an input stream cannot be handled, or because it has no expression. A failure
tells the texts of the errors behind it, outermost first.
-/

namespace FilterLang

/-- What is wrong with a JSON document. -/
inductive Json.Fault
  /-- The document ends where a value must stand. -/
  | endOfInput (line column : Nat)
  deriving DecidableEq

/-- The text of a fault of a JSON document. -/
def Json.Fault.message : Json.Fault → String
  | endOfInput line column =>
      "EOF while parsing a value at line " ++ line.repr ++ " column " ++
        column.repr

/-- Why a command fails. -/
inductive Failure
  /-- The expression does not compile. -/
  | compile (error : CompileError)
  /-- A JSON document cannot be handled. -/
  | json (fault : Json.Fault)
  /-- A stream cannot be read. -/
  | stream (problem : String)
  /-- There is no expression. -/
  | noExpression
  deriving DecidableEq

namespace Failure

/-- The text of a failure. -/
def message : Failure → String
  | compile (.lex error) => "Lex error: " ++ error.message
  | compile (.parse error) => "Parse error: " ++ error.message
  | json fault => "JSON error: " ++ fault.message
  | stream problem => "IO error: " ++ problem
  | noExpression =>
      "No expression provided. Pass it as an argument or pipe it to stdin."

/-- The texts of the errors behind a failure. -/
def sources : Failure → List String
  | compile error => error.message :: error.sources
  | json fault => [fault.message]
  | stream problem => [problem]
  | noExpression => []

end Failure
end FilterLang
