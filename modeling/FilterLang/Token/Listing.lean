import FilterLang.Text.Quoted
import FilterLang.Token

/-!
# Tokens in writing

A token is written `KIND["text"]{position}`. The text is quoted, so a written
token stays on one line.
-/

namespace FilterLang

/-- A token with its kind, its quoted text and its place. -/
def Token.display (token : Token) : String :=
  token.kind.name ++ "[" ++ Quoted.quote token.text ++ "]\x7b" ++
    token.position.repr ++ "\x7d"

end FilterLang
