import FilterLang.Operator

/-!
# Tokens

A token is a classified piece of an expression together with its text and the
bytes that it takes up. The parser looks at kind, text and start only, so a
token may also be made by hand, with any text and any span.
-/

namespace FilterLang

/-- What a token stands for. -/
inductive TokenKind
  | operator (operator : Operator)
  | identifier
  | literal
  | openParen
  | closeParen
  deriving DecidableEq

namespace TokenKind

/-- The upper-case name of a token kind. -/
def name : TokenKind → String
  | operator symbol => symbol.name
  | identifier => "ID"
  | literal => "VAL"
  | openParen => "LPAR"
  | closeParen => "RPAR"

/-- The kind of a comparison token. -/
abbrev comparison (kind : Comparison) : TokenKind :=
  .operator (.binary (.comparison kind))

/-- The kind of the keyword `and`. -/
abbrev and : TokenKind := .operator (.binary .and)

/-- The kind of the keyword `or`. -/
abbrev or : TokenKind := .operator (.binary .or)

/-- The kind of the keyword `not`. -/
abbrev not : TokenKind := .operator .not

/-- Every token kind: keywords, operands, parentheses, comparisons. -/
def all : List TokenKind :=
  [and, or, not, identifier, literal, openParen, closeParen,
    comparison .equal, comparison .set, comparison .notEqual,
    comparison .lessThan, comparison .lessEqual,
    comparison .greaterThan, comparison .greaterEqual]

theorem mem_all (kind : TokenKind) : kind ∈ all := by
  cases kind with
  | operator symbol =>
      cases symbol with
      | not => decide
      | binary op =>
          cases op with
          | comparison kind => cases kind <;> decide
          | and => decide
          | or => decide
  | identifier => decide
  | literal => decide
  | openParen => decide
  | closeParen => decide

/-- The token kind of a given name. -/
def ofName? (name : String) : Option TokenKind :=
  all.find? fun kind => kind.name = name

theorem ofName?_name (kind : TokenKind) : ofName? kind.name = some kind := by
  have named : ∀ kind ∈ all, ofName? kind.name = some kind := by decide
  exact named kind (mem_all kind)

theorem ofName?_eq_some_iff
    {name : String}
    {kind : TokenKind} :
    ofName? name = some kind ↔ kind.name = name := by
  constructor
  · intro found
    simpa using List.find?_some found
  · rintro rfl
    exact ofName?_name kind

theorem isUpper_of_mem_name
    {kind : TokenKind}
    {character : Char}
    (member : character ∈ kind.name.toList) :
    character.isUpper := by
  have capitals :
      ∀ kind ∈ all, kind.name.toList.all Char.isUpper := by
    decide
  exact List.all_eq_true.mp (capitals kind (mem_all kind)) character member

theorem notMem_name
    {character : Char}
    (notUpper : ¬character.isUpper)
    (kind : TokenKind) :
    character ∉ kind.name.toList :=
  fun member => notUpper (isUpper_of_mem_name member)

end TokenKind

/-- The bytes that a piece of text takes up: from `start` up to, not
including, `stop`. -/
structure Span where
  /-- The number of bytes before the piece. -/
  start : Nat
  /-- The number of bytes up to the end of the piece. -/
  stop : Nat
  deriving DecidableEq

/-- A classified piece of an expression. -/
structure Token where
  /-- What the token stands for. -/
  kind : TokenKind
  /-- The text of the token; a quoted literal has lost its quotes. -/
  text : String
  /-- The bytes of the whole match, quotes included. -/
  span : Span
  deriving DecidableEq

/-- The place of the first byte of a token, counted from one. -/
def Token.position (token : Token) : Nat :=
  token.span.start + 1

end FilterLang
