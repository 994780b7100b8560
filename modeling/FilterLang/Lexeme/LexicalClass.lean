import FilterLang.Lexeme.Scan
import FilterLang.Token

/-!
# Lexical classes

Every piece of an expression is a run of blanks or a token of some kind. A
lexical class recognises its pieces at the front of a text. A rule table lists
classes in the order in which they are tried: the first class that recognises
anything wins, however short its piece. Keywords stand before identifiers, so a
word that starts with one is divided: `andrew` is the keyword `and` and the
identifier `rew`.
-/

namespace FilterLang

/-- The class of a piece of text: blanks, which are skipped, or a token. -/
inductive LexicalClass
  | blank
  | token (kind : TokenKind)
  deriving DecidableEq

namespace LexicalClass

/-- Blanks are tab, line feed, form feed, carriage return and space. -/
def isBlank (character : Char) : Bool :=
  character = '\t' || character = '\n' || character = '\x0c' ||
    character = '\r' || character = ' '

/-- The characters of a word behind its first one. -/
def isWordCharacter (character : Char) : Bool :=
  character.isAlphanum || character = '_' || character = '.' ||
    character = '-'

/-- Whether a character is a given capital letter, in either case. -/
def sameLetter (capital character : Char) : Bool :=
  capital = character.toUpper

/-- A literal is a word that starts with a digit, a text between double quotes,
or a pattern between slashes with lower-case flags behind it. -/
def scanLiteral? (text : List Char) : Option Scan :=
  (Scan.run? Char.isDigit isWordCharacter text).or
    ((Scan.enclosed? '"' text).or
      ((Scan.enclosed? '/' text).map (Scan.extend Char.isLower)))

/-- Recognise a token of a given kind at the front of a text. Keywords are
recognised in any letter case. -/
def scanToken? : TokenKind → List Char → Option Scan
  | .operator (.binary (.comparison kind)) =>
      Scan.spelling? (· = ·) kind.symbol.toList
  | .operator operator => Scan.spelling? sameLetter operator.name.toList
  | .identifier => Scan.run? Char.isAlpha isWordCharacter
  | .literal => scanLiteral?
  | .openParen => Scan.spelling? (· = ·) ['(']
  | .closeParen => Scan.spelling? (· = ·) [')']

/-- Recognise a piece of a given class at the front of a text. -/
def scan? : LexicalClass → List Char → Option Scan
  | blank => Scan.run? isBlank isBlank
  | token kind => scanToken? kind

theorem divides_of_scanLiteral?
    {text : List Char}
    {scan : Scan}
    (recognised : scanLiteral? text = some scan) :
    scan.Divides text := by
  simp only [scanLiteral?, Option.or_eq_some_iff] at recognised
  rcases recognised with word | ⟨_, quoted | ⟨_, pattern⟩⟩
  · exact Scan.divides_of_run? word
  · exact Scan.divides_of_enclosed? quoted
  · obtain ⟨body, bodyRecognised, rfl⟩ := Option.map_eq_some_iff.mp pattern
    exact (Scan.divides_of_enclosed? bodyRecognised).extend _

theorem divides_of_scanToken?
    {kind : TokenKind}
    {text : List Char}
    {scan : Scan}
    (recognised : scanToken? kind text = some scan) :
    scan.Divides text := by
  cases kind with
  | operator operator =>
      cases operator with
      | not => exact Scan.divides_of_spelling? (by decide) recognised
      | binary op =>
          cases op with
          | comparison kind =>
              exact Scan.divides_of_spelling?
                (by cases kind <;> decide) recognised
          | and => exact Scan.divides_of_spelling? (by decide) recognised
          | or => exact Scan.divides_of_spelling? (by decide) recognised
  | identifier => exact Scan.divides_of_run? recognised
  | literal => exact divides_of_scanLiteral? recognised
  | openParen => exact Scan.divides_of_spelling? (by decide) recognised
  | closeParen => exact Scan.divides_of_spelling? (by decide) recognised

/-- What a class recognises is not empty and nothing of the text is lost. -/
theorem divides_of_scan?
    {lexicalClass : LexicalClass}
    {text : List Char}
    {scan : Scan}
    (recognised : lexicalClass.scan? text = some scan) :
    scan.Divides text := by
  cases lexicalClass with
  | blank => exact Scan.divides_of_run? recognised
  | token kind => exact divides_of_scanToken? recognised

end LexicalClass

/-- Lexical classes in the order in which they are tried. -/
abbrev RuleTable :=
  List LexicalClass

namespace RuleTable

/-- The rules of filter expressions. -/
def standard : RuleTable :=
  [.blank,
    .token (.comparison .equal), .token (.comparison .set),
    .token (.comparison .notEqual),
    .token (.comparison .lessEqual), .token (.comparison .lessThan),
    .token (.comparison .greaterEqual), .token (.comparison .greaterThan),
    .token .and, .token .or, .token .not,
    .token .identifier, .token .literal,
    .token .openParen, .token .closeParen]

/-- The first class of a table that recognises something at the front of a
text, with what it recognises. -/
def firstMatch?
    (rules : RuleTable)
    (text : List Char) : Option (LexicalClass × Scan) :=
  rules.findSome? fun lexicalClass =>
    (lexicalClass.scan? text).map (lexicalClass, ·)

theorem firstMatch?_eq_some_iff
    {rules : RuleTable}
    {text : List Char}
    {lexicalClass : LexicalClass}
    {scan : Scan} :
    rules.firstMatch? text = some (lexicalClass, scan) ↔
      ∃ earlier later, rules = earlier ++ lexicalClass :: later ∧
        lexicalClass.scan? text = some scan ∧
          ∀ other ∈ earlier, other.scan? text = none := by
  unfold firstMatch?
  rw [List.findSome?_eq_some_iff]
  simp only [Option.map_eq_some_iff, Option.map_eq_none_iff, Prod.mk.injEq]
  constructor
  · rintro ⟨earlier, _, later, rfl, ⟨_, recognised, rfl, rfl⟩, unrecognised⟩
    exact ⟨earlier, later, rfl, recognised, unrecognised⟩
  · rintro ⟨earlier, later, rfl, recognised, unrecognised⟩
    exact ⟨earlier, lexicalClass, later, rfl, ⟨scan, recognised, rfl, rfl⟩,
      unrecognised⟩

/-- The rules before the one that applies recognise nothing. -/
theorem unrecognised_of_firstMatch?
    {rules : RuleTable}
    {text : List Char}
    {lexicalClass other : LexicalClass}
    {scan : Scan}
    (matched : rules.firstMatch? text = some (lexicalClass, scan))
    (before : other ∈ rules.takeWhile (· != lexicalClass)) :
    other.scan? text = none := by
  obtain ⟨earlier, later, rfl, recognised, unrecognised⟩ :=
    firstMatch?_eq_some_iff.mp matched
  have different : ∀ rule ∈ earlier, (rule != lexicalClass) = true := by
    intro rule member
    simp only [bne_iff_ne]
    rintro rfl
    rw [unrecognised rule member] at recognised
    simp at recognised
  rw [List.takeWhile_append_of_pos different] at before
  simp only [bne_self_eq_false, Bool.false_eq_true, not_false_eq_true,
    List.takeWhile_cons_of_neg, List.append_nil] at before
  exact unrecognised other before

theorem scan?_of_firstMatch?
    {rules : RuleTable}
    {text : List Char}
    {lexicalClass : LexicalClass}
    {scan : Scan}
    (matched : rules.firstMatch? text = some (lexicalClass, scan)) :
    lexicalClass ∈ rules ∧ lexicalClass.scan? text = some scan := by
  obtain ⟨earlier, later, rfl, recognised, -⟩ :=
    firstMatch?_eq_some_iff.mp matched
  exact ⟨List.mem_append_right earlier List.mem_cons_self, recognised⟩

theorem divides_of_firstMatch?
    {rules : RuleTable}
    {text : List Char}
    {lexicalClass : LexicalClass}
    {scan : Scan}
    (matched : rules.firstMatch? text = some (lexicalClass, scan)) :
    scan.Divides text :=
  LexicalClass.divides_of_scan? (scan?_of_firstMatch? matched).2

/-- Induction along the pieces that the rules divide off a text. -/
theorem textInduction
    (rules : RuleTable)
    {motive : List Char → Prop}
    (stuck : ∀ text, rules.firstMatch? text = none → motive text)
    (divided : ∀ text lexicalClass scan,
      rules.firstMatch? text = some (lexicalClass, scan) →
        motive scan.rest → motive text)
    (text : List Char) :
    motive text := by
  cases matched : rules.firstMatch? text with
  | none => exact stuck text matched
  | some found =>
      obtain ⟨lexicalClass, scan⟩ := found
      exact divided text lexicalClass scan matched
        (textInduction rules stuck divided scan.rest)
termination_by text.length
decreasing_by exact (divides_of_firstMatch? matched).length_rest_lt

end RuleTable
end FilterLang
