import FilterLang.Canonical.Format
import FilterLang.Canonical.Reader
import FilterLang.Expr.Source
import FilterLang.Expr.Stack
import FilterLang.Grammar
import FilterLang.Lexeme.Sequence
import FilterLang.Main
import FilterLang.Canonical.DepthCounter
import FilterLang.Row.InPlace
import FilterLang.Token.Matching
import FilterLang.Proofs.SententialForm
import FilterLang.Proofs.Reduction
import FilterLang.Proofs.ParseGrammar
import FilterLang.Proofs.QuotedText
import FilterLang.Proofs.CanonicalFormat
import FilterLang.Proofs.CanonicalRoundTrip
import FilterLang.Proofs.StandardRules
import FilterLang.Proofs.SourceText
import FilterLang.Proofs.DepthLimit
import FilterLang.Proofs.LexemeSequence
import FilterLang.Proofs.RuleOrder
import FilterLang.Proofs.KeywordWords
import FilterLang.Proofs.Overlaps
import FilterLang.Proofs.Pieces
import FilterLang.Proofs.Correspondence
import FilterLang.Proofs.Concatenation
import FilterLang.Proofs.QuotedValue
import FilterLang.Proofs.Spacing
import FilterLang.Proofs.ParenMatching
import FilterLang.Proofs.FailedReduction
import FilterLang.Proofs.GroupReduction
import FilterLang.Proofs.GroupErrors
import FilterLang.Proofs.TokenPlaces
import FilterLang.Proofs.UnmatchedParens
import FilterLang.Proofs.SlotOrigins
import FilterLang.Proofs.OperatorErrors
import FilterLang.Proofs.CheckDelivery
import FilterLang.Proofs.GroupContents
import FilterLang.Proofs.Boundaries
import FilterLang.Proofs.ComparisonOrder
import FilterLang.Proofs.TokenKinds
import FilterLang.Proofs.Literals
import FilterLang.Proofs.PrettyLayout
import FilterLang.Proofs.JsonReader
import FilterLang.Proofs.JsonText
import FilterLang.Proofs.ReadErrors
import FilterLang.Proofs.TokenListing
import FilterLang.Proofs.StepwiseReduction
import FilterLang.Proofs.DepthInvariant
import FilterLang.Proofs.TokenUse
import FilterLang.Proofs.DepthCounter
import FilterLang.Proofs.InPlaceReduction
