import Curried.Grammar.Program
import Curried.Native
import Curried.Pattern.Reader
import Curried.Program
import Curried.Types.Inference
import Curried.Types.Native
import Curried.Proofs.Parser.Built
import Curried.Proofs.Parser.Frame
import Curried.Proofs.Parser.Precedence
import Curried.Proofs.Parser.Position
import Curried.Proofs.Parser.Diagnostics
import Curried.Proofs.Parser.Trace
import Curried.Proofs.Types.Acceptance
import Curried.Proofs.Types.Inhabits
import Curried.Proofs.Types.Native
import Curried.Proofs.Types.Following
import Curried.Proofs.Types.Preservation
import Curried.Proofs.Parser.Reading
import Curried.Proofs.Grammar.Glyph
import Curried.Proofs.Grammar.Lexeme
import Curried.Proofs.Parser.Until
import Curried.Proofs.Grammar.Rules
import Curried.Proofs.Grammar.Derivation
import Curried.Proofs.Grammar.Soundness
import Curried.Proofs.Grammar.Completeness
import Curried.Proofs.Grammar.Decided
import Curried.Proofs.Grammar.Nesting
import Curried.Proofs.Grammar.Spelling
import Curried.Proofs.Grammar.Writing
import Curried.Proofs.Grammar.TypeRendering
import Curried.Proofs.Grammar.Rendering
import Curried.Proofs.Grammar.RoundTrip
import Curried.Proofs.Grammar.Built
import Curried.Proofs.Grammar.Recording
import Curried.Proofs.Number.Equality
import Curried.Proofs.Number.Numeral
import Curried.Proofs.Grammar.Conservation
import Curried.Proofs.Grammar.Productions
import Curried.Proofs.Grammar.Greedy
import Curried.Proofs.Grammar.Furthest
import Curried.Proofs.Parser.Reports
import Curried.Proofs.Evaluation.Occasion
import Curried.Proofs.Evaluation.Arity
import Curried.Proofs.Evaluation.Correspondence
import Curried.Proofs.Evaluation.Data
import Curried.Proofs.Evaluation.Desugaring
import Curried.Proofs.Evaluation.Scoping
import Curried.Proofs.Types.Progress
import Curried.Proofs.Types.Preorder
import Curried.Proofs.Lexer.Lossless
import Curried.Proofs.Parser.Merging
import Curried.Proofs.Parser.Flatten
import Curried.Proofs.Parser.Course
import Curried.Proofs.Types.Description
import Curried.Proofs.Parser.Endless
import Curried.Proofs.Parser.Reentry
import Curried.Proofs.Grammar.Reentry
import Curried.Proofs.Evaluation.Guards
import Curried.Proofs.History.Rendering
import Curried.Proofs.Types.Desugaring
import Curried.Proofs.Grammar.Layout
import Curried.Proofs.Parser.Lists
import Curried.Proofs.Evaluation.Equality
import Curried.Proofs.History.Balance
