import ProductFormula.Main
import ProductFormula.Proofs.Grammar.Derivation
import ProductFormula.Proofs.Grammar.Nesting
import ProductFormula.Proofs.Grammar.Completeness
import ProductFormula.Proofs.Grammar.Phrases
import ProductFormula.Proofs.Grammar.Soundness
import ProductFormula.Proofs.Grammar.Acceptance
import ProductFormula.Proofs.Number.Nearest
import ProductFormula.Proofs.Number.Reading
import ProductFormula.Proofs.Number.Numeral
import ProductFormula.Proofs.Number.Layout
import ProductFormula.Proofs.Printer.Print
import ProductFormula.Proofs.Printer.Lexing
import ProductFormula.Proofs.Printer.Roundtrip
import ProductFormula.Proofs.Grammar.Height
import ProductFormula.Proofs.Printer.Tower
import ProductFormula.Proofs.Text.Trim
import ProductFormula.Proofs.Calculation.Lines
import ProductFormula.Proofs.Calculation.Source
import ProductFormula.Proofs.Calculation.Atomicity
import ProductFormula.Proofs.Expr.Leaves
import ProductFormula.Proofs.Reference.Braces
import ProductFormula.Proofs.Reference.Tokens
import ProductFormula.Proofs.Calculation.Forms
import ProductFormula.Proofs.Calculation.References
import ProductFormula.Proofs.Calculation.Locality
import ProductFormula.Proofs.Calculation.Sequence
import ProductFormula.Proofs.Calculation.ReadBack
import ProductFormula.Proofs.Calculation.Records
import ProductFormula.Proofs.Expr.Substitution
import ProductFormula.Proofs.Highlight.Coverage
import ProductFormula.Proofs.Highlight.Statements
import ProductFormula.Proofs.Grammar.Allowance
import ProductFormula.Proofs.Calculation.Allowance
import ProductFormula.Proofs.Highlight.Opening
import ProductFormula.Proofs.Calculation.Literals
import ProductFormula.Proofs.Json.Strings
import ProductFormula.Proofs.Json.Numbers
import ProductFormula.Proofs.Json.Environments
import ProductFormula.Proofs.Calculation.Assignments
import ProductFormula.Proofs.Calculation.Equivalents
import ProductFormula.Proofs.Reference.Dots
import ProductFormula.Proofs.Expr.Relaxation
import ProductFormula.Proofs.Expr.Causes
import ProductFormula.Proofs.Function.Names
import ProductFormula.Proofs.Printer.Parsed
import ProductFormula.Proofs.Reference.Templates
import ProductFormula.Proofs.Token.Places
import ProductFormula.Proofs.Grammar.Embedding
import ProductFormula.Proofs.Calculation.TextReturns
import ProductFormula.Proofs.Calculation.Unquoted
import ProductFormula.Proofs.Number.Decimals
import ProductFormula.Proofs.Number.Readers
import ProductFormula.Proofs.Grammar.Brackets
import ProductFormula.Proofs.CommandLine.Check
import ProductFormula.Proofs.Text.Escape
import ProductFormula.Proofs.CommandLine.Tokens
import ProductFormula.Proofs.Text.Bytes
import ProductFormula.Proofs.Environment.History
import ProductFormula.Proofs.Function.Registrations
import ProductFormula.Proofs.Grammar.Order
import ProductFormula.Proofs.Highlight.Reach
import ProductFormula.Proofs.Highlight.Words
import ProductFormula.Proofs.Number.Order
import ProductFormula.Proofs.Expr.Comparisons
import ProductFormula.Proofs.Expr.Notation
import ProductFormula.Proofs.Function.Extremes
import ProductFormula.Proofs.Expr.Callees
import ProductFormula.Proofs.Calculation.Layout
import ProductFormula.Proofs.Number.Parity
import ProductFormula.Proofs.Grammar.Depth
