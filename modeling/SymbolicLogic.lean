import SymbolicLogic.Text.Blank
import SymbolicLogic.Text.Unprintable
import SymbolicLogic.Text.Quoted
import SymbolicLogic.Symbol
import SymbolicLogic.Operator
import SymbolicLogic.Language.Basic
import SymbolicLogic.Language.Validity
import SymbolicLogic.Language.Registry
import SymbolicLogic.Expression.Basic
import SymbolicLogic.Expression.Equality
import SymbolicLogic.Expression.Kind
import SymbolicLogic.Expression.Substitution
import SymbolicLogic.Rendering.Run
import SymbolicLogic.Rendering.Expression
import SymbolicLogic.Rendering.Screen
import SymbolicLogic.Rendering.Sink
import SymbolicLogic.Rendering.Report
import SymbolicLogic.Token.Lexeme
import SymbolicLogic.Token.Basic
import SymbolicLogic.Grammar.Rule
import SymbolicLogic.Grammar.Term
import SymbolicLogic.Grammar.Formula
import SymbolicLogic.Grammar.Parse
import SymbolicLogic.Session.Basic
import SymbolicLogic.Session.Reading
import SymbolicLogic.Session.Instantiation
import SymbolicLogic.Session.Matching
import SymbolicLogic.Header.Item
import SymbolicLogic.Header.Scan
import SymbolicLogic.Truth.Value
import SymbolicLogic.Truth.Interpretation
import SymbolicLogic.Truth.Table
import SymbolicLogic.Truth.Setup
import SymbolicLogic.Truth.Tabulation
import SymbolicLogic.Truth.Print
import SymbolicLogic.Grading.AnswerSheet
import SymbolicLogic.Grading.Attempts
import SymbolicLogic.Toml.Number
import SymbolicLogic.Toml.Value
import SymbolicLogic.Toml.Scanner
import SymbolicLogic.Toml.Scalar
import SymbolicLogic.Toml.Tree
import SymbolicLogic.Toml.Document
import SymbolicLogic.Toml.Writer
import SymbolicLogic.Settings.Basic
import SymbolicLogic.Settings.Document
import SymbolicLogic.Proofs.Grammar.RuleLaws
import SymbolicLogic.Proofs.Grammar.Sequence
import SymbolicLogic.Proofs.Grammar.Derivation
import SymbolicLogic.Proofs.Grammar.Recursion
import SymbolicLogic.Proofs.Grammar.Soundness
import SymbolicLogic.Proofs.Grammar.TermCompleteness
import SymbolicLogic.Proofs.Grammar.Completeness
import SymbolicLogic.Proofs.Grammar.Exactness
import SymbolicLogic.Proofs.Grammar.Sorts
import SymbolicLogic.Proofs.Language.Validity
import SymbolicLogic.Proofs.Token.Classification
import SymbolicLogic.Proofs.Token.Order
import SymbolicLogic.Proofs.Token.Spelling
import SymbolicLogic.Proofs.Token.Cutting
import SymbolicLogic.Proofs.Rendering.Writing
import SymbolicLogic.Proofs.Rendering.Lexing
import SymbolicLogic.Proofs.Grammar.RoundTrip
import SymbolicLogic.Proofs.Grammar.Attachment
import SymbolicLogic.Proofs.Grammar.Writable
import SymbolicLogic.Proofs.Rendering.Rereading
import SymbolicLogic.Proofs.Truth.Nodes
import SymbolicLogic.Proofs.Truth.Columns
import SymbolicLogic.Proofs.Truth.Tabulation
import SymbolicLogic.Proofs.Truth.Table
import SymbolicLogic.Proofs.Header.Scanning
import SymbolicLogic.Proofs.Header.Nesting
import SymbolicLogic.Proofs.Header.Counting
import SymbolicLogic.Proofs.Header.Glyphs
import SymbolicLogic.Proofs.Header.Terms
import SymbolicLogic.Proofs.Header.Formulas
import SymbolicLogic.Proofs.Header.Alignment
import SymbolicLogic.Proofs.Truth.Layout
import SymbolicLogic.Proofs.Expression.Congruence
import SymbolicLogic.Proofs.Session.Stability
import SymbolicLogic.Proofs.Session.Runs
import SymbolicLogic.Proofs.Session.Induction
import SymbolicLogic.Proofs.Session.Growth
import SymbolicLogic.Proofs.Session.Permanence
import SymbolicLogic.Proofs.Expression.Nodes
import SymbolicLogic.Proofs.Expression.Scopes
import SymbolicLogic.Proofs.Expression.Readings
import SymbolicLogic.Proofs.Session.Walk
import SymbolicLogic.Proofs.Session.Soundness
import SymbolicLogic.Proofs.Session.Completeness
import SymbolicLogic.Proofs.Session.Resolution
import SymbolicLogic.Proofs.Session.Lookup
import SymbolicLogic.Proofs.Session.Alike
import SymbolicLogic.Proofs.Session.Presentation
import SymbolicLogic.Proofs.Session.Rendering
import SymbolicLogic.Proofs.Truth.Skeleton
import SymbolicLogic.Proofs.Truth.Agreement
import SymbolicLogic.Proofs.Truth.Substitution
import SymbolicLogic.Proofs.Lists
import SymbolicLogic.Proofs.Truth.Consistency
import SymbolicLogic.Proofs.Grading.Checks
import SymbolicLogic.Proofs.Grading.Criterion
import SymbolicLogic.Proofs.Truth.Undeclared
import SymbolicLogic.Proofs.Header.Contents
import SymbolicLogic.Proofs.Header.Markup
import SymbolicLogic.Proofs.Header.Lossless
import SymbolicLogic.Proofs.Header.Display
import SymbolicLogic.Proofs.Truth.Reporting
import SymbolicLogic.Proofs.Expression.Substitution
import SymbolicLogic.Proofs.Expression.Elementary
import SymbolicLogic.Proofs.Session.Exchange
import SymbolicLogic.Proofs.Session.Repetition
import SymbolicLogic.Proofs.Session.Concreteness
import SymbolicLogic.Proofs.Session.Finality
import SymbolicLogic.Proofs.Session.Reflexivity
import SymbolicLogic.Proofs.Session.Parameters
import SymbolicLogic.Proofs.Session.Instances
import SymbolicLogic.Proofs.Session.Sorts
import SymbolicLogic.Proofs.Truth.Rows
import SymbolicLogic.Proofs.Rendering.Shading
import SymbolicLogic.Proofs.Rendering.Depth
import SymbolicLogic.Proofs.Rendering.Sinks
import SymbolicLogic.Proofs.Language.Registry
import SymbolicLogic.Proofs.Rendering.Blanks
import SymbolicLogic.Proofs.Truth.Printing
