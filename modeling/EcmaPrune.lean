import EcmaPrune.Analysis.Constant
import EcmaPrune.Analysis.PrimitiveType
import EcmaPrune.Analysis.Removable
import EcmaPrune.Analysis.Truthiness
import EcmaPrune.Loc
import EcmaPrune.Minify
import EcmaPrune.Minify.Conditions
import EcmaPrune.Minify.Mangle
import EcmaPrune.Minify.Options
import EcmaPrune.Minify.Statements
import EcmaPrune.Minify.Tally
import EcmaPrune.Minify.Walk
import EcmaPrune.Number
import EcmaPrune.Number.BigInt
import EcmaPrune.Number.Decimal
import EcmaPrune.Operator
import EcmaPrune.Print
import EcmaPrune.Print.Emitter
import EcmaPrune.Print.Precedence
import EcmaPrune.Print.Token
import EcmaPrune.Proofs.Analysis.Canonical
import EcmaPrune.Proofs.Analysis.Constant
import EcmaPrune.Proofs.Analysis.Integer
import EcmaPrune.Proofs.Analysis.Likeness
import EcmaPrune.Proofs.Analysis.Nullishness
import EcmaPrune.Proofs.Analysis.PrimitiveType
import EcmaPrune.Proofs.Analysis.Removable
import EcmaPrune.Proofs.Analysis.ResultType
import EcmaPrune.Proofs.Analysis.SpelledOut
import EcmaPrune.Proofs.Analysis.Truthiness
import EcmaPrune.Proofs.Analysis.Verdicts
import EcmaPrune.Proofs.Analysis.WithScope
import EcmaPrune.Proofs.Minify.Landmarks
import EcmaPrune.Proofs.Minify.Mangle
import EcmaPrune.Proofs.Minify.MangleReference
import EcmaPrune.Proofs.Minify.MangleSound
import EcmaPrune.Proofs.Minify.MangleStep
import EcmaPrune.Proofs.Minify.PassHonest
import EcmaPrune.Proofs.Minify.PassLimit
import EcmaPrune.Proofs.Minify.PassMarks
import EcmaPrune.Proofs.Minify.Prologue
import EcmaPrune.Proofs.Minify.Skeleton
import EcmaPrune.Proofs.Minify.Target
import EcmaPrune.Proofs.Minify.WalkHonest
import EcmaPrune.Proofs.Minify.WalkMarks
import EcmaPrune.Proofs.Number
import EcmaPrune.Proofs.Number.Canonical
import EcmaPrune.Proofs.Number.Decimal
import EcmaPrune.Proofs.Number.Nearest
import EcmaPrune.Proofs.Number.Order
import EcmaPrune.Proofs.Number.Shortest
import EcmaPrune.Proofs.Number.Wrapped
import EcmaPrune.Proofs.Print.Apart
import EcmaPrune.Proofs.Print.Brackets
import EcmaPrune.Proofs.Print.ChainEnd
import EcmaPrune.Proofs.Print.Flow
import EcmaPrune.Proofs.Print.Grammar
import EcmaPrune.Proofs.Print.GrammarLaws
import EcmaPrune.Proofs.Print.Inlined
import EcmaPrune.Proofs.Print.Layout
import EcmaPrune.Proofs.Print.Nesting
import EcmaPrune.Proofs.Print.Ownership
import EcmaPrune.Proofs.Print.Pattern
import EcmaPrune.Proofs.Print.ReadBack
import EcmaPrune.Proofs.Print.Scannable
import EcmaPrune.Proofs.Print.Scanner
import EcmaPrune.Proofs.Print.ScannerLaws
import EcmaPrune.Proofs.Print.Strength
import EcmaPrune.Proofs.Print.Written
import EcmaPrune.Proofs.Rewrite.Chain
import EcmaPrune.Proofs.Rewrite.Condition
import EcmaPrune.Proofs.Rewrite.ConditionCanonical
import EcmaPrune.Proofs.Rewrite.ConditionMarks
import EcmaPrune.Proofs.Rewrite.ConditionNormal
import EcmaPrune.Proofs.Rewrite.ConditionParts
import EcmaPrune.Proofs.Rewrite.ConditionRemovable
import EcmaPrune.Proofs.Rewrite.ConditionSpelledOut
import EcmaPrune.Proofs.Rewrite.Discard
import EcmaPrune.Proofs.Rewrite.DiscardCalls
import EcmaPrune.Proofs.Rewrite.DiscardCanonical
import EcmaPrune.Proofs.Rewrite.DiscardKeys
import EcmaPrune.Proofs.Rewrite.DiscardLiteral
import EcmaPrune.Proofs.Rewrite.DiscardMarks
import EcmaPrune.Proofs.Rewrite.DiscardParts
import EcmaPrune.Proofs.Rewrite.DiscardRemovable
import EcmaPrune.Proofs.Rewrite.DiscardResidue
import EcmaPrune.Proofs.Rewrite.DiscardSpelledOut
import EcmaPrune.Proofs.Rewrite.Discarded
import EcmaPrune.Proofs.Rewrite.Guard
import EcmaPrune.Proofs.Rewrite.ImmediateCall
import EcmaPrune.Proofs.Rewrite.Join
import EcmaPrune.Proofs.Rewrite.Kept
import EcmaPrune.Proofs.Rewrite.Leading
import EcmaPrune.Proofs.Rewrite.NullTest
import EcmaPrune.Proofs.Rewrite.Spine
import EcmaPrune.Proofs.Rewrite.Sum
import EcmaPrune.Proofs.Rewrite.Translation
import EcmaPrune.Proofs.Rewrite.Visited
import EcmaPrune.Proofs.Semantics.Congruence
import EcmaPrune.Proofs.Semantics.Effects
import EcmaPrune.Proofs.Semantics.Eval
import EcmaPrune.Proofs.Semantics.EvalLaws
import EcmaPrune.Proofs.Semantics.Host
import EcmaPrune.Proofs.Semantics.Refer
import EcmaPrune.Proofs.Semantics.Run
import EcmaPrune.Proofs.Semantics.Silence
import EcmaPrune.Proofs.Semantics.Truth
import EcmaPrune.Proofs.Semantics.Typing
import EcmaPrune.Proofs.Semantics.Value
import EcmaPrune.Proofs.Symbol.History
import EcmaPrune.Proofs.Symbol.Index
import EcmaPrune.Proofs.Text.Literal
import EcmaPrune.Proofs.Text.Units
import EcmaPrune.Proofs.Tree.Canonical
import EcmaPrune.Proofs.Tree.EveryNode
import EcmaPrune.Proofs.Tree.Marks
import EcmaPrune.Proofs.Tree.Operands
import EcmaPrune.Proofs.Tree.Parts
import EcmaPrune.Proofs.Tree.SpelledOut
import EcmaPrune.Rewrite.Chain
import EcmaPrune.Rewrite.Condition
import EcmaPrune.Rewrite.Discard
import EcmaPrune.Rewrite.Join
import EcmaPrune.Rewrite.Pattern
import EcmaPrune.Symbol
import EcmaPrune.Text.Escape
import EcmaPrune.Text.Units
import EcmaPrune.Tree
import EcmaPrune.Tree.Build
import EcmaPrune.Tree.Data
import EcmaPrune.Tree.NodeCount
import EcmaPrune.Tree.Same
import EcmaPrune.Tree.Visit
