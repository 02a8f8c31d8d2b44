import Packrat.Grammar.LeftCall
import Packrat.Main
import Packrat.Proofs.Consistency
import Packrat.Proofs.Derivation
import Packrat.Proofs.Peg
import Packrat.Proofs.Termination
import Packrat.Testing.Sample
import Packrat.Testing.Tester
import Packrat.Proofs.Reentry
import Packrat.Proofs.Abandonment
import Packrat.Proofs.Diagnosis
import Packrat.Proofs.Account
import Packrat.Proofs.Conservation
import Packrat.Proofs.Layout
import Packrat.Proofs.Distance
import Packrat.Proofs.Generation
import Packrat.Proofs.Mocking
import Packrat.Proofs.Isolation
import Packrat.Proofs.Masks
import Packrat.Proofs.Nesting
import Packrat.Proofs.Barrier
import Packrat.Proofs.Pointing
import Packrat.Proofs.Composing
import Packrat.Proofs.Independence
import Packrat.Proofs.Observation
import Packrat.Proofs.Parsing
import Packrat.Proofs.Spacing
import Packrat.Proofs.Rereading
import Packrat.Proofs.Returns
import Packrat.Proofs.Places
import Packrat.Proofs.LineEndings
import Packrat.Proofs.EmptyMatch
import Packrat.Proofs.Cutting
import Packrat.Proofs.Indentation
import Packrat.Proofs.Insertion
import Packrat.Proofs.Summary
import Packrat.Proofs.Cycles
import Packrat.Proofs.Simplification
import Packrat.Proofs.Positions
import Packrat.Proofs.Delimiters
import Packrat.Proofs.Unreadable
import Packrat.Proofs.Remembering
import Packrat.Proofs.RowLines
import Packrat.Proofs.Ambiguity
