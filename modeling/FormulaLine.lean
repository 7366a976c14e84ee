import FormulaLine.Main
import FormulaLine.Proofs.Marking
import FormulaLine.Proofs.Resplitting
import FormulaLine.Proofs.Grammar
import FormulaLine.Proofs.Juxtaposition
import FormulaLine.Proofs.Tokens
import FormulaLine.Proofs.TermPolicy
import FormulaLine.Proofs.Continuation
import FormulaLine.Proofs.MaskedRuns
import FormulaLine.Proofs.Seams
import FormulaLine.Proofs.Calls
import FormulaLine.Proofs.Guarding
import FormulaLine.Proofs.CompletionTable
import FormulaLine.Proofs.Boundaries
import FormulaLine.Proofs.Editing
import FormulaLine.Proofs.Completing
import FormulaLine.Proofs.Answering
import FormulaLine.Proofs.Suggesting
import FormulaLine.Proofs.JoinedNames
import FormulaLine.Proofs.Reading
import FormulaLine.Proofs.ValueNames
import FormulaLine.Proofs.Balance
import FormulaLine.Proofs.Circling
import FormulaLine.Proofs.Closing
import FormulaLine.Proofs.Exhausting
import FormulaLine.Proofs.Members
import FormulaLine.Proofs.TableFaults
import FormulaLine.Proofs.Imbalance
import FormulaLine.Proofs.RoundingLaws
import FormulaLine.Proofs.Reconfiguring
import FormulaLine.Proofs.SortingPasses
import FormulaLine.Proofs.Resolution
import FormulaLine.Proofs.Stopping
import FormulaLine.Proofs.Acceptance
