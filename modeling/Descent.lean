import Descent.Error.Render
import Descent.Grammar.Lemmas
import Descent.Grammar.Vocabulary
import Descent.Stream.Cursor
import Descent.Proofs.Truthful
import Descent.Proofs.Furthest
import Descent.Proofs.Regrouping
import Descent.Proofs.Relabelling
import Descent.Proofs.Backtracking
import Descent.Proofs.Layout.AlignedItems
import Descent.Proofs.Layout.Folds
import Descent.Proofs.Repetition.Progress
import Descent.Proofs.Indentation
import Descent.Proofs.Stream.Faithful
import Descent.Proofs.Stream.Agreement
import Descent.Proofs.Alternatives
import Descent.Proofs.Success
import Descent.Proofs.Text.Reading
import Descent.Proofs.Text.Lexemes
import Descent.Proofs.Language.Bracketed
import Descent.Proofs.Language.Outline
import Descent.Proofs.Language.Program
import Descent.Proofs.Permutation.AnyOrder
import Descent.Proofs.Stream.Recovery
import Descent.Proofs.Stream.Shorter
import Descent.Proofs.Tracing.Nested
import Descent.Proofs.Tracing.Transparent
import Descent.Proofs.Separated.Between
import Descent.Proofs.Separated.Terminated
import Descent.Proofs.Separated.Trailing
import Descent.Proofs.Text.Numbers
import Descent.Proofs.Text.Literals
import Descent.Proofs.Text.Places
import Descent.Proofs.Stream.Contents
import Descent.Proofs.Permutation.EveryOrder
import Descent.Proofs.Stream.SinglePass
