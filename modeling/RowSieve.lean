import RowSieve.Table.Builder
import RowSieve.View.Declare
import RowSieve.View.Derive
import RowSieve.Proofs.Bits
import RowSieve.Proofs.Column
import RowSieve.Proofs.Table
import RowSieve.Proofs.Binary64
import RowSieve.Proofs.Predicate
import RowSieve.Proofs.View.Compaction
import RowSieve.Proofs.View.Selection
import RowSieve.Proofs.Predicate.Agreement
import RowSieve.Proofs.Mask
import RowSieve.Proofs.View.Stored
import RowSieve.Proofs.Column.Values
import RowSieve.Proofs.RowLocal
import RowSieve.Proofs.View.RowLocal
import RowSieve.Proofs.View.Memory
import RowSieve.Proofs.View.Session
import RowSieve.Proofs.View.Work
import RowSieve.Proofs.View.Extraction
import RowSieve.Proofs.View.Placeholders
import RowSieve.Proofs.Predicate.Typing
import RowSieve.Proofs.View.Leaves
import RowSieve.Proofs.View.Declarations
import RowSieve.Proofs.Bits.History
import RowSieve.Proofs.View.Safety
import RowSieve.Proofs.View.Survival
import RowSieve.Proofs.Predicate.Schema
import RowSieve.Proofs.Predicate.Mirrored
import RowSieve.Proofs.Mask.Enumeration
import RowSieve.Proofs.Mask.Algebra
import RowSieve.Proofs.View.Depth
import RowSieve.Proofs.View.Fading
import RowSieve.Proofs.Column.Nulls
import RowSieve.Proofs.Column.RoundTrip
import RowSieve.Proofs.Column.Gathering
import RowSieve.Proofs.Table.Equality
import RowSieve.Proofs.Table.Building
import RowSieve.Proofs.Text.Characters
import RowSieve.Proofs.Predicate.ReadSet
import RowSieve.Proofs.View.TextColumns
import RowSieve.Proofs.View.LiftedColumns
import RowSieve.Proofs.View.Termination
import RowSieve.Proofs.Scalar.Hashing
