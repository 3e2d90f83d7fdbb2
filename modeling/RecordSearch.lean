import RecordSearch.Main
import RecordSearch.Proofs.CommandLine.Precedence
import RecordSearch.Proofs.CommandLine.Table
import RecordSearch.Proofs.Predicate.Null
import RecordSearch.Proofs.Predicate.Termination
import RecordSearch.Proofs.Query.Aliases
import RecordSearch.Proofs.Query.Bounds
import RecordSearch.Proofs.Query.Fold
import RecordSearch.Proofs.Query.LetterCase
import RecordSearch.Proofs.Query.Nested
import RecordSearch.Proofs.Query.OppositeBounds
import RecordSearch.Proofs.Query.Overrides
import RecordSearch.Proofs.Query.Placement
import RecordSearch.Proofs.Query.Refusal
import RecordSearch.Proofs.Record.Rewording
import RecordSearch.Proofs.Store.Agreement
import RecordSearch.Proofs.Store.Exactness
import RecordSearch.Proofs.Store.Joined
import RecordSearch.Proofs.Store.Partition
import RecordSearch.Proofs.Store.Refinement
import RecordSearch.Proofs.Store.Refusal
import RecordSearch.Proofs.Store.Times
import RecordSearch.Proofs.Timestamp.Canonical
import RecordSearch.Proofs.Value
