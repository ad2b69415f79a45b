import QueryResult.Session.Action
import QueryResult.Value.Text
import QueryResult.Proofs.Buffer.PlainResult
import QueryResult.Proofs.Buffer.DistinctResult
import QueryResult.Proofs.Buffer.Probes
import QueryResult.Proofs.Session.Membership
import QueryResult.Proofs.Session.Addressing
import QueryResult.Proofs.Session.Contexts
import QueryResult.Proofs.Session.Registrations
import QueryResult.Proofs.Session.Sharing
import QueryResult.Proofs.Buffer.FailedFinalization
import QueryResult.Proofs.Session.FailedFinalization
import QueryResult.Proofs.Session.Accounts
import QueryResult.Proofs.OrderBy.Faults
import QueryResult.Proofs.Buffer.Cursor
import QueryResult.Proofs.Session.Transitions
import QueryResult.Proofs.Session.Cursor
import QueryResult.Proofs.Buffer.Integrity
import QueryResult.Proofs.Session.Integrity
import QueryResult.Proofs.Session.Finality
import QueryResult.Proofs.Buffer.Threshold
import QueryResult.Proofs.Session.Threshold
import QueryResult.Proofs.ContentIndex.History
import QueryResult.Proofs.Buffer.SortedDistinct
import QueryResult.Proofs.Session.RefusedRows
import QueryResult.Proofs.Session.Sources
import QueryResult.Proofs.OrderBy.Guarantees
import QueryResult.Proofs.Session.Reading
import QueryResult.Proofs.Value.Order
import QueryResult.Proofs.OrderBy.Preorder
import QueryResult.Proofs.RowKey
import QueryResult.Proofs.OrderBy.Composition
import QueryResult.Proofs.Hash.Mix
import QueryResult.Proofs.Value.Hash
import QueryResult.Proofs.RowKey.Hash
import QueryResult.Proofs.OrderBy.Reversal
