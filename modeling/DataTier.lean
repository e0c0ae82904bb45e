import DataTier.Cache.Coordinator
import DataTier.Cache.Traffic
import DataTier.Command.Folder
import DataTier.Json.Reader
import DataTier.Main
import DataTier.Pool.Scripted
import DataTier.Pool.Settle
import DataTier.Proofs.Pool.Line
import DataTier.Proofs.Pool.Visit
import DataTier.Proofs.Pool.Custody
import DataTier.Proofs.Pool.Moves
import DataTier.Proofs.Pool.Exclusive
import DataTier.Proofs.Pool.Bounds
import DataTier.Proofs.Pool.Accounting
import DataTier.Proofs.Pool.Leaks
import DataTier.Proofs.Pool.Queue
import DataTier.Proofs.Pool.WakeUps
import DataTier.Proofs.Cache.Visit
import DataTier.Proofs.Cache.Crowd
import DataTier.Proofs.Cache.Order
import DataTier.Proofs.Cache.SingleFlight
import DataTier.Proofs.Cache.Agreement
import DataTier.Proofs.Cache.Discipline
import DataTier.Proofs.Cache.Markers
import DataTier.Proofs.Pool.Identity
import DataTier.Proofs.Cache.History
import DataTier.Proofs.Cache.Reflection
import DataTier.Proofs.Cache.Chain
import DataTier.Proofs.Pool.Shutdown
import DataTier.Proofs.Pool.Transactions
import DataTier.Proofs.Pool.Calls
import DataTier.Proofs.Pool.Ledger
import DataTier.Proofs.Cache.Commit
import DataTier.Proofs.Cache.Unlocking
import DataTier.Proofs.Cache.Rollback
import DataTier.Proofs.Cache.Product
import DataTier.Proofs.Cache.Keeping
import DataTier.Proofs.Simulation.Lookups
import DataTier.Proofs.Simulation.Once
import DataTier.Proofs.Config.Disclosure
import DataTier.Proofs.Pool.Search
import DataTier.Proofs.Config.RoundTrip
import DataTier.Proofs.Pool.Overdue
import DataTier.Proofs.Cache.Recency
import DataTier.Proofs.Cache.Budget
import DataTier.Proofs.Cache.Sight
import DataTier.Proofs.Cache.Retention
import DataTier.Proofs.Cache.Transparency
import DataTier.Proofs.Cache.Looking
import DataTier.Proofs.Cache.OwnGates
import DataTier.Proofs.Cache.KeyParts
import DataTier.Proofs.Source.Identity
import DataTier.Proofs.Cache.Lobby
import DataTier.Proofs.Time.Grammar
import DataTier.Proofs.Config.Milliseconds
import DataTier.Proofs.Cache.Deadlines
import DataTier.Proofs.Cache.Totals
import DataTier.Proofs.Cache.Clocks
