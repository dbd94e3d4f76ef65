import StockLedger.Calls.Cache
import StockLedger.Calls.Ledger
import StockLedger.Calls.Publisher
import StockLedger.Calls.Reservations
import StockLedger.Database.Dialogue
import StockLedger.Database.Ledger
import StockLedger.Database.Reservations
import StockLedger.Database.Schema
import StockLedger.Database.Server
import StockLedger.Database.Statement
import StockLedger.Database.Value
import StockLedger.Fault.Basic
import StockLedger.Fault.Causes
import StockLedger.Identity.Basic
import StockLedger.Identity.Reader
import StockLedger.Identity.Uuid
import StockLedger.Json.Basic
import StockLedger.Json.Printer
import StockLedger.Json.Reader
import StockLedger.Json.Shape
import StockLedger.Json.Token
import StockLedger.KeyValue.Address
import StockLedger.KeyValue.Cache
import StockLedger.KeyValue.Client
import StockLedger.KeyValue.Numeral
import StockLedger.KeyValue.Publisher
import StockLedger.KeyValue.Reply
import StockLedger.Locator.Basic
import StockLedger.Locator.Host
import StockLedger.Locator.Percent
import StockLedger.Memory.Cache
import StockLedger.Memory.Ledger
import StockLedger.Memory.Reservations
import StockLedger.Program.Basic
import StockLedger.Proofs.Concurrent.Conduct
import StockLedger.Proofs.Concurrent.History
import StockLedger.Proofs.Concurrent.Solo
import StockLedger.Proofs.Database.Agreement
import StockLedger.Proofs.Database.Claims
import StockLedger.Proofs.Database.Dialogues
import StockLedger.Proofs.Database.Items
import StockLedger.Proofs.Database.Limits
import StockLedger.Proofs.Database.Mirrors
import StockLedger.Proofs.Database.Server
import StockLedger.Proofs.Database.Statements
import StockLedger.Proofs.Database.Truncation
import StockLedger.Proofs.Database.Verdicts
import StockLedger.Proofs.Identity.Uuid
import StockLedger.Proofs.Json.RoundTrip
import StockLedger.Proofs.Json.Splice
import StockLedger.Proofs.KeyValue.Purging
import StockLedger.Proofs.Memory.Backlog
import StockLedger.Proofs.Memory.Cuts
import StockLedger.Proofs.Memory.Expiry
import StockLedger.Proofs.Memory.Indexes
import StockLedger.Proofs.Memory.Items
import StockLedger.Proofs.Memory.Ledger
import StockLedger.Proofs.Memory.Patterns
import StockLedger.Proofs.Memory.Reservations
import StockLedger.Proofs.Memory.Scarcity
import StockLedger.Proofs.Program.Safe
import StockLedger.Proofs.Program.Transcript
import StockLedger.Proofs.Program.Within
import StockLedger.Proofs.ReadThrough.Coherence
import StockLedger.Proofs.ReadThrough.Copies
import StockLedger.Proofs.ReadThrough.FailOpen
import StockLedger.Proofs.ReadThrough.Keys
import StockLedger.Proofs.ReadThrough.LostUpdates
import StockLedger.Proofs.ReadThrough.Quiescence
import StockLedger.Proofs.ReadThrough.Reports
import StockLedger.Proofs.ReadThrough.Rereads
import StockLedger.Proofs.ReadThrough.Transparency
import StockLedger.Proofs.Rehearsal.Calm
import StockLedger.Proofs.Rehearsal.Refusals
import StockLedger.Proofs.Rehearsal.Twins
import StockLedger.Proofs.Rehearsal.Undisturbed
import StockLedger.Proofs.Rehearsal.Verdicts
import StockLedger.Proofs.Service.Accounting
import StockLedger.Proofs.Service.Closing
import StockLedger.Proofs.Service.Commuting
import StockLedger.Proofs.Service.DefaultSpan
import StockLedger.Proofs.Service.Finality
import StockLedger.Proofs.Service.Isolation
import StockLedger.Proofs.Service.Orders
import StockLedger.Proofs.Service.Products
import StockLedger.Proofs.Service.Reserve
import StockLedger.Proofs.Service.Retry
import StockLedger.Proofs.Service.Settlement
import StockLedger.Proofs.Service.Workflows
import StockLedger.Proofs.Settings.BatchLimit
import StockLedger.Proofs.Settings.Environment
import StockLedger.Proofs.Settings.Spans
import StockLedger.Proofs.Stock.Composition
import StockLedger.Proofs.Stock.Conservation
import StockLedger.Proofs.Stock.Item
import StockLedger.Proofs.Stock.Lifecycle
import StockLedger.Proofs.Stock.Reservation
import StockLedger.Proofs.Stock.Words
import StockLedger.Proofs.Sweep.Broadcast
import StockLedger.Proofs.Sweep.Drain
import StockLedger.Proofs.Sweep.Notices
import StockLedger.Proofs.Sweep.Reclaim
import StockLedger.Proofs.Sweep.Starvation
import StockLedger.Proofs.Sweep.Summary
import StockLedger.Proofs.Sweep.Turns
import StockLedger.Proofs.Text.Bytes
import StockLedger.Proofs.Text.Decimal
import StockLedger.Proofs.Text.Glob
import StockLedger.Proofs.Time.Calendar
import StockLedger.Proofs.Time.Timestamp
import StockLedger.Proofs.Wire.Item
import StockLedger.Proofs.Wire.Leaf
import StockLedger.Proofs.Wire.Messages
import StockLedger.Proofs.Wire.Reservation
import StockLedger.Proofs.Wire.Signed
import StockLedger.Proofs.Wire.Storage
import StockLedger.ReadThrough.Keys
import StockLedger.ReadThrough.Ledger
import StockLedger.Rehearsal.Journal
import StockLedger.Rehearsal.Stage
import StockLedger.Rehearsal.Sweeps
import StockLedger.Service.Basic
import StockLedger.Service.Claim
import StockLedger.Service.Stock
import StockLedger.Settings.Basic
import StockLedger.Settings.LogFormat
import StockLedger.Settings.Number
import StockLedger.Stock.Item
import StockLedger.Stock.Release
import StockLedger.Stock.Reservation
import StockLedger.Stock.Words
import StockLedger.Sweep.Basic
import StockLedger.Sweep.Stats
import StockLedger.Sweep.Timer
import StockLedger.Table.Basic
import StockLedger.Text.Blank
import StockLedger.Text.Bytes
import StockLedger.Text.Case
import StockLedger.Text.Decimal
import StockLedger.Text.Glob
import StockLedger.Text.Hex
import StockLedger.Time.Calendar
import StockLedger.Time.Clock
import StockLedger.Time.Reader
import StockLedger.Time.Span
import StockLedger.Time.Timestamp
import StockLedger.Time.Written
import StockLedger.Wire.Fault
import StockLedger.Wire.Item
import StockLedger.Wire.Leaf
import StockLedger.Wire.Release
import StockLedger.Wire.Reservation
import StockLedger.Wire.Signed
