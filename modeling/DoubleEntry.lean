import DoubleEntry.Amount
import DoubleEntry.Bank.Account
import DoubleEntry.Bank.Basic
import DoubleEntry.Bank.Desk
import DoubleEntry.Bank.Event
import DoubleEntry.Bank.Lock
import DoubleEntry.Bank.Publication
import DoubleEntry.Bank.Query
import DoubleEntry.Bank.Work
import DoubleEntry.Command
import DoubleEntry.Currency
import DoubleEntry.Database.Address
import DoubleEntry.Database.Connect
import DoubleEntry.Database.Failure
import DoubleEntry.Database.Row
import DoubleEntry.Database.Session
import DoubleEntry.Database.Statement
import DoubleEntry.Database.Timer
import DoubleEntry.Decimal.Read
import DoubleEntry.Decimal.Shortest
import DoubleEntry.Error
import DoubleEntry.Json
import DoubleEntry.Json.Decode
import DoubleEntry.Json.Number
import DoubleEntry.Json.Parser
import DoubleEntry.Main
import DoubleEntry.Metrics
import DoubleEntry.Owner
import DoubleEntry.Page
import DoubleEntry.Proofs.Adjusting
import DoubleEntry.Proofs.AppendOnly
import DoubleEntry.Proofs.Atomicity
import DoubleEntry.Proofs.Attempt
import DoubleEntry.Proofs.Board
import DoubleEntry.Proofs.Books
import DoubleEntry.Proofs.Bystanders
import DoubleEntry.Proofs.Causes
import DoubleEntry.Proofs.Classification
import DoubleEntry.Proofs.Codecs
import DoubleEntry.Proofs.Conduct
import DoubleEntry.Proofs.Conservation
import DoubleEntry.Proofs.Counted
import DoubleEntry.Proofs.Counting
import DoubleEntry.Proofs.Dates
import DoubleEntry.Proofs.Deadlock
import DoubleEntry.Proofs.Deletion
import DoubleEntry.Proofs.Desks
import DoubleEntry.Proofs.Drafts
import DoubleEntry.Proofs.Effects
import DoubleEntry.Proofs.Ending
import DoubleEntry.Proofs.Erasure
import DoubleEntry.Proofs.Exchanges
import DoubleEntry.Proofs.Foretelling
import DoubleEntry.Proofs.Hall
import DoubleEntry.Proofs.InFlight
import DoubleEntry.Proofs.Independence
import DoubleEntry.Proofs.Interleaving
import DoubleEntry.Proofs.Journal
import DoubleEntry.Proofs.Ledger
import DoubleEntry.Proofs.Locking
import DoubleEntry.Proofs.Moves
import DoubleEntry.Proofs.Numbers
import DoubleEntry.Proofs.Paging
import DoubleEntry.Proofs.Pins
import DoubleEntry.Proofs.Presence
import DoubleEntry.Proofs.Proceeding
import DoubleEntry.Proofs.Publication
import DoubleEntry.Proofs.Ranges
import DoubleEntry.Proofs.Readers
import DoubleEntry.Proofs.Receipts
import DoubleEntry.Proofs.References
import DoubleEntry.Proofs.Repetition
import DoubleEntry.Proofs.Replay
import DoubleEntry.Proofs.Retelling
import DoubleEntry.Proofs.Retold
import DoubleEntry.Proofs.RetrySafety
import DoubleEntry.Proofs.RoundTrip
import DoubleEntry.Proofs.Rounds
import DoubleEntry.Proofs.RowLocks
import DoubleEntry.Proofs.Rows
import DoubleEntry.Proofs.Runs
import DoubleEntry.Proofs.Serializability
import DoubleEntry.Proofs.Sessions
import DoubleEntry.Proofs.Settling
import DoubleEntry.Proofs.Solvency
import DoubleEntry.Proofs.Sound
import DoubleEntry.Proofs.Statements
import DoubleEntry.Proofs.Steps
import DoubleEntry.Proofs.Timestamps
import DoubleEntry.Proofs.Timing
import DoubleEntry.Proofs.Traceless
import DoubleEntry.Proofs.Traffic
import DoubleEntry.Proofs.Turns
import DoubleEntry.Proofs.Uncontended
import DoubleEntry.Proofs.Undoing
import DoubleEntry.Proofs.Units
import DoubleEntry.Proofs.Vanishing
import DoubleEntry.Proofs.Verdicts
import DoubleEntry.Proofs.Waiting
import DoubleEntry.Records
import DoubleEntry.Records.Json
import DoubleEntry.Service.Endpoint
import DoubleEntry.Service.Exporter
import DoubleEntry.Service.Launch
import DoubleEntry.Service.Log
import DoubleEntry.Service.LogFilter
import DoubleEntry.Settings.Dotenv
import DoubleEntry.Settings.File
import DoubleEntry.Settings.Ini
import DoubleEntry.Settings.JsonFive
import DoubleEntry.Settings.Load
import DoubleEntry.Settings.Merge
import DoubleEntry.Settings.Node
import DoubleEntry.Settings.Path
import DoubleEntry.Settings.Port
import DoubleEntry.Settings.Ron
import DoubleEntry.Settings.Toml
import DoubleEntry.Settings.Yaml
import DoubleEntry.Table
import DoubleEntry.Text.Blank
import DoubleEntry.Text.Digits
import DoubleEntry.Text.Numeral
import DoubleEntry.Text.Printable
import DoubleEntry.Text.Quoted
import DoubleEntry.Text.Reader
import DoubleEntry.Timestamp
import DoubleEntry.Timestamp.Calendar
import DoubleEntry.Timestamp.Rfc3339
import DoubleEntry.Transfer.LockOrder
import DoubleEntry.Transfer.Prompt
import DoubleEntry.Transfer.Protocol
