import Aggregation.Aggregator
import Aggregation.Bag
import Aggregation.Clock.Calendar
import Aggregation.Clock.Reader
import Aggregation.Clock.Timestamp
import Aggregation.Config
import Aggregation.Config.Assembly
import Aggregation.Config.Example
import Aggregation.Config.Format
import Aggregation.Config.Toml
import Aggregation.Config.Yaml
import Aggregation.Coordinator.Admission
import Aggregation.Coordinator.Conclusion
import Aggregation.Coordinator.Delivery
import Aggregation.Coordinator.Event
import Aggregation.Coordinator.Forcing
import Aggregation.Coordinator.Notes
import Aggregation.Coordinator.State
import Aggregation.DeadLetter
import Aggregation.Decimal.Layout
import Aggregation.Decimal.Reading
import Aggregation.Decimal.Shortest
import Aggregation.FanOut
import Aggregation.Fault
import Aggregation.Group
import Aggregation.Json.Numeral
import Aggregation.Json.Reader
import Aggregation.Json.Tree
import Aggregation.Json.Writer
import Aggregation.Log.Filter
import Aggregation.Log.Layout
import Aggregation.Log.Pattern
import Aggregation.Log.Record
import Aggregation.Log.Subscriber
import Aggregation.Message
import Aggregation.Message.Reader
import Aggregation.Metrics
import Aggregation.Policy
import Aggregation.Position
import Aggregation.Proofs.Bag
import Aggregation.Proofs.Group
import Aggregation.Registry
import Aggregation.Roster
import Aggregation.Scheduler
import Aggregation.Sink
import Aggregation.Storage
import Aggregation.Text.Blank
import Aggregation.Text.Digits
import Aggregation.Text.Hidden
import Aggregation.Text.Letter
import Aggregation.Text.Order
import Aggregation.Text.Quoted
import Aggregation.Text.Split
import Aggregation.Toml.Document
import Aggregation.Toml.Number
import Aggregation.Toml.Table
import Aggregation.Toml.Text
import Aggregation.Toml.Value
import Aggregation.Value
import Aggregation.Value.Reader
import Aggregation.Yaml.Cursor
import Aggregation.Yaml.Node
import Aggregation.Yaml.Scalar
import Aggregation.Yaml.Scanner
import Aggregation.Yaml.Token
import Aggregation.Proofs.Roster
import Aggregation.Proofs.Coordinator.Change
import Aggregation.Proofs.Coordinator.Sound
import Aggregation.Proofs.Coordinator.Operations
import Aggregation.Proofs.Coordinator.Run
import Aggregation.Proofs.Coordinator.Conservation
import Aggregation.Proofs.Coordinator.Timers
import Aggregation.Proofs.Coordinator.Completion
import Aggregation.Proofs.Coordinator.Settling
import Aggregation.Proofs.Coordinator.Strand
import Aggregation.Proofs.Coordinator.Independence
import Aggregation.Proofs.Metrics
import Aggregation.Proofs.Coordinator.Stroke
import Aggregation.Proofs.Coordinator.Triggers
import Aggregation.Proofs.Text.Blank
import Aggregation.Proofs.Text.Digits
import Aggregation.Proofs.Position
import Aggregation.Proofs.FanOut
import Aggregation.Proofs.Coordinator.Reassembly
import Aggregation.Proofs.Coordinator.Accounting
import Aggregation.Proofs.Coordinator.Backpressure
import Aggregation.Proofs.Ledger
import Aggregation.Proofs.Precedence
import Aggregation.Proofs.Offers
import Aggregation.Proofs.Calls
import Aggregation.Proofs.SeparateCalls
import Aggregation.Proofs.Coordinator.Custody
import Aggregation.Proofs.Coordinator.Handles
import Aggregation.Proofs.Coordinator.Refusals
import Aggregation.Proofs.FiringOrder
import Aggregation.Proofs.Coordinator.Retirement
import Aggregation.Proofs.Coordinator.Callers
import Aggregation.Proofs.Coordinator.Opening
import Aggregation.Proofs.Coordinator.Forcing
import Aggregation.Proofs.Coordinator.Admissions
import Aggregation.Proofs.Scopes
import Aggregation.Proofs.Lineage
import Aggregation.Proofs.Json.Quotation
import Aggregation.Proofs.Json.Spelling
import Aggregation.Proofs.Value.ReadBack
import Aggregation.Proofs.Clock.Calendar
import Aggregation.Proofs.Clock.Timestamp
import Aggregation.Proofs.Message.ReadBack
import Aggregation.Proofs.Json.Printable
import Aggregation.Proofs.Text.Lines
import Aggregation.Proofs.Storage
import Aggregation.Proofs.DeadLetters
import Aggregation.Proofs.Coordinator.Stopping
import Aggregation.Proofs.Value.Equality
import Aggregation.Proofs.Registrations
import Aggregation.Proofs.Message.Properties
