import TaskRelay.Call.Arguments
import TaskRelay.Call.Builtin
import TaskRelay.Call.Layer
import TaskRelay.Call.Program
import TaskRelay.Double.Basic
import TaskRelay.Double.Scaled
import TaskRelay.Double.Shortest
import TaskRelay.Failure.Basic
import TaskRelay.Failure.Chain
import TaskRelay.Failure.Report
import TaskRelay.Json.Described
import TaskRelay.Json.Fault
import TaskRelay.Json.Lexeme
import TaskRelay.Json.Members
import TaskRelay.Json.Preview
import TaskRelay.Json.Printer
import TaskRelay.Json.Reader
import TaskRelay.Json.Skip
import TaskRelay.Json.Value
import TaskRelay.Log
import TaskRelay.Proofs.Relay.Front
import TaskRelay.Proofs.Relay.Identity
import TaskRelay.Proofs.Relay.Moves
import TaskRelay.Proofs.Relay.Record
import TaskRelay.Proofs.Relay.Updates
import TaskRelay.Relay.Pool
import TaskRelay.Relay.Run
import TaskRelay.Relay.Start
import TaskRelay.Relay.State
import TaskRelay.Relay.Stats
import TaskRelay.Relay.Step
import TaskRelay.Session.Basic
import TaskRelay.Session.Reached
import TaskRelay.Session.Request
import TaskRelay.Settings.Basic
import TaskRelay.Settings.Dotenv
import TaskRelay.Settings.Environment
import TaskRelay.Settings.Json
import TaskRelay.Settings.Lookup
import TaskRelay.Text.Alphanumeric
import TaskRelay.Text.Blank
import TaskRelay.Text.Digits
import TaskRelay.Text.Hidden
import TaskRelay.Text.Order
import TaskRelay.Text.Quoted
import TaskRelay.Wake.Observer
import TaskRelay.Wake.Pointer
import TaskRelay.Wake.Registry
import TaskRelay.Proofs.Relay.Handover
import TaskRelay.Proofs.Relay.Programs
import TaskRelay.Proofs.Relay.Submissions
import TaskRelay.Proofs.Relay.Queues
import TaskRelay.Proofs.Relay.Figures
import TaskRelay.Proofs.Relay.Installed
import TaskRelay.Proofs.Relay.Life
import TaskRelay.Proofs.Relay.Notification
import TaskRelay.Proofs.Relay.Completion
import TaskRelay.Proofs.Relay.Census
import TaskRelay.Proofs.Relay.Conservation
import TaskRelay.Proofs.Relay.Replies
import TaskRelay.Proofs.Relay.Closing
import TaskRelay.Proofs.Relay.Work
import TaskRelay.Proofs.Relay.Order
import TaskRelay.Proofs.Relay.Spending
import TaskRelay.Proofs.Relay.Views
import TaskRelay.Proofs.Relay.Abridged
import TaskRelay.Proofs.Relay.Decision
import TaskRelay.Proofs.Relay.Cut
import TaskRelay.Proofs.Relay.Missed
import TaskRelay.Proofs.Relay.Course
import TaskRelay.Proofs.Relay.Pools
import TaskRelay.Proofs.Relay.Dropping
import TaskRelay.Proofs.Relay.Accepted
import TaskRelay.Proofs.Relay.Traces
import TaskRelay.Proofs.Relay.Schedule
import TaskRelay.Proofs.Relay.Detour
import TaskRelay.Proofs.Relay.Phases
import TaskRelay.Proofs.Relay.Beside
import TaskRelay.Proofs.Relay.Refinement
import TaskRelay.Proofs.Wake.Usage
import TaskRelay.Proofs.Wake.CallTree
import TaskRelay.Proofs.Wake.Consistency
import TaskRelay.Proofs.Wake.Halving
import TaskRelay.Proofs.Wake.Admission
import TaskRelay.Proofs.Wake.Accounting
import TaskRelay.Proofs.Relay.Handles
import TaskRelay.Proofs.Relay.Snapshot
import TaskRelay.Proofs.Relay.Descent
import TaskRelay.Proofs.Relay.Pursuit
import TaskRelay.Proofs.Relay.Receipts
import TaskRelay.Proofs.Relay.Nested
import TaskRelay.Proofs.Json.Printed
import TaskRelay.Proofs.Relay.Coloring
import TaskRelay.Proofs.Relay.Unwinding
import TaskRelay.Proofs.Settings.Agreement
import TaskRelay.Proofs.Call.Exchanges
import TaskRelay.Proofs.Relay.Exchanges
import TaskRelay.Proofs.Failure.Causes
import TaskRelay.Proofs.Failure.Traces
import TaskRelay.Proofs.Failure.Escapes
import TaskRelay.Proofs.Call.Layers
import TaskRelay.Proofs.Json.Previews
import TaskRelay.Proofs.Settings.Members
import TaskRelay.Proofs.Settings.Variables
import TaskRelay.Proofs.Settings.Loading
import TaskRelay.Proofs.Relay.Starting
import TaskRelay.Proofs.Json.Members
import TaskRelay.Proofs.Call.Building
