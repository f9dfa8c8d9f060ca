import Upkeep.Audit
import Upkeep.Console
import Upkeep.Console.Filter
import Upkeep.Copy
import Upkeep.Counter
import Upkeep.Counter.Exposition
import Upkeep.Cycle
import Upkeep.Cycle.Call
import Upkeep.Cycle.Outcome
import Upkeep.Demotion
import Upkeep.Directory
import Upkeep.Directory.Operation
import Upkeep.Endpoint
import Upkeep.Endpoint.Address
import Upkeep.Endpoint.Exchange
import Upkeep.Failure
import Upkeep.Heartbeat.FanOut
import Upkeep.Heartbeat.Loopback
import Upkeep.Heartbeat.Message
import Upkeep.Main
import Upkeep.Monitor
import Upkeep.Monitor.Session
import Upkeep.Number.Binary64
import Upkeep.Number.Shortest
import Upkeep.Process
import Upkeep.Process.Together
import Upkeep.Program
import Upkeep.Rehearsal.Calendar
import Upkeep.Rehearsal.Fault
import Upkeep.Rehearsal.Rounds
import Upkeep.Rehearsal.Script
import Upkeep.Rehearsal.Stage
import Upkeep.Rehearsal.Step
import Upkeep.Repair
import Upkeep.Report
import Upkeep.Schedule
import Upkeep.Settings
import Upkeep.Settings.Decode
import Upkeep.Settings.Source
import Upkeep.Stall
import Upkeep.Surroundings
import Upkeep.Table
import Upkeep.Text.Blank
import Upkeep.Text.Invisible
import Upkeep.Text.Quoted
import Upkeep.Toml.Assembly
import Upkeep.Toml.Document
import Upkeep.Toml.Scalar
import Upkeep.Toml.Text
import Upkeep.Toml.Value
import Upkeep.Trail
import Upkeep.World
import Upkeep.Proofs.Cycle.Availability
import Upkeep.Proofs.Cycle.Counts
import Upkeep.Proofs.Cycle.Exclusion
import Upkeep.Proofs.Cycle.Parts
import Upkeep.Proofs.Cycle.Permits
import Upkeep.Proofs.Cycle.Shadows
import Upkeep.Proofs.Cycle.Steps
import Upkeep.Proofs.Cycle.Turns
import Upkeep.Proofs.Cycle.Writes
import Upkeep.Proofs.Directory.Conduct
import Upkeep.Proofs.Directory.Knowledge
import Upkeep.Proofs.Heartbeat.Round
import Upkeep.Proofs.Process.Guarantee
import Upkeep.Proofs.Program.History
import Upkeep.Proofs.Program.Terms
import Upkeep.Proofs.Watched
import Upkeep.Proofs.Cycle.Vocabulary
import Upkeep.Proofs.Cycle.Alone
import Upkeep.Proofs.Cycle.Executions
import Upkeep.Proofs.Cycle.Isolation
import Upkeep.Proofs.Directory.Closing
import Upkeep.Proofs.Cycle.Closing
import Upkeep.Proofs.Steady.Climate
import Upkeep.Proofs.Steady.Turns
import Upkeep.Proofs.Steady.Settling
import Upkeep.Proofs.Steady.Checks
import Upkeep.Proofs.Steady.Convergence
import Upkeep.Proofs.Monitor.Surroundings
import Upkeep.Proofs.Monitor.Seeding
import Upkeep.Proofs.Monitor.ClosedForm
import Upkeep.Proofs.Directory.Deeds
import Upkeep.Proofs.Settings.Choice
import Upkeep.Proofs.Schedule.Task
import Upkeep.Proofs.Monitor.Starting
import Upkeep.Proofs.Program.Ledger
import Upkeep.Proofs.Cycle.Accounts
import Upkeep.Proofs.Cycle.Reconciliation
import Upkeep.Proofs.Schedule.Carrying
import Upkeep.Proofs.Schedule.Chronicle
import Upkeep.Proofs.Schedule.Order
import Upkeep.Proofs.Schedule.Punctuality
import Upkeep.Proofs.Program.Visits
import Upkeep.Proofs.Repair.Attempts
import Upkeep.Proofs.Stall.Peers
import Upkeep.Proofs.Stall.Rounds
import Upkeep.Proofs.Process.Timing
import Upkeep.Proofs.Heartbeat.Sheet
import Upkeep.Proofs.Heartbeat.Collection
import Upkeep.Proofs.Heartbeat.Numbering
import Upkeep.Proofs.Heartbeat.Traffic
import Upkeep.Proofs.Heartbeat.Senders
import Upkeep.Proofs.Heartbeat.Interference
import Upkeep.Proofs.Heartbeat.Results
import Upkeep.Proofs.Stall.Decision
import Upkeep.Proofs.Stall.Criterion
import Upkeep.Proofs.Monitor.Inventory
import Upkeep.Proofs.Cycle.Faults
import Upkeep.Proofs.Cycle.CleanCut
import Upkeep.Proofs.Audit.Findings
import Upkeep.Proofs.Cycle.Columns
import Upkeep.Proofs.Cycle.Manners
import Upkeep.Proofs.Cycle.Independence
import Upkeep.Proofs.Cycle.Naming
import Upkeep.Proofs.Cycle.Attribution
import Upkeep.Proofs.Audit.Unregistered
import Upkeep.Proofs.Audit.LeftMissing
import Upkeep.Proofs.Copy.Rendering
import Upkeep.Proofs.Counter.Samples
import Upkeep.Proofs.Counter.Lines
import Upkeep.Proofs.Counter.Faithful
import Upkeep.Proofs.Toml.Distinct
import Upkeep.Proofs.Settings.Reading
import Upkeep.Proofs.Settings.Document
