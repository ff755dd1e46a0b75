import DatanodeLedger.Block
import DatanodeLedger.ByteSize
import DatanodeLedger.Cache
import DatanodeLedger.CommandLine.Help
import DatanodeLedger.CommandLine.Invocation
import DatanodeLedger.CommandLine.Options
import DatanodeLedger.CommandLine.Run
import DatanodeLedger.Decommission
import DatanodeLedger.Document.Basic
import DatanodeLedger.Document.Json.Numeral
import DatanodeLedger.Document.Json.Parser
import DatanodeLedger.Document.Json.Printer
import DatanodeLedger.Document.Json.Reader
import DatanodeLedger.Document.Json.Token
import DatanodeLedger.Document.Toml.Parser
import DatanodeLedger.Document.Toml.Scalar
import DatanodeLedger.Document.Toml.Text
import DatanodeLedger.Document.Toml.Tree
import DatanodeLedger.Duration
import DatanodeLedger.Error
import DatanodeLedger.Ledger.Basic
import DatanodeLedger.Ledger.Cursor
import DatanodeLedger.Ledger.Membership
import DatanodeLedger.Ledger.Snapshot
import DatanodeLedger.Limits
import DatanodeLedger.Main
import DatanodeLedger.Metrics
import DatanodeLedger.Node
import DatanodeLedger.Number.Double
import DatanodeLedger.Number.Layout
import DatanodeLedger.Number.Rounding
import DatanodeLedger.Number.Shortest
import DatanodeLedger.Proofs.Slab.Clear
import DatanodeLedger.Proofs.Slab.Layout
import DatanodeLedger.Proofs.Slab.Plain
import DatanodeLedger.Proofs.Slab.Push
import DatanodeLedger.Proofs.Slab.Refinement
import DatanodeLedger.Proofs.Slab.Segment
import DatanodeLedger.Proofs.Slab.Shown
import DatanodeLedger.Proofs.Slab.Unlink
import DatanodeLedger.Proofs.Slab.Walk
import DatanodeLedger.Random
import DatanodeLedger.Ref
import DatanodeLedger.Service.Basic
import DatanodeLedger.Service.Blocks
import DatanodeLedger.Service.Cursors
import DatanodeLedger.Service.Heartbeat
import DatanodeLedger.Service.Namespace
import DatanodeLedger.Service.Registry
import DatanodeLedger.Service.Report
import DatanodeLedger.Service.Storages
import DatanodeLedger.Service.Work
import DatanodeLedger.Settings.Environment
import DatanodeLedger.Settings.Load
import DatanodeLedger.Settings.Path
import DatanodeLedger.Simulation
import DatanodeLedger.Slab
import DatanodeLedger.Storage
import DatanodeLedger.Table
import DatanodeLedger.Text.Blank
import DatanodeLedger.Text.Digits
import DatanodeLedger.Text.Quoted
import DatanodeLedger.Text.Showable
import DatanodeLedger.Timestamp
import DatanodeLedger.Uuid
import DatanodeLedger.Word
import DatanodeLedger.Work.Invalidation
import DatanodeLedger.Work.Queue
import DatanodeLedger.Proofs.Membership.Coherent
import DatanodeLedger.Proofs.Membership.Attach
import DatanodeLedger.Proofs.Membership.Emptying
import DatanodeLedger.Proofs.Registry.Beats
import DatanodeLedger.Proofs.Registry.Enrolled
import DatanodeLedger.Proofs.Registry.Gauges
import DatanodeLedger.Proofs.Registry.Liveness
import DatanodeLedger.Proofs.Registry.Outcomes
import DatanodeLedger.Proofs.Registry.Steady
import DatanodeLedger.Proofs.Request.Exec
import DatanodeLedger.Proofs.Membership.Quiet
import DatanodeLedger.Proofs.Membership.Making
import DatanodeLedger.Proofs.Membership.Requests
import DatanodeLedger.Proofs.Membership.Outcomes
import DatanodeLedger.Proofs.Membership.Thinning
import DatanodeLedger.Proofs.Run.Step
import DatanodeLedger.Proofs.Membership.Mirror
import DatanodeLedger.Proofs.Membership.Adding
import DatanodeLedger.Proofs.Membership.OnePerNode
import DatanodeLedger.Proofs.Request.Frame
import DatanodeLedger.Proofs.Run.Orderly
import DatanodeLedger.Proofs.Request.Guards
import DatanodeLedger.Proofs.Membership.Walking
import DatanodeLedger.Proofs.Membership.Admission
import DatanodeLedger.Proofs.Membership.Isolation
import DatanodeLedger.Proofs.Work.Dispatch
import DatanodeLedger.Proofs.Work.Conservation
import DatanodeLedger.Proofs.Membership.Calls
import DatanodeLedger.Proofs.Membership.Map
import DatanodeLedger.Proofs.Registry.Removal
import DatanodeLedger.Proofs.Registry.Housed
import DatanodeLedger.Proofs.Registry.Operations
import DatanodeLedger.Proofs.Registry.Renaming
import DatanodeLedger.Proofs.Registry.Lockstep
import DatanodeLedger.Proofs.Registry.Independence
import DatanodeLedger.Proofs.Registry.Commuting
import DatanodeLedger.Proofs.Run.Grounded
import DatanodeLedger.Proofs.Cache.Pipeline
import DatanodeLedger.Proofs.Registry.Expiry
import DatanodeLedger.Proofs.Registry.Standing
import DatanodeLedger.Proofs.Work.Invalidation
import DatanodeLedger.Proofs.Work.Schedule
import DatanodeLedger.Proofs.Work.Notices
import DatanodeLedger.Proofs.Heartbeat.Figures
import DatanodeLedger.Proofs.Heartbeat.Volumes
import DatanodeLedger.Proofs.Heartbeat.Counters
import DatanodeLedger.Proofs.Decommission.Phases
import DatanodeLedger.Proofs.Slab.Stepping
import DatanodeLedger.Proofs.Slab.Slots
import DatanodeLedger.Proofs.Slab.Accounting
import DatanodeLedger.Proofs.Membership.Exchange
import DatanodeLedger.Proofs.Membership.Arrivals
import DatanodeLedger.Proofs.Cursor.Iteration
import DatanodeLedger.Proofs.Cursor.Mutation
import DatanodeLedger.Proofs.Cursor.Complete
import DatanodeLedger.Proofs.Cursor.Shrinking
import DatanodeLedger.Proofs.Work.Accounts
import DatanodeLedger.Proofs.Work.Recoveries
import DatanodeLedger.Proofs.Registry.Refusals
import DatanodeLedger.Proofs.Registry.Announcing
import DatanodeLedger.Proofs.Registry.Readmission
import DatanodeLedger.Proofs.Text.Numeral
import DatanodeLedger.Proofs.Duration.Grammar
import DatanodeLedger.Proofs.Decommission.Gate
import DatanodeLedger.Proofs.Registry.Tidings
