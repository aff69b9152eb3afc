import DreamStudio.Library.Dict
import DreamStudio.Library.Except
import DreamStudio.Library.Json
import DreamStudio.Library.Machine
import DreamStudio.Library.Table
import DreamStudio.WorkOrders.Status
import DreamStudio.Projections.Event
import DreamStudio.Projections.Engine
import DreamStudio.Projections.Steps
import DreamStudio.Projections.Queue
import DreamStudio.Projections.WellFormed
import DreamStudio.Projections.Delivery
import DreamStudio.Projections.DeadLetter
import DreamStudio.Projections.WorkOrder
import DreamStudio.Projections.Life
import DreamStudio.Projections.Replay
import DreamStudio.Projections.History
import DreamStudio.Projections.Agreement
import DreamStudio.Spool.Envelope
import DreamStudio.Spool.Database
import DreamStudio.Spool.Ingest
import DreamStudio.Spool.Accounting
import DreamStudio.Spool.Recording
import DreamStudio.Review.Answer
import DreamStudio.Review.Ledger
import DreamStudio.Review.Sandbox
import DreamStudio.Review.Dispatch
import DreamStudio.Review.Record
import DreamStudio.Review.Trail
import DreamStudio.Review.Credentials
import DreamStudio.Review.Findings
import DreamStudio.Review.Interleaving
import DreamStudio.Review.Holds
import DreamStudio.Library.Replica
import DreamStudio.Projections.Task
import DreamStudio.WorkOrders.Mutations
import DreamStudio.WorkOrders.Phases
import DreamStudio.WorkOrders.Columns
import DreamStudio.WorkOrders.Mirror
import DreamStudio.WorkOrders.Tasks
import DreamStudio.Library.Gate
import DreamStudio.Library.Group
import DreamStudio.WorkOrders.Verdict
import DreamStudio.WorkOrders.Criteria
import DreamStudio.WorkOrders.Gates
import DreamStudio.WorkOrders.Preview
import DreamStudio.WorkOrders.Reasons
import DreamStudio.WorkOrders.Close
import DreamStudio.WorkOrders.Waivers
import DreamStudio.WorkOrders.Calm
import DreamStudio.WorkOrders.Escalated
import DreamStudio.WorkOrders.Soundness
import DreamStudio.WorkOrders.CarryOver
import DreamStudio.WorkOrders.Splits
import DreamStudio.WorkOrders.Gaps
import DreamStudio.WorkOrders.Drain
import DreamStudio.WorkOrders.Refusals
import DreamStudio.WorkOrders.Reported
import DreamStudio.Library.Acyclic
import DreamStudio.WorkOrders.Dependencies
import DreamStudio.Library.Connection
import DreamStudio.Config.Migrations
import DreamStudio.Config.Retries
import DreamStudio.Milestones.Close
import DreamStudio.Files.Store
import DreamStudio.WorkOrders.Boundary
import DreamStudio.WorkOrders.Authored
import DreamStudio.Library.Redelivery
import DreamStudio.Projections.Milestone
import DreamStudio.Projections.Project
import DreamStudio.Projections.Redelivered
import DreamStudio.Projections.Rebuild
import DreamStudio.Projects.Activation
import DreamStudio.Projections.Cycles
import DreamStudio.Projections.Passes
import DreamStudio.Projections.Stopped
import DreamStudio.Library.Least
import DreamStudio.Hooks.Enforcement
import DreamStudio.Hooks.Native
import DreamStudio.Hooks.Parity
import DreamStudio.Mcp.Auth
import DreamStudio.Mcp.Exact
import DreamStudio.Mcp.Interleaved
import DreamStudio.Library.Script
import DreamStudio.Files.Schema
import DreamStudio.Files.Widening
import DreamStudio.Files.Rebuilt
import DreamStudio.Files.Lossless
import DreamStudio.Spool.Emission
import DreamStudio.Milestones.Creations
import DreamStudio.WorkOrders.Merge
import DreamStudio.WorkOrders.Ready
import DreamStudio.SelfInstall.Home
import DreamStudio.SelfInstall.Pointers
import DreamStudio.Library.JsonEq
import DreamStudio.Library.Traverse
import DreamStudio.Settings.Ownership
import DreamStudio.Settings.Passes
import DreamStudio.Settings.Entries
import DreamStudio.Settings.Kept
import DreamStudio.Library.Firsts
import DreamStudio.Settings.Views
import DreamStudio.Settings.Planned
import DreamStudio.Settings.Registered
import DreamStudio.Library.Regex
import DreamStudio.Boundaries.Clause
import DreamStudio.Boundaries.RoundTrip
import DreamStudio.Boundaries.Contained
import DreamStudio.Library.Scan
import DreamStudio.Hooks.WriteTargets
import DreamStudio.Emitters.Redactor
import DreamStudio.Emitters.Redacted
import DreamStudio.Hooks.Session
import DreamStudio.Hooks.Tracked
import DreamStudio.Workflow.State
import DreamStudio.Workflow.Engine
import DreamStudio.Workflow.Held
import DreamStudio.Library.Interleave
import DreamStudio.Workflow.Commands
import DreamStudio.Workflow.Serial
import DreamStudio.Workflow.Runner
import DreamStudio.Workflow.Stranded
import DreamStudio.Emitters.Tokens
import DreamStudio.Emitters.Charged
import DreamStudio.Emitters.Attribution
import DreamStudio.Emitters.Attributed
import DreamStudio.Integrations.Installer
import DreamStudio.Integrations.Manifest
import DreamStudio.Workflow.Lock
import DreamStudio.Projections.Carried
import DreamStudio.Projections.Moved
import DreamStudio.WorkOrders.Ranges
import DreamStudio.Library.Kahn
import DreamStudio.Workflow.Validate
import DreamStudio.Projects.Selectors
import DreamStudio.Spool.Lifecycle
import DreamStudio.Spool.Preserved
import DreamStudio.Hooks.Queue
import DreamStudio.Hooks.Drained
import DreamStudio.Library.Count
import DreamStudio.Gates.BlastRadius
import DreamStudio.Gates.Selection
import DreamStudio.Gates.Truncated
import DreamStudio.Gates.Widened
import DreamStudio.Library.Strip
import DreamStudio.Library.Segments
import DreamStudio.Library.JsonText
import DreamStudio.Library.Utf8
import DreamStudio.Library.Agree
import DreamStudio.Hooks.Tier
import DreamStudio.Hooks.Enqueue
import DreamStudio.Workflow.Terminating
import DreamStudio.Workflow.Cyclic
import DreamStudio.Workflow.CheckArgv
import DreamStudio.Config.Statements
import DreamStudio.WorkOrders.FanOut
import DreamStudio.WorkOrders.Admission
import DreamStudio.Boundaries.Surveyed
import DreamStudio.WorkOrders.Finished
import DreamStudio.Library.Cut
import DreamStudio.Correlation.Composer
import DreamStudio.Correlation.HandedOut
import DreamStudio.Projections.Laid
import DreamStudio.Boundaries.Amended
import DreamStudio.Gates.Linearisation
import DreamStudio.Library.Find
import DreamStudio.Integrations.ClaudeMd
import DreamStudio.Integrations.Splice
import DreamStudio.Library.Walk
import DreamStudio.Graph.Traversal
import DreamStudio.Graph.Distance
import DreamStudio.Resolver.Namespace
import DreamStudio.Resolver.Execution
import DreamStudio.Resolver.Steady
import DreamStudio.Resolver.Reading
import DreamStudio.Resolver.Executed
import DreamStudio.Conftest.Lists
import DreamStudio.Conftest.Run
import DreamStudio.Conftest.Frame
import DreamStudio.Conftest.Sound
import DreamStudio.Library.Potential
import DreamStudio.WorkOrders.Ladder
import DreamStudio.WorkOrders.Climb
import DreamStudio.Config.Retention
import DreamStudio.Library.Stopping
import DreamStudio.Hooks.EditGate
import DreamStudio.Hooks.Answered
import DreamStudio.Hooks.Twins
import DreamStudio.Library.Templates
import DreamStudio.Workflow.Conditions
import DreamStudio.Workflow.Meaning
import DreamStudio.Memory.Store
import DreamStudio.Memory.Lifecycle
import DreamStudio.Memory.Index
import DreamStudio.Memory.Ingestion
import DreamStudio.Library.Pairing
import DreamStudio.Findings.Honesty
import DreamStudio.Findings.Spine
import DreamStudio.Findings.Delta
