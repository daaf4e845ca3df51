import JobScheduler.Claiming.Capacity
import JobScheduler.Claiming.Exclusivity
import JobScheduler.Execution.Locking
import JobScheduler.Execution.Success
import JobScheduler.Execution.Stranding
import JobScheduler.Workflow.Release
import JobScheduler.Batch.Cancel
import JobScheduler.Batch.Rerun
import JobScheduler.DeadLetter.Rows
import JobScheduler.DeadLetter.Revival
import JobScheduler.Routes.Projects
import JobScheduler.System.Operations
import JobScheduler.DeadLetter.Mirror
import JobScheduler.Submission.Rows
import JobScheduler.Submission.Atomicity
import JobScheduler.Submission.Idempotency
import JobScheduler.Execution.Attempts
import JobScheduler.Claiming.Limit
import JobScheduler.Library.Succession
import JobScheduler.Scheduling.Schedules
import JobScheduler.Scheduling.Order
import JobScheduler.Scheduling.Dispatch
import JobScheduler.Scheduling.Exclusion
import JobScheduler.Scheduling.CatchUp
import JobScheduler.Scheduling.Template
import JobScheduler.Workflow.Recorded
import JobScheduler.Routes.Accounts
import JobScheduler.System.Service
import JobScheduler.Tenancy.References
import JobScheduler.Tenancy.Runs
import JobScheduler.Library.Graph
import JobScheduler.Workflow.Dag
import JobScheduler.Tenancy.Ownership
import JobScheduler.Tenancy.Entities
import JobScheduler.Tenancy.Writes
import JobScheduler.Tenancy.Roles
import JobScheduler.Library.Query
import JobScheduler.Routes.Reads
import JobScheduler.Tenancy.Isolation
import JobScheduler.Library.LockOrder
import JobScheduler.Claiming.Deadlock
import JobScheduler.Engine.Worker
import JobScheduler.System.Fleet
import JobScheduler.Execution.Shutdown
import JobScheduler.Realtime.Publishing
import JobScheduler.Realtime.WebSocketHub
import JobScheduler.Realtime.Deployment
import JobScheduler.Realtime.Delivery
import JobScheduler.Routes.Events
import JobScheduler.Realtime.Disclosure
import JobScheduler.Queues.Shards
import JobScheduler.Library.Chronicle
import JobScheduler.Execution.History
import JobScheduler.Claiming.Selection
import JobScheduler.Library.Zod
import JobScheduler.Schema.Requests
import JobScheduler.Submission.Inheritance
import JobScheduler.Submission.Budget
import JobScheduler.Submission.Dependencies
import JobScheduler.Engine.LockTable
import JobScheduler.Execution.Slots
import JobScheduler.Queues.Update
import JobScheduler.Library.Quota
import JobScheduler.Routes.RateLimit
import JobScheduler.Throttling.PerRoute
import JobScheduler.Library.Double
import JobScheduler.Library.Backoff
import JobScheduler.Library.Framing
import JobScheduler.Routes.Pagination
import JobScheduler.Submission.Ranges
import JobScheduler.Engine.Backoff
import JobScheduler.Realtime.Encoding
import JobScheduler.Engine.Limiter
import JobScheduler.Migrations.Runner
import JobScheduler.Migrations.ExactlyOnce
import JobScheduler.Routes.ProjectList
import JobScheduler.Tenancy.Seeding
import JobScheduler.System.Progress
import JobScheduler.Execution.Lifecycle
import JobScheduler.Execution.Orphans
import JobScheduler.Monitoring.Detection
import JobScheduler.Monitoring.Occupancy
import JobScheduler.Tenancy.Authentication
import JobScheduler.Throttling.Bursts
import JobScheduler.Tenancy.Mediation
import JobScheduler.Claiming.Draining
import JobScheduler.Execution.Results
import JobScheduler.Library.Outbox
import JobScheduler.Realtime.Feed
