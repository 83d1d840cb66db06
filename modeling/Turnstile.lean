import Turnstile.Address
import Turnstile.Backend
import Turnstile.Decimal.Binary64
import Turnstile.Decimal.Shortest
import Turnstile.Degraded.Flag
import Turnstile.Degraded.Handles
import Turnstile.Event
import Turnstile.Fault
import Turnstile.Http.Envelope
import Turnstile.Http.Identity
import Turnstile.Http.Policy
import Turnstile.Http.Request
import Turnstile.Http.Response
import Turnstile.Http.Route
import Turnstile.Http.Site
import Turnstile.Http.Uri
import Turnstile.Json.Numeral
import Turnstile.Json.Printer
import Turnstile.Json.Reader
import Turnstile.Json.Value
import Turnstile.Key
import Turnstile.Limit
import Turnstile.Limiter.Basic
import Turnstile.Limiter.Cancel
import Turnstile.Limiter.Metric
import Turnstile.Limiter.Schedule
import Turnstile.Limiter.Step
import Turnstile.Limiter.Task
import Turnstile.Memory
import Turnstile.Order
import Turnstile.Pool.Basic
import Turnstile.Pool.Settings
import Turnstile.Redis.Client
import Turnstile.Redis.Keyspace
import Turnstile.Redis.Script
import Turnstile.Redis.Server
import Turnstile.Redis.Url
import Turnstile.Session
import Turnstile.Session.Memory
import Turnstile.Session.Redis
import Turnstile.Settings
import Turnstile.Startup
import Turnstile.Table
import Turnstile.Text.Blank
import Turnstile.Text.Numeral
import Turnstile.Text.Percent
import Turnstile.Text.Quoted
import Turnstile.Text.Unprintable
import Turnstile.Verdict
import Turnstile.Window.Store
import Turnstile.Proofs.Window.Agreement
import Turnstile.Proofs.Window.Refinement
import Turnstile.Proofs.Runs.Hand
import Turnstile.Proofs.Runs.Move
import Turnstile.Proofs.Runs.Step
import Turnstile.Proofs.Runs.Invariant
import Turnstile.Proofs.Runs.Tidy
import Turnstile.Proofs.Pool.Books
import Turnstile.Proofs.Pool.Capacity
import Turnstile.Proofs.Runs.Journal
import Turnstile.Proofs.Runs.Jobs
import Turnstile.Proofs.Runs.Courses
import Turnstile.Proofs.Window.Admission
import Turnstile.Proofs.Runs.Chronology
import Turnstile.Proofs.Runs.Signals
import Turnstile.Proofs.Runs.Decisions
import Turnstile.Proofs.Window.Burst
import Turnstile.Proofs.Degraded.Outage
import Turnstile.Proofs.Text.Numeral
import Turnstile.Proofs.Redis.Agreement
import Turnstile.Proofs.Redis.Refinement
import Turnstile.Proofs.Window.Waiting
import Turnstile.Proofs.Runs.Session
import Turnstile.Proofs.Window.Once
import Turnstile.Proofs.Runs.Conclusions
import Turnstile.Proofs.Window.Rank
import Turnstile.Proofs.Http.Answers
import Turnstile.Proofs.Degraded.Recovery
import Turnstile.Proofs.Abort.View
import Turnstile.Proofs.Abort.Steps
import Turnstile.Proofs.Abort.Hidden
import Turnstile.Proofs.Runs.Totals
import Turnstile.Proofs.Abort.Likeness
import Turnstile.Proofs.Abort.Undisturbed
import Turnstile.Proofs.Http.Headers
import Turnstile.Proofs.Pool.Places
import Turnstile.Proofs.Pool.Flow
import Turnstile.Proofs.Pool.Discards
import Turnstile.Proofs.Pool.Freshness
import Turnstile.Proofs.Pool.Conservation
import Turnstile.Proofs.Pool.Shut
import Turnstile.Proofs.Pool.Closing
import Turnstile.Proofs.Address
import Turnstile.Proofs.Http.Budgets
import Turnstile.Proofs.Runs.Metrics
import Turnstile.Proofs.Runs.Announced
import Turnstile.Proofs.Runs.Accounts
import Turnstile.Proofs.Redis.Deadlines
import Turnstile.Proofs.Degraded.Transitions
import Turnstile.Proofs.Redis.Url
import Turnstile.Proofs.Runs.Store
import Turnstile.Proofs.Redis.Handshakes
import Turnstile.Proofs.Http.Charges
import Turnstile.Proofs.Text.Grammar
import Turnstile.Proofs.Settings
import Turnstile.Proofs.Http.Mounting
import Turnstile.Proofs.Startup
import Turnstile.Proofs.Http.Envelopes
import Turnstile.Proofs.Json.RoundTrip
import Turnstile.Proofs.Pool.Queue
import Turnstile.Proofs.Pool.Sweeps
import Turnstile.Proofs.Pool.Coverage
import Turnstile.Proofs.Window.Garbage
import Turnstile.Proofs.Runs.Timely
import Turnstile.Proofs.Runs.Timeouts
import Turnstile.Proofs.Pool.Acquisition
import Turnstile.Proofs.Pool.Attempts
import Turnstile.Proofs.Pool.Retries
import Turnstile.Proofs.Runs.Attendance
import Turnstile.Proofs.Window.RetryAfter
import Turnstile.Proofs.Runs.Refusals
import Turnstile.Proofs.Http.Candidates
