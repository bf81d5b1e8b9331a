import Spork.Effects.Prog
import Spork.Effects.Machine
import Spork.Effects.Footprint
import Spork.Effects.Loop
import Spork.Effects.Interleave
import Spork.Effects.Retry
import Spork.Effects.Task
import Spork.Effects.DecisionList
import Spork.Unicode
import Spork.Backtracking
import Spork.Windows
import Spork.Walks
import Spork.Toml.Tokens
import Spork.Toml.Document
import Spork.Toml.Printing
import Spork.Toml.Keys
import Spork.Paging
import Spork.Models
import Spork.TextFile
import Spork.State.Db
import Spork.Llm.Base
import Spork.Llm.Clean
import Spork.Llm.HtmlParser
import Spork.Collaborators
import Spork.World
import Spork.Evaluation
import Spork.Pipeline.Core
import Spork.Rules.Engine
import Spork.Argmax
import Spork.Classify.Keyword
import Spork.Dispatch
import Spork.Rules.Schema
import Spork.Rules.Loader
import Spork.Rules.Writer
import Spork.Json
import Spork.Config.Loader
import Spork.Receipts.Archive
import Spork.Receipts.Paths
import Spork.Pipeline.Modules
import Spork.Pipeline.Default
import Spork.Pipeline.Tier2.Modules
import Spork.Pipeline.Tier2.Default
import Spork.Pipeline.Tier2.Escalate
import Spork.Llm.Html
import Spork.Regex
import Spork.JsonReader
import Spork.JsonText
import Spork.AddrSpec
import Spork.Runtime
import Spork.Config.Schema
import Spork.Llm.LiteLLM
import Spork.Daemon.Loop
import Spork.Daemon.Shared
import Spork.Cli.Backfill
import Spork.Cli.Reclassify
import Spork.Cli.Rules
import Spork.Cli.Config
import Spork.Jmap.Client
import Spork.Jmap.Push
import Spork.Jmap.Source
import Spork.Jmap.Server
import Spork.Providers.Backfill
import Spork.Guarantees.AuditTrail
import Spork.Guarantees.Handling
import Spork.Guarantees.Idempotency
import Spork.Guarantees.Cursor
import Spork.Guarantees.Budget
import Spork.Guarantees.Containment
import Spork.Guarantees.Quarantine
import Spork.Guarantees.Overlap
import Spork.Guarantees.Tier1Table
import Spork.Guarantees.Tier2Table
import Spork.Guarantees.Alerts
import Spork.Guarantees.Pause
import Spork.Guarantees.ControlPlane
import Spork.Guarantees.Delivery
import Spork.Guarantees.FirstRun
import Spork.Guarantees.Reload
import Spork.Guarantees.Backfill
import Spork.Guarantees.Commands
import Spork.Guarantees.Contention
import Spork.Guarantees.RulesFile
import Spork.Receipts.Pdf
import Spork.Guarantees.ReceiptExtraction
import Spork.Guarantees.ReceiptPaths
import Spork.Guarantees.ReceiptPages
import Spork.Guarantees.EnforcedTier
import Spork.Guarantees.Observe
import Spork.Guarantees.Handover
import Spork.Guarantees.RuleEvaluation
import Spork.Guarantees.LoadedRules
import Spork.Guarantees.PlainBodies
import Spork.Guarantees.Markup
import Spork.Guarantees.QuotedHistory
import Spork.Guarantees.Dispatching
import Spork.Guarantees.Recipients
import Spork.Guarantees.AuditDetails
import Spork.Guarantees.Redaction
import Spork.Guarantees.ConfigShow
import Spork.Guarantees.Keywords
import Spork.Guarantees.Backoff
import Spork.Guarantees.BudgetAlerts
import Spork.Guarantees.Fetching
import Spork.Dicts
import Spork.Loading
import Spork.JsonFile
import Spork.Context.Entities
import Spork.Providers.File
import Spork.Guarantees.Entities
import Spork.Guarantees.Loaders
import Spork.Calendar
import Spork.Timestamps
import Spork.Tails
import Spork.Cli.Logs
import Spork.Guarantees.Logs
import Spork.Guarantees.ControlSocket
import Spork.Guarantees.Tracing
import Spork.Guarantees.DrainRefinement
import Spork.Verification.ControlPlaneDrainNonAtomic
import Spork.Guarantees.Corpus
import Spork.Guarantees.Secrets
import Spork.Guarantees.SecretsShown
import Spork.Guarantees.FileBackend
import Spork.Guarantees.Startup
