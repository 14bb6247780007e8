import Memcore.Api.ProviderRequests
import Memcore.Api.Routes
import Memcore.Backup.Service
import Memcore.Backup.Sqlite
import Memcore.Context.Assembler
import Memcore.Context.Cache
import Memcore.Context.Formatter
import Memcore.Context.RedisCache
import Memcore.Domain.Facts
import Memcore.Domain.Identifiers
import Memcore.Domain.Json
import Memcore.Domain.JsonReader
import Memcore.Domain.JsonSchema
import Memcore.Engine.BuildContext
import Memcore.Engine.Candidates
import Memcore.Engine.Effects
import Memcore.Engine.Footprints
import Memcore.Engine.Import
import Memcore.Engine.Lifecycle
import Memcore.Engine.Listing
import Memcore.Engine.Memories
import Memcore.Engine.Operations
import Memcore.Engine.Ports
import Memcore.Engine.RankFusion
import Memcore.Engine.RetentionCutoffs
import Memcore.Engine.Shrinking
import Memcore.Foundations.Binary64
import Memcore.Foundations.ByteTexts
import Memcore.Foundations.Calendars
import Memcore.Foundations.Cancellations
import Memcore.Foundations.Contracts
import Memcore.Foundations.Decimals
import Memcore.Foundations.Grouping
import Memcore.Foundations.Interleaving
import Memcore.Foundations.Interruptions
import Memcore.Foundations.KeyedTables
import Memcore.Foundations.Layouts
import Memcore.Foundations.Paths
import Memcore.Foundations.Refinement
import Memcore.Foundations.Regexes
import Memcore.Foundations.Rescans
import Memcore.Foundations.Rfc3339
import Memcore.Foundations.Saturation
import Memcore.Foundations.Scanners
import Memcore.Foundations.Selections
import Memcore.Foundations.Slots
import Memcore.Foundations.SqlFilters
import Memcore.Foundations.SqlPatterns
import Memcore.Foundations.WaitingMarks
import Memcore.Guarantees.AuditLog
import Memcore.Guarantees.Backups
import Memcore.Guarantees.BatchEmbeddings
import Memcore.Guarantees.BudgetSpending
import Memcore.Guarantees.CacheHistories
import Memcore.Guarantees.CacheInvalidation
import Memcore.Guarantees.CacheKeys
import Memcore.Guarantees.CircuitLaws
import Memcore.Guarantees.CircuitRecovery
import Memcore.Guarantees.Coalescing
import Memcore.Guarantees.ContextBudget
import Memcore.Guarantees.ContextSelection
import Memcore.Guarantees.CoordinatorLeftovers
import Memcore.Guarantees.CreatedBackups
import Memcore.Guarantees.Deletion
import Memcore.Guarantees.DistinctMemories
import Memcore.Guarantees.DuplicateDetection
import Memcore.Guarantees.EmailRedaction
import Memcore.Guarantees.EventParity
import Memcore.Guarantees.ExtractedFacts
import Memcore.Guarantees.FailureKinds
import Memcore.Guarantees.FormatterLayout
import Memcore.Guarantees.GuardrailModes
import Memcore.Guarantees.ImportPrediction
import Memcore.Guarantees.JobExclusion
import Memcore.Guarantees.JobHistory
import Memcore.Guarantees.JobLocks
import Memcore.Guarantees.JsonContexts
import Memcore.Guarantees.LegacyMigrations
import Memcore.Guarantees.MigrationRuns
import Memcore.Guarantees.MutationStages
import Memcore.Guarantees.Noninterference
import Memcore.Guarantees.NormalizedContents
import Memcore.Guarantees.Pagination
import Memcore.Guarantees.PhoneNumbers
import Memcore.Guarantees.Provenance
import Memcore.Guarantees.ProviderSummaries
import Memcore.Guarantees.Quotas
import Memcore.Guarantees.RateLimits
import Memcore.Guarantees.RedactionMarks
import Memcore.Guarantees.RedactionPanics
import Memcore.Guarantees.RedisInvalidation
import Memcore.Guarantees.RepeatedRedaction
import Memcore.Guarantees.ReplaceImport
import Memcore.Guarantees.Retention
import Memcore.Guarantees.RetentionReports
import Memcore.Guarantees.RetryHints
import Memcore.Guarantees.RetryLoop
import Memcore.Guarantees.RoutingOrder
import Memcore.Guarantees.SearchParity
import Memcore.Guarantees.SearchResults
import Memcore.Guarantees.StaleContexts
import Memcore.Guarantees.StoresInStep
import Memcore.Guarantees.TenantIsolation
import Memcore.Guarantees.TidyProtocol
import Memcore.Guarantees.TimestampOrder
import Memcore.Guarantees.UsageAttribution
import Memcore.Guarantees.UsageParity
import Memcore.Guarantees.UsageTotals
import Memcore.Guarantees.VectorParity
import Memcore.Guarantees.WriteParity
import Memcore.Jobs.Retry
import Memcore.Jobs.RunHistory
import Memcore.Privacy.PhoneForms
import Memcore.Privacy.PhoneReach
import Memcore.Privacy.Pii
import Memcore.Providers.Embeddings
import Memcore.Providers.OpenAiLlm
import Memcore.Providers.UsageRecorder
import Memcore.Redaction.Passes
import Memcore.Redaction.Sanitizer
import Memcore.Stores.EventStore
import Memcore.Stores.FactMirror
import Memcore.Stores.FactStore
import Memcore.Stores.SqliteEventStore
import Memcore.Stores.SqliteFactStore
import Memcore.Stores.UsageArithmetic
import Memcore.Stores.VectorStore
import Memcore.Api.ApiKeys
import Memcore.Api.Authorization
import Memcore.Guarantees.KeyAuthority
import Memcore.Guarantees.KeyHistories
import Memcore.Guarantees.KeyRevocation
