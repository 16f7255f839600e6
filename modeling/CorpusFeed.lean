import CorpusFeed.DecimalText
import CorpusFeed.KeyedTable
import CorpusFeed.Corpus
import CorpusFeed.GenerationName
import CorpusFeed.GenerationRegistry
import CorpusFeed.SchemaIsolation
import CorpusFeed.RegistryRun
import CorpusFeed.RegistrySafety
import CorpusFeed.RegistryReachable
import CorpusFeed.RegistryRunSafe
import CorpusFeed.PackageContract
import CorpusFeed.RemoteManifest
import CorpusFeed.Planner
import CorpusFeed.PlannerSoundness
import CorpusFeed.ClientGates
import CorpusFeed.IncrementalApply
import CorpusFeed.MediaApply
import CorpusFeed.ApplyCases
import CorpusFeed.Catchup
import CorpusFeed.CatchupSound
import CorpusFeed.ClientRun
import CorpusFeed.ClientSafety
import CorpusFeed.ClientRunSafe
import CorpusFeed.CrashScript
import CorpusFeed.PackageCatalog
import CorpusFeed.PublishedRoot
import CorpusFeed.ManifestBuild
import CorpusFeed.FeedChain
import CorpusFeed.FeedServing
import CorpusFeed.PackageBuild
import CorpusFeed.ProducerCycle
import CorpusFeed.FeedInvariant
import CorpusFeed.FeedManifest
import CorpusFeed.FeedSteps
import CorpusFeed.FeedPublish
import CorpusFeed.FeedBuild
import CorpusFeed.FeedRecovery
import CorpusFeed.RebaselineSettle
import CorpusFeed.RebaselineRecovery
import CorpusFeed.PublishedVerify
import CorpusFeed.Bootstrap
import CorpusFeed.Runs
import CorpusFeed.TextLines
import CorpusFeed.CanonicalDocument
import CorpusFeed.ChunkBuilders
import CorpusFeed.DocumentProjection
import CorpusFeed.ProjectionExact
import CorpusFeed.DenseRebuild
import CorpusFeed.DenseRun
import CorpusFeed.JsonText
import CorpusFeed.TimestampText
import CorpusFeed.ReplaceSetDigest
import CorpusFeed.ArchivePlan
import CorpusFeed.FetchEngine
import CorpusFeed.BaselineBoundary
import CorpusFeed.BoundaryRun
import CorpusFeed.DeltaCursor
import CorpusFeed.DeltaCoverage
import CorpusFeed.StoredVersion
import CorpusFeed.MemberResume
import CorpusFeed.MemberOrder
import CorpusFeed.ArchiveIngest
import CorpusFeed.IngestHistory
import CorpusFeed.BoundedLine
import CorpusFeed.JsonNesting
import CorpusFeed.SiteFrames
import CorpusFeed.SiteConnection
import CorpusFeed.SitePairing
import CorpusFeed.SiteRun
import CorpusFeed.Collation
import CorpusFeed.SnapshotRead
import CorpusFeed.SnapshotReadRun
import CorpusFeed.ReadinessStamp
import CorpusFeed.ReadinessRun
import CorpusFeed.ZoneNormalization
import CorpusFeed.ZoneUnitStore
import CorpusFeed.ZoneUnitPass
import CorpusFeed.ZoneUnitKeyset
import CorpusFeed.ZoneUnitCatchup
import CorpusFeed.ZoneUnitPasses
import CorpusFeed.BootstrapRecovery
import CorpusFeed.AuthorityRerank
import CorpusFeed.CursorPages
import CorpusFeed.FanoutSearch
import CorpusFeed.FanoutPaging
import CorpusFeed.ReorderedPages
import CorpusFeed.HybridPaging
import CorpusFeed.EmbeddingText
import CorpusFeed.EmbeddingWork
import CorpusFeed.EmbeddingDrain
import CorpusFeed.BoundedSteps
import CorpusFeed.EmbeddingClient
import CorpusFeed.EmbeddingPool
import CorpusFeed.EmbeddingPoolRun
import CorpusFeed.EmbeddingPoolAccounts
import CorpusFeed.EmbeddingPoolSound
import CorpusFeed.CitationCollect
import CorpusFeed.CitationRun
import CorpusFeed.CitationExact
import CorpusFeed.CatchupBinding
import CorpusFeed.CatchupBound
import CorpusFeed.FirstDeepest
import CorpusFeed.HierarchyPath
import CorpusFeed.OrderKeys
import CorpusFeed.HierarchyStore
import CorpusFeed.HierarchyBackfill
import CorpusFeed.HierarchyChunks
import CorpusFeed.HierarchyOrder
import CorpusFeed.HierarchyOutcome
import CorpusFeed.CitationLookup
import CorpusFeed.CitationNormalized
import CorpusFeed.ArchiveFiles
import CorpusFeed.ArchiveFilesExact
import CorpusFeed.SealedEntries
import CorpusFeed.PayloadAggregate
import CorpusFeed.BufferedWriter
import CorpusFeed.JsonlWriter
import CorpusFeed.JsonlStream
import CorpusFeed.MemberBatches
import CorpusFeed.BlockedMembers
import CorpusFeed.LicenseTokens
import CorpusFeed.LicensedApply
import CorpusFeed.ParsedRecords
import CorpusFeed.TwoParagraphs
import CorpusFeed.ChunkedRecords
import CorpusFeed.ArticleCeiling
import CorpusFeed.ChunkCeiling
import CorpusFeed.DecimalOrder
import CorpusFeed.EnclosingSections
import CorpusFeed.GenerationLabels
import CorpusFeed.StackDepth
import CorpusFeed.DaemonTrace
import CorpusFeed.DaemonPasses
import CorpusFeed.DaemonBackoff
import CorpusFeed.CivilCalendar
import CorpusFeed.UnixTimestamps
import CorpusFeed.TimestampReading
import CorpusFeed.TimestampOrder
import CorpusFeed.TimestampRoundTrip
import CorpusFeed.CanonicalJson
import CorpusFeed.FieldCodec
import CorpusFeed.EmbeddedWire
import CorpusFeed.RemoteWire
import CorpusFeed.PrettyJson
import CorpusFeed.SealedDocuments
import CorpusFeed.OutboxFence
import CorpusFeed.IncrementalConverges
import CorpusFeed.OutboxWindows
import CorpusFeed.ReplicatedFeed
import CorpusFeed.CharacterData
import CorpusFeed.ClientCycle
import CorpusFeed.DaemonClient
import CorpusFeed.FileTree
import CorpusFeed.RetentionTool
import CorpusFeed.SchemaMigrations
import CorpusFeed.SplitCharacterData
import CorpusFeed.TrustKept
import CorpusFeed.ZonePaging
import CorpusFeed.WatchdogReading
import CorpusFeed.BaselineAdoption
