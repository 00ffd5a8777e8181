import LlmWikiServe.GraphNoninterference
import LlmWikiServe.VisibilityGate
import LlmWikiServe.IndexRecovery
import LlmWikiServe.ProducerManifest
import LlmWikiServe.CacheCoherence
import LlmWikiServe.PageIsolation
import LlmWikiServe.ContextNoninterference
import LlmWikiServe.SourceBundles
import LlmWikiServe.GraphStore
import LlmWikiServe.ExactLookup
import LlmWikiServe.RankBands
import LlmWikiServe.CompoundGrammar
import LlmWikiServe.SyncFlight
import LlmWikiServe.VectorLock
import LlmWikiServe.VectorPublication
import LlmWikiServe.RecordInvariants
import LlmWikiServe.ManagedOrientation
import LlmWikiServe.Breadcrumbs
import LlmWikiServe.ChunkTexts
import LlmWikiServe.TermFrequencies
import LlmWikiServe.VectorRanking
import LlmWikiServe.Snippets
import LlmWikiServe.HybridResults
import LlmWikiServe.EdgeMerging
import LlmWikiServe.GraphPaths
import LlmWikiServe.NodeIdentity
import LlmWikiServe.RedisRoundTrip
import LlmWikiServe.SignatureCoverage
import LlmWikiServe.GuidanceBudget
import LlmWikiServe.GuidanceFilter
import LlmWikiServe.GuidanceCards
import LlmWikiServe.GuidanceValidity
import LlmWikiServe.GuidanceDiscretion
import LlmWikiServe.FrontmatterLines
import LlmWikiServe.SignatureDigests
import LlmWikiServe.ServeArguments
import LlmWikiServe.SectionNumbers
import LlmWikiServe.SectionFences
import LlmWikiServe.SectionRequests
import LlmWikiServe.ReadBudgets
import LlmWikiServe.EnglishTokens
import LlmWikiServe.CommandLines
import LlmWikiServe.Foundation.Encodings
import LlmWikiServe.Foundation.PyJson
import LlmWikiServe.Foundation.Ranking
import LlmWikiServe.McpHeaders
import LlmWikiServe.McpRequests
import LlmWikiServe.McpMirror
import LlmWikiServe.McpMeta
import LlmWikiServe.Foundation.Rewriting
import LlmWikiServe.Foundation.Groups
import LlmWikiServe.LogRedaction
import LlmWikiServe.LogRoots
import LlmWikiServe.Foundation.Chains
import LlmWikiServe.InstanceRecords
import LlmWikiServe.InstanceRegistry
import LlmWikiServe.ProcessDiscovery
import LlmWikiServe.Foundation.JsonLines
import LlmWikiServe.IoLogging
import LlmWikiServe.LogTranscripts
import LlmWikiServe.McpTools
import LlmWikiServe.McpGate
import LlmWikiServe.QueryActions
import LlmWikiServe.RedisRuns
import LlmWikiServe.RecordReading
