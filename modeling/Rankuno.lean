import Rankuno.Api.DetachedRuns
import Rankuno.Api.Idempotency
import Rankuno.Api.LocalSignin
import Rankuno.Api.OperatorAuth
import Rankuno.Api.PasswordLockout
import Rankuno.Api.Slots
import Rankuno.Dashboard.Audit
import Rankuno.Dashboard.CategoryCsv
import Rankuno.Dashboard.CrawlStore
import Rankuno.Dashboard.Flatten
import Rankuno.Dashboard.Overlay
import Rankuno.Deliverables.InternalMap
import Rankuno.Deliverables.Rulebook
import Rankuno.Deliverables.RulebookStore
import Rankuno.Governance.GovernedRuns
import Rankuno.HttpFetcher.CrawlDelay
import Rankuno.HttpFetcher.Hops
import Rankuno.HttpFetcher.RobotsVerdicts
import Rankuno.JobStore.CrashConsistency
import Rankuno.JobStore.FallbackRecovery
import Rankuno.LlmClient.Spend
import Rankuno.MemoryBudget.Accounting
import Rankuno.MemoryBudget.Victim
import Rankuno.NavMenu.MenuScope
import Rankuno.NavMenu.Promotion
import Rankuno.OrgConfigs.CredentialCrypto
import Rankuno.OrgConfigs.GscAccounts
import Rankuno.PageClassifier.Cascade
import Rankuno.PageClassifier.EarlyTypes
import Rankuno.PageClassifier.Ga4Enrichment
import Rankuno.PageClassifier.GscEnrichment
import Rankuno.PageClassifier.JobBundle
import Rankuno.PageClassifier.NavLinks
import Rankuno.PageClassifier.TreeVisualizer
import Rankuno.Performance.Conservation
import Rankuno.Performance.GscExport
import Rankuno.Performance.OpportunityScorer
import Rankuno.Performance.PagedFetch
import Rankuno.Performance.ResolutionOrder
import Rankuno.Placement.CoverageCounts
import Rankuno.PostgresJobs.Agreement
import Rankuno.PostgresJobs.Imports
import Rankuno.PostgresJobs.Outages
import Rankuno.ProcessSupervisor.Launch
import Rankuno.ProcessSupervisor.Orphans
import Rankuno.RateLimiter.RateBound
import Rankuno.RateLimiter.RedisBucket
import Rankuno.Resilience.GscTokenManager
import Rankuno.ScreamingFrog.ApprovedList
import Rankuno.ScreamingFrog.LicenceCheck
import Rankuno.ScreamingFrog.PastedUrls
import Rankuno.ScreamingFrog.PreviewTokens
import Rankuno.ScreamingFrog.ProgressParser
import Rankuno.SiteCrawl.BoundedGather
import Rankuno.SiteCrawl.ContentInlinks
import Rankuno.SiteCrawl.GapAccounting
import Rankuno.SiteCrawl.LinkHeader
import Rankuno.SiteCrawl.Sitemaps
import Rankuno.UrlFilter.Wildcards
import Rankuno.UrlKeys.Idempotence
import Rankuno.UrlSafety.Reachability
import Rankuno.Worker.BundleCrypto
import Rankuno.Worker.DaemonLoop
import Rankuno.WorkerDispatch.ActiveCap
import Rankuno.WorkerDispatch.Lifecycle
import Rankuno.WorkerDispatch.RowCoherence
