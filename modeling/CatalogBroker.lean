import CatalogBroker.Library.Text
import CatalogBroker.Catalog.Model
import CatalogBroker.Library.Descriptions
import CatalogBroker.Library.Listing
import CatalogBroker.Store.Terms
import CatalogBroker.Store.Vocabulary
import CatalogBroker.Library.ResourceTree
import CatalogBroker.Store.Write
import CatalogBroker.Store.WrittenResources
import CatalogBroker.Store.Emission
import CatalogBroker.Store.Read
import CatalogBroker.Store.Snapshot
import CatalogBroker.Store.RoundTrip
import CatalogBroker.Library.Refinement
import CatalogBroker.Store.Cache
import CatalogBroker.Store.CacheRefinement
import CatalogBroker.Store.Visibility
import CatalogBroker.Store.Noninterference
import CatalogBroker.Broker.ServedCatalogs
import CatalogBroker.Library.Transitions
import CatalogBroker.Store.AllowListCache
import CatalogBroker.Store.PolicyFilteredQuery
import CatalogBroker.Store.WriteBrackets
import CatalogBroker.Broker.PolicyFilter
import CatalogBroker.Broker.UnmappablePolicies
import CatalogBroker.Json.Value
import CatalogBroker.Broker.AllowListKey
import CatalogBroker.Broker.TermSpelling
import CatalogBroker.Crawler.JsonLd
import CatalogBroker.Crawler.PolicyParser
import CatalogBroker.Crawler.KeptEntries
import CatalogBroker.Broker.UnreadPolicies
import CatalogBroker.Crawler.Collect
import CatalogBroker.Crawler.StorableCatalogs
import CatalogBroker.Broker.ServedPolicies
import CatalogBroker.Crawler.KeySpelling
import CatalogBroker.Engine.Evaluate
import CatalogBroker.Engine.FlattenedRules
import CatalogBroker.Store.FullScan
import CatalogBroker.Store.ResumedBuilds
import CatalogBroker.Crawler.CrawlCycle
import CatalogBroker.Crawler.Harvester
import CatalogBroker.Library.Base64Url
import CatalogBroker.Dcp.Jws
import CatalogBroker.Dcp.Holder
import CatalogBroker.Dcp.AnsweredProviders
import CatalogBroker.Dcp.IssuedPresentations
import CatalogBroker.Library.Grouping
import CatalogBroker.Config.Settings
import CatalogBroker.Config.Graph
import CatalogBroker.Config.Reading
import CatalogBroker.Config.AccountedTriples
import CatalogBroker.Config.ReadingOrder
import CatalogBroker.Config.CredentialEndpoints
import CatalogBroker.Broker.ConstraintImages
import CatalogBroker.Dcp.IssuedTokens
import CatalogBroker.Engine.LostClaims
import CatalogBroker.Store.CacheEviction
import CatalogBroker.Store.FreshAllowLists
import CatalogBroker.Store.ResourceOwners
import CatalogBroker.Broker.ServedOffers
import CatalogBroker.Crawler.CrawlPool
import CatalogBroker.Crawler.Scheduler
import CatalogBroker.Crawler.Http
import CatalogBroker.Crawler.CatalogRequest
import CatalogBroker.Crawler.CredentialFlow
import CatalogBroker.Broker.OAuth2
import CatalogBroker.Broker.SparqlEndpoint
import CatalogBroker.Broker.AbandonedEvaluations
import CatalogBroker.Broker.CatalogRoutes
import CatalogBroker.Broker.ServedCrawls
import CatalogBroker.Dcp.DidWeb
import CatalogBroker.Broker.HolderRoutes
import CatalogBroker.Broker.Lifecycle
import CatalogBroker.Broker.Shutdown
import CatalogBroker.Broker.Readiness
