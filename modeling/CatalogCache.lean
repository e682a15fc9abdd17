import CatalogCache.Catalog.Named
import CatalogCache.Main
import CatalogCache.Proofs.Contents
import CatalogCache.Proofs.Refinement
import CatalogCache.Proofs.Staleness
import CatalogCache.Proofs.Atomicity
import CatalogCache.Proofs.CodecRoundTrip
import CatalogCache.Proofs.BuiltRecords
import CatalogCache.Proofs.SiteEntries
import CatalogCache.Proofs.PlainNames
import CatalogCache.Proofs.AccountPlaces
import CatalogCache.Proofs.SaveAgreement
import CatalogCache.Proofs.CallOutcomes
import CatalogCache.Proofs.Isolation
import CatalogCache.Proofs.Roots
import CatalogCache.Proofs.CallDiscipline
import CatalogCache.Proofs.RefusedReplies
import CatalogCache.Proofs.Trees
import CatalogCache.Proofs.Repetition
import CatalogCache.Proofs.Stacks
import CatalogCache.Proofs.Ahead
import CatalogCache.Proofs.RemoteFailures
import CatalogCache.Proofs.AccountPaths
import CatalogCache.Proofs.Schemas
import CatalogCache.Proofs.Soundness
import CatalogCache.Proofs.Strictness
import CatalogCache.Proofs.Documents
import CatalogCache.Proofs.Edits
import CatalogCache.Proofs.ServerNumbers
import CatalogCache.Proofs.Diagnosis
import CatalogCache.Proofs.NormalForm
import CatalogCache.Proofs.ReplyShapes
import CatalogCache.Proofs.LifetimeSettings
import CatalogCache.Proofs.Nesting
import CatalogCache.Proofs.NullMembers
import CatalogCache.Proofs.UnnamedEntries
import CatalogCache.Proofs.Freshness
