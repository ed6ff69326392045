import Handleplan.Domain.PlannerOrder
import Handleplan.Domain.FrontierV2Canonical
import Handleplan.Db.ReviewQueue
import Handleplan.Domain.RouteOrder
import Handleplan.Web.TravelService
import Handleplan.Web.TravelServiceBounds
import Handleplan.Web.PlanServiceEnvelope
import Handleplan.Web.OfferShadowing
import Handleplan.Web.TripMarks
import Handleplan.Web.ReviewedPlanningSpec
import Handleplan.Worker.RuntimeSlots
import Handleplan.Db.OperationsRuntime
import Handleplan.Db.OfficialOfferFoundation
import Handleplan.Worker.OfficialOfferPipelineSpec
import Handleplan.Db.ReviewDecisionsSpec
import Handleplan.Db.OfferLifecycleSpec
import Handleplan.Db.WorkerLeaseSpec
import Handleplan.Domain.CoverageSpec
import Handleplan.Db.IngestionRunsSpec
import Handleplan.Db.RequestBudgetSpec
import Handleplan.Db.CatalogIngestionSpec
import Handleplan.Worker.PrivateOfferBlobStoreSpec
import Handleplan.Kassalapp.PriceSourceSpec
import Handleplan.Kassalapp.PriceConflicts
import Handleplan.Db.PublicCatalogIndexReaderSpec
import Handleplan.Domain.FrontierV2Representatives
import Handleplan.Domain.FrontierV2Travel
import Handleplan.Domain.RouteOrderOptimality
import Handleplan.Domain.FulfilmentSpec
import Handleplan.Domain.CheckoutSpec
import Handleplan.Lib.JsonText
import Handleplan.Db.EditionIdentity
import Handleplan.Db.SourceStatusReader
import Handleplan.Db.SourceStatusReaderSpec
import Handleplan.Lib.CivilTime
import Handleplan.Lib.Serial
import Handleplan.Db.AlertLedger
import Handleplan.Db.AlertLedgerSpec
import Handleplan.Db.AlertLedgerContracts
import Handleplan.Deploy.Deployment
import Handleplan.Deploy.DeploymentSpec
import Handleplan.Domain.OffersSpec
import Handleplan.Domain.CoverageTotal
import Handleplan.Domain.HistorySpec
import Handleplan.Lib.DecimalText
import Handleplan.Web.BasketQuantity
import Handleplan.Web.LocationChoiceStore
import Handleplan.Web.LocationChoiceStoreSpec
import Handleplan.Lib.JsNumber
import Handleplan.Lib.Utf8
import Handleplan.Lib.Base64Url
import Handleplan.Lib.Json
import Handleplan.Web.InFlightOperationCoalescer
import Handleplan.Lib.JsonBytes
import Handleplan.Db.FenceToken
import Handleplan.Web.DiscoveryCursor
import Handleplan.Domain.OfferIngestionSpec
import Handleplan.Db.WorkerTargetsSpec
import Handleplan.Kassalapp.CatalogOutcomesSpec
import Handleplan.Worker.RunnerSpec
import Handleplan.Worker.OfficialOfferOperationalSpec
import Handleplan.Deploy.MigrationsSpec
import Handleplan.Db.PriceIngestionSpec
import Handleplan.Domain.FamilyTaxonomy
import Handleplan.OpenPrices.NormalizerSpec
import Handleplan.Worker.OpenPricesHandlerSpec
import Handleplan.Worker.TjekHandler
import Handleplan.Worker.MenyOffersSpec
import Handleplan.Domain.OperationalAlerts
import Handleplan.Domain.OperationalAlertsSpec
import Handleplan.Deploy.StateFiles
import Handleplan.Deploy.StateFilesSpec
