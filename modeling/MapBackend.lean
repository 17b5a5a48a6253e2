import MapBackend.AIAgent.OperationProtocol
import MapBackend.AIAgent.ResultServing
import MapBackend.Billing.CreditPeriods
import MapBackend.Billing.ExpiredCredits
import MapBackend.Billing.ExpirySweeps
import MapBackend.Billing.LateAnswers
import MapBackend.Billing.OutboxProtocol
import MapBackend.Billing.RefundArithmetic
import MapBackend.Billing.SettleReplay
import MapBackend.Billing.SubscriptionProtocol
import MapBackend.Billing.WebhookClaimProtocol
import MapBackend.Core.DailyBudgetProtocol
import MapBackend.Core.PublicHttp
import MapBackend.Datasources.PriceLists
import MapBackend.Marketplaces.AvitoLoadedAnswers
import MapBackend.Marketplaces.AvitoPublication
import MapBackend.Marketplaces.AvitoTreeBuild
import MapBackend.Marketplaces.FeedDeadline
import MapBackend.Marketplaces.FeedIdentity
import MapBackend.Marketplaces.FeedIntentBumps
import MapBackend.Marketplaces.FeedIntentRuns
import MapBackend.Marketplaces.FeedPollRounds
import MapBackend.Marketplaces.FeedReplays
import MapBackend.Marketplaces.OzonAutomation
import MapBackend.Marketplaces.OzonExclusion
import MapBackend.Marketplaces.OzonLockout
import MapBackend.Marketplaces.OzonNormalization
import MapBackend.Marketplaces.OzonOrderVersions
import MapBackend.Marketplaces.OzonOutcomes
import MapBackend.Marketplaces.OzonSyncedValues
import MapBackend.Marketplaces.PutReconciliation
import MapBackend.MediaProcessing.CheckpointRoundTrip
import MapBackend.MediaProcessing.MediaProtocol
import MapBackend.Notifications.ChannelProtocol
import MapBackend.Products.BulkRuns
import MapBackend.Products.EnrichmentEvidence
import MapBackend.Products.InferenceOrder
import MapBackend.Products.PageImport
import MapBackend.Products.PhotoIngestion
import MapBackend.Products.SourceFitments
import MapBackend.Tenants.SessionRotation
import MapBackend.Tenants.WebhookProtocol
import MapBackend.WebResearch.OfferRegions
import MapBackend.WebResearch.PriceReports
import MapBackend.WebResearch.QuotaProtocol
import MapBackend.WebResearch.ResearchResults
import MapBackend.WebResearch.WorkflowInvariant
