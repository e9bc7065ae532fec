import FireDash.Publications.Dirtiness
import FireDash.Publications.Schedule
import FireDash.Publications.Polling
import FireDash.Publications.PredecessorScan
import FireDash.Publications.RetentionProgress
import FireDash.Delivery.GenerationGrants
import FireDash.Delivery.Coalescing
import FireDash.Delivery.AbandonedClaims
import FireDash.Publications.Filters
import FireDash.FileLibrary.Orphans
import FireDash.FileLibrary.Quotas
import FireDash.ReportTransfer.SpoolAgreement
import FireDash.ReportTransfer.Rates
import FireDash.Tablets.Completions
import FireDash.Tablets.Assignments
import FireDash.Tablets.Leases
import FireDash.Tablets.Updates
import FireDash.OutboundMail.Verification
import FireDash.OutboundMail.DefiniteOutcomes
import FireDash.OutboundMail.SecretRotation
import FireDash.Ingestion.Lifecycle
import FireDash.Personnel.Payloads
import FireDash.ReportTransfer.Rendering
import FireDash.ReportTransfer.Cleanup
import FireDash.Publications.Hpke
import FireDash.ReferenceData.Phonebook
import FireDash.Ingestion.Imports
import FireDash.ReportTransfer.Encoding
import FireDash.Publications.DiffAgreement
import FireDash.Publications.SourcePayloads
import FireDash.Ingestion.PlanFiles
import FireDash.Publications.DocumentStorage
import FireDash.Authorization.RemovedAdministrators
import FireDash.Accounts.Throttle
