import NotifyHub.IdempotentIngestion
import NotifyHub.ReleaseAfterCommit
import NotifyHub.DeliveryAttempts
import NotifyHub.DeliveryRecovery
import NotifyHub.SurveillanceAlternation
import NotifyHub.RetentionPurge
import NotifyHub.LastOwner
import NotifyHub.OwnerReach
import NotifyHub.LostDisable
import NotifyHub.TokenFamilies
import NotifyHub.TenantQuota
import NotifyHub.ObjectDrains
import NotifyHub.OutboundOverrides
import NotifyHub.SeverityRules
import NotifyHub.GroupNoninterference
import NotifyHub.SessionOverwrites
import NotifyHub.RotationCount
import NotifyHub.InvitationRaces
import NotifyHub.HeartbeatMaximum
import NotifyHub.SurveillanceOff
import NotifyHub.BodyLimits
import NotifyHub.SeverityReplay
import NotifyHub.AuditTruth
import NotifyHub.AuditedHandlers
import NotifyHub.AuditMasking
import NotifyHub.ExactPages
import NotifyHub.IngestLookalike
import NotifyHub.HandlingState
import NotifyHub.OutboundFormatters
import NotifyHub.WrapperRequests
import NotifyHub.AssociationRaces
import NotifyHub.RowReplacement
import NotifyHub.RejectedCalls
import NotifyHub.RulePriorities
import NotifyHub.ContentFidelity
import NotifyHub.PolicyPatch
import NotifyHub.DeliveryRouting
import NotifyHub.PublicUrls
import NotifyHub.WebhookErrors
import NotifyHub.ClientAddress
import NotifyHub.CatalogueCopies
import NotifyHub.EscapedText
import NotifyHub.ContentSearch
import NotifyHub.UnreadCounts
import NotifyHub.AuditLocations
import NotifyHub.PurgeBatches
import NotifyHub.RetryBackoff
import NotifyHub.ReceiverSlugs
import NotifyHub.WrapperTemplate
import NotifyHub.LoginRedirect
import NotifyHub.WrapperBody
import NotifyHub.WrapperRetries
import NotifyHub.Durations
import NotifyHub.MonthCalendar
import NotifyHub.JumpSearch
import NotifyHub.CronFields
import NotifyHub.CronMatches
import NotifyHub.CronProgress
import NotifyHub.CronUtc
import NotifyHub.TenantIsolation
import NotifyHub.AuditExport
import NotifyHub.LogRotation
import NotifyHub.SessionProvider
import NotifyHub.TokenScopeLocks
import NotifyHub.PriorityMigration
import NotifyHub.RestoredKeys
