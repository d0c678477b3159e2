import Madmail.Proofs.TimeWheel
import Madmail.Proofs.QuotaLimits
import Madmail.Proofs.SessionIndependence
import Madmail.Proofs.PipelinePolicy
import Madmail.Proofs.TimeWheelClose
import Madmail.Proofs.Blocklist
import Madmail.Proofs.HttpRelay
import Madmail.Proofs.PgpGate
import Madmail.Proofs.WholeEnvelope
import Madmail.Proofs.RequireTLS
import Madmail.Proofs.ConnReuse
import Madmail.Proofs.RemoteStatuses
import Madmail.Proofs.PolicyFutures
import Madmail.Proofs.PermanentFailure
import Madmail.Proofs.QueueDiskErrors
import Madmail.Proofs.QueueDuplicates
import Madmail.Proofs.QueueRefused
import Madmail.Proofs.SessionLimits
import Madmail.Proofs.DroppedRcpt
import Madmail.Proofs.LmtpReplies
import Madmail.Proofs.StatusOnce
import Madmail.Proofs.RcptIndependence
import Madmail.Proofs.StatesClosed
import Madmail.Proofs.DestPermits
import Madmail.Proofs.LimitsBalance
import Madmail.Proofs.PasswordChange
import Madmail.Proofs.PgpExemptions
import Madmail.Proofs.PoolOwners
import Madmail.Proofs.PruneRace
import Madmail.Proofs.QuotaRace
import Madmail.Proofs.QuotaRecord
import Madmail.Proofs.SaslMechanisms
import Madmail.Proofs.PayloadForms
import Madmail.Proofs.AdminGuesses
import Madmail.Proofs.ForeignUpdates
import Madmail.Proofs.MergeOrder
import Madmail.Proofs.QuotaDefault
import Madmail.Proofs.HttpTruncation
import Madmail.Proofs.BufferModes
import Madmail.Proofs.DsnErrors
import Madmail.Proofs.RetrySchedule
import Madmail.Proofs.QueuePurge
import Madmail.Proofs.FailedDeletion
import Madmail.Proofs.StoredHashes
import Madmail.Proofs.DestLimits
import Madmail.Proofs.SessionCount
import Madmail.Proofs.LmtpDownstream
import Madmail.Proofs.ForcedIPv4
import Madmail.Proofs.PolicyFailures
import Madmail.Proofs.RecentConns
import Madmail.Proofs.OverrideKeys
import Madmail.Proofs.DataSizes
import Madmail.Proofs.MacroRefs
import Madmail.Proofs.EnvRefs
import Madmail.Proofs.ImportsExpanded
import Madmail.Proofs.ValidAddrs
import Madmail.Proofs.FileReload
import Madmail.Proofs.UpdateLines
import Madmail.Proofs.AsciiChecks
import Madmail.Proofs.LexerWords
import Madmail.Proofs.SessionUsers
