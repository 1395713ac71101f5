import ArubaCertRenewer.Window
import ArubaCertRenewer.Cleanup
import ArubaCertRenewer.CreateCommand
import ArubaCertRenewer.ClientArguments
import ArubaCertRenewer.VulnerabilityGate
import ArubaCertRenewer.PacketGuard
import ArubaCertRenewer.ChannelBudget
import ArubaCertRenewer.ReleaseAliases
import ArubaCertRenewer.ArchivePreflight
import ArubaCertRenewer.Aggregation
import ArubaCertRenewer.LockPaths
import ArubaCertRenewer.CanonicalIdentity
import ArubaCertRenewer.IssuedNames
import ArubaCertRenewer.LiveDeadline
import ArubaCertRenewer.LineReading
import ArubaCertRenewer.AnsiExpansion
import ArubaCertRenewer.RenewalNames
import ArubaCertRenewer.SecretFiles
import ArubaCertRenewer.BaseUrl
import ArubaCertRenewer.RequestSize
import ArubaCertRenewer.CiPolicy
import ArubaCertRenewer.PaxRecords
import ArubaCertRenewer.StreamBounds
import ArubaCertRenewer.ReportOrder
import ArubaCertRenewer.UpgradeScopes
import ArubaCertRenewer.SignatureStatus
import ArubaCertRenewer.ArchiveSafety
import ArubaCertRenewer.RenewDueRuns
import ArubaCertRenewer.PendingReports
import ArubaCertRenewer.MutualExclusion
import ArubaCertRenewer.OutputModes
import ArubaCertRenewer.Provenance
import ArubaCertRenewer.JsonRoundTrip
import ArubaCertRenewer.Mirror
import ArubaCertRenewer.PasswordSecrecy
import ArubaCertRenewer.RunReport
