import CertOS.Master.TerminalStates
import CertOS.Master.Capacity
import CertOS.Master.Cancellation
import CertOS.Master.Review
import CertOS.Master.LostUpdate
import CertOS.Master.RequestTable
import CertOS.Master.Approved
import CertOS.Master.SqlStore
import CertOS.Master.Accounts
import CertOS.Master.Authorisation
import CertOS.Master.Attribution
import CertOS.Master.Reports
import CertOS.Master.SilentNodes
import CertOS.Master.DeadNodes
import CertOS.Master.Pass
import CertOS.Master.Allocations
import CertOS.Master.RegistryIdentity
import CertOS.Master.Mirror
import CertOS.Master.Restart
import CertOS.Master.JobOrder
import CertOS.Agent.ExitStatus
import CertOS.Agent.AtMostOnce
import CertOS.Agent.Fleet
import CertOS.Gateway.PublicRequest
import CertOS.Gateway.RequestIds
import CertOS.Gateway.UploadPath
import CertOS.Agent.Availability
import CertOS.Master.Timestamps
import CertOS.Master.Penalty
import CertOS.Master.SubmissionOrder
import CertOS.Gateway.StaticFiles
import CertOS.Master.ReviewOutcome
import CertOS.Master.UserList
import CertOS.Gateway.Tokens
import CertOS.Gateway.RequestedResources
import CertOS.Agent.Output
import CertOS.Agent.Host
import CertOS.Agent.RunningMap
import CertOS.Agent.Signals
import CertOS.Agent.ArchiveWord
import CertOS.Metrics.CpuUsage
import CertOS.Metrics.NetworkRates
import CertOS.Config.Honoured
import CertOS.Config.Loaders
import CertOS.Agent.Evidence
import CertOS.Agent.Kills
import CertOS.Agent.Lifecycle
import CertOS.Agent.Farm
import CertOS.Master.Lifetimes
import CertOS.Gateway.WebOrigins
import CertOS.Gateway.Identifiers
