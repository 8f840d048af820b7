import JobPlatform.Store.Fencing
import JobPlatform.Runtime.Recovery
import JobPlatform.Runtime.Completion
import JobPlatform.Runtime.Requests
import JobPlatform.Runtime.Starvation
import JobPlatform.Runtime.Redelivery
import JobPlatform.Runtime.Heartbeat
import JobPlatform.Runtime.Correlation
import JobPlatform.Runtime.Containment
import JobPlatform.Runtime.Release
import JobPlatform.Runtime.Batch
import JobPlatform.Migrations.Upgrade
import JobPlatform.Runtime.Drain
import JobPlatform.Foundation.Identities
import JobPlatform.Deployment.Escalation
import JobPlatform.Runtime.LiveClaim
import JobPlatform.Runtime.DeadLetters
import JobPlatform.Runtime.CrashRecovery
import JobPlatform.Runtime.ArtifactPaths
import JobPlatform.Runtime.Endpoints
import JobPlatform.Runtime.Counters
import JobPlatform.Runtime.LabelGrowth
import JobPlatform.Runtime.OutboxRuns
import JobPlatform.Runtime.Restart
import JobPlatform.Store.JobSessions
import JobPlatform.Store.JsonFuel
import JobPlatform.Runtime.Wire
import JobPlatform.Runtime.Fleet
import JobPlatform.Deployment.Workloads
import JobPlatform.Runtime.ReportFiles
import JobPlatform.Runtime.ClientViews
import JobPlatform.Runtime.LogLines
import JobPlatform.Runtime.TimedCode
