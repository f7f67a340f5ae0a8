import Gateway.Lib.Table
import Gateway.Lib.Trace
import Gateway.Lib.Rounding
import Gateway.Lib.Dict
import Gateway.Model.Plans
import Gateway.Model.Schemas
import Gateway.Model.Runtime
import Gateway.Model.World
import Gateway.Ingress.Limits
import Gateway.Metering.Model
import Gateway.Agents.Quota
import Gateway.Ingress.Host
import Gateway.Agents.Service
import Gateway.Ingress.AccessKeys
import Gateway.Ingress.Route
import Gateway.Agents.Effects
import Gateway.Agents.Scheduler
import Gateway.Agents.System
import Gateway.Agents.QuotaSafety
import Gateway.Ingress.Private
import Gateway.Lib.Pool
import Gateway.Metering.Counts
import Gateway.Metering.Shutdown
import Gateway.Agents.Accounting
import Gateway.Agents.Display
import Gateway.Lib.Orm
import Gateway.Lib.Interleave
import Gateway.Agents.DeployRace
import Gateway.Lib.Uuid
import Gateway.Billing.Model
import Gateway.Billing.Sync
import Gateway.Billing.LateCheckout
import Gateway.Billing.DoubleCheckout
import Gateway.Ingress.Hostnames
import Gateway.Ingress.Strangers
import Gateway.Agents.Environment
import Gateway.Lib.TwoRuns
import Gateway.Accounts.Model
import Gateway.Agents.Api
import Gateway.Agents.Tenants
import Gateway.Agents.Isolation
import Gateway.Agents.Masking
import Gateway.Agents.Secrets
import Gateway.Metering.Elapsed
import Gateway.Lib.Log
import Gateway.Lib.Locks
import Gateway.Accounts.Authority
import Gateway.Accounts.Api
import Gateway.Accounts.Viewers
import Gateway.Accounts.Invites
import Gateway.Agents.Orphans
import Gateway.Agents.UpdateRace
import Gateway.Agents.ConfigRace
import Gateway.Agents.Refusals
import Gateway.Agents.Transient
import Gateway.Agents.Replicas
import Gateway.Agents.Redeploy
import Gateway.Accounts.LastAdmin
import Gateway.Lib.Expiry
import Gateway.Accounts.LoginLimit
import Gateway.Agents.AutoScaling
import Gateway.Agents.TickRace
import Gateway.Ingress.Windows
import Gateway.Agents.Admission
import Gateway.Metering.Buckets
import Gateway.Lib.Follow
import Gateway.Agents.LogStream
import Gateway.Lib.Regex
import Gateway.Lib.Utf8
import Gateway.Observability
import Gateway.Accounts.Passwords
import Gateway.Lib.Renewals
import Gateway.Accounts.LoginBound
import Gateway.Lib.Constraints
import Gateway.Lib.Paging
import Gateway.Site.Steps
import Gateway.Site.Privileges
import Gateway.Site.Integrity
import Gateway.Site.Lifecycle
import Gateway.Site.Allowance
import Gateway.Site.Statements
import Gateway.Site.Frame
import Gateway.Site.Deletion
import Gateway.Site.Scheduling
import Gateway.Site.CreateRace
import Gateway.Site.Paging
