import PeatGateway.Lib.Scan
import PeatGateway.Lib.Text
import PeatGateway.Storage.Redb
import PeatGateway.Tenant.Isolation
import PeatGateway.Tenant.RateCount
import PeatGateway.Storage.Interchange
import PeatGateway.Tenant.UseLimit
import PeatGateway.Tenant.Interchange
import PeatGateway.Cli.MigrateSafe
import PeatGateway.Tenant.Genesis
import PeatGateway.Api.EnrollSound
import PeatGateway.Cdc.Cursor
import PeatGateway.Tenant.Finality
import PeatGateway.Tenant.Valid
import PeatGateway.Tenant.Deletion
import PeatGateway.Api.Audited
import PeatGateway.Api.RateLimit
import PeatGateway.Tenant.Quota
import PeatGateway.Api.TokenHistory
import PeatGateway.Tenant.Pairing
import PeatGateway.Api.RuleIds
import PeatGateway.Cdc.Collections
import PeatGateway.Mesh.Dedup
import PeatGateway.Crypto.Parser
import PeatGateway.Tenant.Atomic
import PeatGateway.Cdc.Task
import PeatGateway.Lib.Order
import PeatGateway.Storage.AuditLog
import PeatGateway.Cdc.HashInput
import PeatGateway.Cdc.Withheld
import PeatGateway.Cdc.Subjects
import PeatGateway.Mesh.Feeds
import PeatGateway.Mesh.Retry
import PeatGateway.Serde
import PeatGateway.Api.Http
import PeatGateway.Api.Auth
import PeatGateway.Api.Formations
import PeatGateway.Api.Gateway
import PeatGateway.Api.Gate
import PeatGateway.Api.Tenants
import PeatGateway.Api.Neighbours
import PeatGateway.Api.Secrets
import PeatGateway.Api.Damage
import PeatGateway.Api.Reads
import PeatGateway.Api.MeshState
import PeatGateway.Api.AuditTrail
import PeatGateway.Cdc.Apart
import PeatGateway.Crypto.Providers
