import Mathlib.Tactic.Common

/-!
# The records of the gateway

The data the tenant manager stores and hands out, with the fields of
`src/tenant/models.rs`.  Counters and times keep their machine widths: `u32` is
`UInt32`, `u64` is `UInt64`.

## Main definitions

* `Organization`, `FormationConfig`, `EnrollmentToken`, `CdcSinkConfig`, `IdpConfig`,
  `PolicyRule`, `EnrollmentAuditEntry` — the stored records.
* `MeshTier.toMeshTier`, `permissionsToMesh` — the wire form of a grant.
-/

namespace PeatGateway

/-- Byte strings. -/
abbrev Bytes : Type := List UInt8

/-- Error texts: an `anyhow::Error` is the message it displays. -/
abbrev Error : Type := String

/-! ### Organizations and formations -/

/-- Limits of one organization. -/
structure OrgQuotas where
  maxFormations : UInt32
  maxPeersPerFormation : UInt32
  maxDocumentsPerFormation : UInt32
  maxCdcSinks : UInt32
  maxEnrollmentsPerHour : UInt32
  deriving DecidableEq, Repr

/-- The quotas a new organization starts with. -/
def OrgQuotas.default : OrgQuotas where
  maxFormations := 10
  maxPeersPerFormation := 100
  maxDocumentsPerFormation := 10000
  maxCdcSinks := 5
  maxEnrollmentsPerHour := 1000

/-- A tenant. -/
structure Organization where
  orgId : String
  displayName : String
  quotas : OrgQuotas
  createdAt : UInt64
  deriving DecidableEq, Repr

/-- Who may enroll in a formation. -/
inductive EnrollmentPolicy
  /-- Any valid identity can enroll. -/
  | open
  /-- Enrollment requires a token or an identity backed by a provider. -/
  | controlled
  /-- Enrollment requires explicit approval. -/
  | strict
  deriving DecidableEq, Repr

/-- A formation of an organization.  The record does not name its organization. -/
structure FormationConfig where
  /-- User-facing identifier, unique within the organization. -/
  appId : String
  /-- Derived from the genesis. -/
  meshId : String
  enrollmentPolicy : EnrollmentPolicy
  deriving DecidableEq, Repr

/-! ### Tokens, sinks and identity -/

/-- An enrollment token. -/
structure EnrollmentToken where
  tokenId : String
  orgId : String
  appId : String
  label : String
  maxUses : Option UInt32
  uses : UInt32
  expiresAt : Option UInt64
  createdAt : UInt64
  revoked : Bool
  deriving DecidableEq, Repr

/-- Where change events are sent. -/
inductive CdcSinkType
  | nats (subjectPrefix : String)
  | kafka (topic : String)
  | webhook (url : String)
  deriving DecidableEq, Repr

/-- A configured sink. -/
structure CdcSinkConfig where
  sinkId : String
  orgId : String
  sinkType : CdcSinkType
  enabled : Bool
  createdAt : UInt64
  deriving DecidableEq, Repr

/-- An identity provider of an organization. -/
structure IdpConfig where
  idpId : String
  orgId : String
  issuerUrl : String
  clientId : String
  clientSecret : String
  enabled : Bool
  createdAt : UInt64
  deriving DecidableEq, Repr

/-- The tier an enrolled peer is given. -/
inductive MeshTier
  | authority
  | infrastructure
  | endpoint
  deriving DecidableEq, Repr

/-- A rule that maps an identity claim to a tier and permissions.  Lower priority
numbers come first. -/
structure PolicyRule where
  ruleId : String
  orgId : String
  claimKey : String
  claimValue : String
  tier : MeshTier
  permissions : UInt32
  priority : UInt32
  deriving DecidableEq, Repr

/-- The tiers of the mesh wire format. -/
inductive WireTier
  | enterprise
  | regional
  | tactical
  deriving DecidableEq, Repr

/-- The wire tier of a gateway tier. -/
def MeshTier.toMeshTier : MeshTier → WireTier
  | .authority => .enterprise
  | .infrastructure => .regional
  | .endpoint => .tactical

/-- Narrow gateway permission bits to wire permissions: the administrator bit moves
from `0x08` to `0x80`, the three lower bits stay. -/
def permissionsToMesh (perms : UInt32) : UInt8 :=
  (if perms &&& 0x01 != 0 then 0x01 else 0) ||| (if perms &&& 0x02 != 0 then 0x02 else 0) |||
    (if perms &&& 0x04 != 0 then 0x04 else 0) ||| (if perms &&& 0x08 != 0 then 0x80 else 0)

/-! ### Enrollment -/

/-- The outcome of an enrollment request. -/
inductive EnrollmentDecision
  | approved (tier : MeshTier) (permissions : UInt32)
  | denied (reason : String)
  deriving DecidableEq, Repr

/-- An entry of the enrollment log. -/
structure EnrollmentAuditEntry where
  auditId : String
  orgId : String
  appId : String
  idpId : String
  subject : String
  decision : EnrollmentDecision
  timestampMs : UInt64
  deriving DecidableEq, Repr

end PeatGateway
