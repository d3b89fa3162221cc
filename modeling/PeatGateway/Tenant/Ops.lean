import PeatGateway.Storage.Redb
import PeatGateway.Cli.Migrate
import PeatGateway.Tenant.Manager

/-!
# The operations of the tenant manager as data

Every public operation with its arguments, so that a run is a list of operations, and
the stores that runs lead to.

## Main definitions

* `ManagerOp`, `ManagerOp.prog` — an operation and the program it runs.
* `ManagerOp.orgId` — the organization an operation is addressed to.
* `Outcome` — what operations return.
* `IsProgram`, `Reachable` — what runs over a store, and the redb stores that such
  programs, interleaved in any way, lead to.
-/

namespace PeatGateway

open Effect TenantManager

/-- A public operation of `TenantManager`, with its arguments, its clock reading and its
draws. -/
inductive ManagerOp
  | createOrg (now : UInt64) (orgId displayName : String)
  | getOrg (orgId : String)
  | listOrgs
  | updateOrg (orgId : String) (displayName : Option String) (quotas : Option OrgQuotas)
  | deleteOrg (orgId : String)
  | createFormation (draw : FormationDraw) (orgId appId : String) (policy : EnrollmentPolicy)
  | getFormation (orgId appId : String)
  | listFormations (orgId : String)
  | deleteFormation (orgId appId : String)
  | loadGenesis (w : Bytes) (orgId appId : String)
  | countRecentEnrollments (orgId : String) (sinceMs : UInt64)
  | createToken (draw : Vector UInt8 16) (now : UInt64) (orgId appId label : String)
      (maxUses : Option UInt32) (expiresAt : Option UInt64)
  | getToken (orgId tokenId : String)
  | listTokens (orgId appId : String)
  | revokeToken (orgId tokenId : String)
  | deleteToken (orgId tokenId : String)
  | validateAndConsumeToken (now : UInt64) (orgId appId tokenId : String)
  | createSink (draw : Vector UInt8 8) (now : UInt64) (orgId : String) (sinkType : CdcSinkType)
  | getSink (orgId sinkId : String)
  | listSinks (orgId : String)
  | toggleSink (orgId sinkId : String) (enabled : Bool)
  | deleteSink (orgId sinkId : String)
  | getCursor (orgId appId documentId : String)
  | setCursor (orgId appId documentId changeHash : String)
  | createIdp (draw : Vector UInt8 8) (now : UInt64)
      (orgId issuerUrl clientId clientSecret : String)
  | getIdp (orgId idpId : String)
  | listIdps (orgId : String)
  | toggleIdp (orgId idpId : String) (enabled : Bool)
  | deleteIdp (orgId idpId : String)
  | createPolicyRule (draw : Vector UInt8 8) (orgId claimKey claimValue : String)
      (tier : MeshTier) (permissions priority : UInt32)
  | listPolicyRules (orgId : String)
  | deletePolicyRule (orgId ruleId : String)
  | appendAudit (entry : EnrollmentAuditEntry)
  | listAudit (orgId : String) (appId : Option String) (limit : UInt64)

/-- What an operation returns. -/
inductive Outcome (G : Type)
  | unit
  | org (org : Organization)
  | orgs (orgs : List Organization)
  | formation (formation : FormationConfig)
  | formations (formations : List FormationConfig)
  | genesis (genesis : G)
  | count (n : ℕ)
  | token (token : EnrollmentToken)
  | tokens (tokens : List EnrollmentToken)
  | sink (sink : CdcSinkConfig)
  | sinks (sinks : List CdcSinkConfig)
  | cursor (changeHash : Option String)
  | idp (idp : IdpConfig)
  | idps (idps : List IdpConfig)
  | rule (rule : PolicyRule)
  | rules (rules : List PolicyRule)
  | audit (entries : List EnrollmentAuditEntry)
  | counters (n : Counters)
  deriving DecidableEq

/-- The organization an operation is addressed to; listing all organizations is addressed
to none. -/
def ManagerOp.orgId : ManagerOp → Option String
  | listOrgs => none
  | appendAudit entry => some entry.orgId
  | createOrg _ orgId _ | getOrg orgId | updateOrg orgId _ _ | deleteOrg orgId
  | createFormation _ orgId _ _ | getFormation orgId _ | listFormations orgId
  | deleteFormation orgId _ | loadGenesis _ orgId _ | countRecentEnrollments orgId _
  | createToken _ _ orgId _ _ _ _ | getToken orgId _ | listTokens orgId _
  | revokeToken orgId _ | deleteToken orgId _ | validateAndConsumeToken _ orgId _ _
  | createSink _ _ orgId _ | getSink orgId _ | listSinks orgId | toggleSink orgId _ _
  | deleteSink orgId _ | getCursor orgId _ _ | setCursor orgId _ _ _
  | createIdp _ _ orgId _ _ _ | getIdp orgId _ | listIdps orgId | toggleIdp orgId _ _
  | deleteIdp orgId _ | createPolicyRule _ orgId _ _ _ _ _ | listPolicyRules orgId
  | deletePolicyRule orgId _ | listAudit orgId _ _ => some orgId

/-- The program an operation runs. -/
def ManagerOp.prog {G : Type} (mgr : TenantManager G) : ManagerOp → StoreProg (Outcome G)
  | createOrg now orgId name => (TenantManager.createOrg now orgId name).map .org
  | getOrg orgId => (TenantManager.getOrg orgId).map .org
  | listOrgs => TenantManager.listOrgs.map .orgs
  | updateOrg orgId name quotas => (TenantManager.updateOrg orgId name quotas).map .org
  | deleteOrg orgId => (TenantManager.deleteOrg orgId).map fun _ => .unit
  | createFormation draw orgId appId policy =>
    (mgr.createFormation draw orgId appId policy).map .formation
  | getFormation orgId appId => (TenantManager.getFormation orgId appId).map .formation
  | listFormations orgId => (TenantManager.listFormations orgId).map .formations
  | deleteFormation orgId appId => (TenantManager.deleteFormation orgId appId).map fun _ => .unit
  | loadGenesis w orgId appId => (mgr.loadGenesis w orgId appId).map .genesis
  | countRecentEnrollments orgId sinceMs =>
    (TenantManager.countRecentEnrollments orgId sinceMs).map .count
  | createToken draw now orgId appId label maxUses expiresAt =>
    (TenantManager.createToken draw now orgId appId label maxUses expiresAt).map .token
  | getToken orgId tokenId => (TenantManager.getToken orgId tokenId).map .token
  | listTokens orgId appId => (TenantManager.listTokens orgId appId).map .tokens
  | revokeToken orgId tokenId => (TenantManager.revokeToken orgId tokenId).map .token
  | deleteToken orgId tokenId => (TenantManager.deleteToken orgId tokenId).map fun _ => .unit
  | validateAndConsumeToken now orgId appId tokenId =>
    (TenantManager.validateAndConsumeToken now orgId appId tokenId).map .token
  | createSink draw now orgId sinkType =>
    (TenantManager.createSink draw now orgId sinkType).map .sink
  | getSink orgId sinkId => (TenantManager.getSink orgId sinkId).map .sink
  | listSinks orgId => (TenantManager.listSinks orgId).map .sinks
  | toggleSink orgId sinkId enabled => (TenantManager.toggleSink orgId sinkId enabled).map .sink
  | deleteSink orgId sinkId => (TenantManager.deleteSink orgId sinkId).map fun _ => .unit
  | getCursor orgId appId documentId =>
    (TenantManager.getCursor orgId appId documentId).map .cursor
  | setCursor orgId appId documentId changeHash =>
    (TenantManager.setCursor orgId appId documentId changeHash).map fun _ => .unit
  | createIdp draw now orgId issuerUrl clientId clientSecret =>
    (TenantManager.createIdp draw now orgId issuerUrl clientId clientSecret).map .idp
  | getIdp orgId idpId => (TenantManager.getIdp orgId idpId).map .idp
  | listIdps orgId => (TenantManager.listIdps orgId).map .idps
  | toggleIdp orgId idpId enabled => (TenantManager.toggleIdp orgId idpId enabled).map .idp
  | deleteIdp orgId idpId => (TenantManager.deleteIdp orgId idpId).map fun _ => .unit
  | createPolicyRule draw orgId claimKey claimValue tier permissions priority =>
    (TenantManager.createPolicyRule draw orgId claimKey claimValue tier permissions priority).map
      .rule
  | listPolicyRules orgId => (TenantManager.listPolicyRules orgId).map .rules
  | deletePolicyRule orgId ruleId =>
    (TenantManager.deletePolicyRule orgId ruleId).map fun _ => .unit
  | appendAudit entry => (TenantManager.appendAudit entry).map fun _ => .unit
  | listAudit orgId appId limit => (TenantManager.listAudit orgId appId limit).map .audit

/-- What runs over the store of a gateway: the operations of its managers, and the
migration command. -/
inductive IsProgram (G : Type) : StoreProg (Outcome G) → Prop
  | op (mgr : TenantManager G) (op : ManagerOp) : IsProgram G (op.prog mgr)
  | migrate (env : KeyEnv) (config : KeyConfig) (draws : ℕ → MigrateDraw) (dryRun : Bool) :
    IsProgram G ((migrateKeys env config draws dryRun).map .counters)

/-- Schedules whose programs return outcomes over the genesis type `G`. -/
abbrev Schedule (G : Type) : Type := List (Act Storage Error (Outcome G))

/-- Every program the schedule starts is an operation that satisfies `P`. -/
def Schedule.Starts {G : Type} (P : ManagerOp → Prop) (l : Schedule G) : Prop :=
  ∀ p, Act.start p ∈ l → ∃ (mgr : TenantManager G) (op : ManagerOp), P op ∧ p = op.prog mgr

/-- The store is reached from the empty one by programs of the gateway, their storage
transactions interleaved in any way. -/
def Reachable (G : Type) (s : Redb) : Prop :=
  ∃ l : Schedule G, (∀ p, Act.start p ∈ l → IsProgram G p) ∧
    (Pool.acts Redb.exec ⟨.empty, []⟩ l).store = s

end PeatGateway
