import PeatGateway.Lib.Codec
import PeatGateway.Models

/-!
# The records as JSON

The names and the order of the entries are those of the fields in `src/tenant/models.rs`, and
so are the names of the variants.  One entry has a default: an organization that was stored
before there was a limit on enrollments reads with the limit 1000.

## Main definitions

* `Organization.codec`, `EnrollmentToken.codec`, … — the codecs of the stored records.
* `IdpConfigResponse` — what is shown of an identity provider.
-/

namespace PeatGateway

/-! ### Organizations and formations -/

/-- `default_max_enrollments_per_hour`. -/
def defaultMaxEnrollmentsPerHour : UInt32 := 1000

/-- The quotas; the limit on enrollments may be missing. -/
def OrgQuotas.codec : Codec OrgQuotas where
  write q := .object [
    ("max_formations", Codec.uint32.write q.maxFormations),
    ("max_peers_per_formation", Codec.uint32.write q.maxPeersPerFormation),
    ("max_documents_per_formation", Codec.uint32.write q.maxDocumentsPerFormation),
    ("max_cdc_sinks", Codec.uint32.write q.maxCdcSinks),
    ("max_enrollments_per_hour", Codec.uint32.write q.maxEnrollmentsPerHour)]
  read j := do
    let m ← j.entries ["max_formations", "max_peers_per_formation",
      "max_documents_per_formation", "max_cdc_sinks", "max_enrollments_per_hour"] 1
    return {
      maxFormations := ← Codec.uint32.field "max_formations" m
      maxPeersPerFormation := ← Codec.uint32.field "max_peers_per_formation" m
      maxDocumentsPerFormation := ← Codec.uint32.field "max_documents_per_formation" m
      maxCdcSinks := ← Codec.uint32.field "max_cdc_sinks" m
      maxEnrollmentsPerHour :=
        ← (Codec.uint32.withDefault defaultMaxEnrollmentsPerHour).field
          "max_enrollments_per_hour" m }
  absent := none
  read_write q := by simp [Codec.field_cons_self, Codec.field_cons_of_ne]

/-- An organization. -/
def Organization.codec : Codec Organization where
  write o := .object [
    ("org_id", Codec.string.write o.orgId),
    ("display_name", Codec.string.write o.displayName),
    ("quotas", OrgQuotas.codec.write o.quotas),
    ("created_at", Codec.uint64.write o.createdAt)]
  read j := do
    let m ← j.entries ["org_id", "display_name", "quotas", "created_at"] 0
    return {
      orgId := ← Codec.string.field "org_id" m
      displayName := ← Codec.string.field "display_name" m
      quotas := ← OrgQuotas.codec.field "quotas" m
      createdAt := ← Codec.uint64.field "created_at" m }
  absent := none
  read_write o := by simp [Codec.field_cons_self, Codec.field_cons_of_ne]

/-- An enrollment policy, by the name of its variant. -/
def EnrollmentPolicy.codec : Codec EnrollmentPolicy where
  write
    | .open => .string "Open"
    | .controlled => .string "Controlled"
    | .strict => .string "Strict"
  read j := do
    match ← j.variant with
    | ("Open", .null) => some .open
    | ("Controlled", .null) => some .controlled
    | ("Strict", .null) => some .strict
    | _ => none
  absent := none
  read_write p := by cases p <;> rfl

/-- A formation. -/
def FormationConfig.codec : Codec FormationConfig where
  write f := .object [
    ("app_id", Codec.string.write f.appId),
    ("mesh_id", Codec.string.write f.meshId),
    ("enrollment_policy", EnrollmentPolicy.codec.write f.enrollmentPolicy)]
  read j := do
    let m ← j.entries ["app_id", "mesh_id", "enrollment_policy"] 0
    return {
      appId := ← Codec.string.field "app_id" m
      meshId := ← Codec.string.field "mesh_id" m
      enrollmentPolicy := ← EnrollmentPolicy.codec.field "enrollment_policy" m }
  absent := none
  read_write f := by simp [Codec.field_cons_self, Codec.field_cons_of_ne]

/-! ### Tokens, sinks and identity -/

/-- `Option<u32>`. -/
def optionalU32 : Codec (Option UInt32) := Codec.uint32.option Codec.uint32_ne_null

/-- `Option<u64>`. -/
def optionalU64 : Codec (Option UInt64) := Codec.uint64.option Codec.uint64_ne_null

/-- An enrollment token; a limit and an expiry that it has not are `null`. -/
def EnrollmentToken.codec : Codec EnrollmentToken where
  write t := .object [
    ("token_id", Codec.string.write t.tokenId),
    ("org_id", Codec.string.write t.orgId),
    ("app_id", Codec.string.write t.appId),
    ("label", Codec.string.write t.label),
    ("max_uses", optionalU32.write t.maxUses),
    ("uses", Codec.uint32.write t.uses),
    ("expires_at", optionalU64.write t.expiresAt),
    ("created_at", Codec.uint64.write t.createdAt),
    ("revoked", Codec.bool.write t.revoked)]
  read j := do
    let m ← j.entries ["token_id", "org_id", "app_id", "label", "max_uses", "uses", "expires_at",
      "created_at", "revoked"] 0
    return {
      tokenId := ← Codec.string.field "token_id" m
      orgId := ← Codec.string.field "org_id" m
      appId := ← Codec.string.field "app_id" m
      label := ← Codec.string.field "label" m
      maxUses := ← optionalU32.field "max_uses" m
      uses := ← Codec.uint32.field "uses" m
      expiresAt := ← optionalU64.field "expires_at" m
      createdAt := ← Codec.uint64.field "created_at" m
      revoked := ← Codec.bool.field "revoked" m }
  absent := none
  read_write t := by simp [Codec.field_cons_self, Codec.field_cons_of_ne]

/-- What a sink delivers to, under the name of its variant. -/
def CdcSinkType.codec : Codec CdcSinkType where
  write
    | .nats subjectPrefix =>
      .object [("Nats", .object [("subject_prefix", Codec.string.write subjectPrefix)])]
    | .kafka topic => .object [("Kafka", .object [("topic", Codec.string.write topic)])]
    | .webhook url => .object [("Webhook", .object [("url", Codec.string.write url)])]
  read j := do
    match ← j.variant with
    | ("Nats", v) => return .nats (← Codec.string.field "subject_prefix"
        (← v.entries ["subject_prefix"] 0))
    | ("Kafka", v) => return .kafka (← Codec.string.field "topic" (← v.entries ["topic"] 0))
    | ("Webhook", v) => return .webhook (← Codec.string.field "url" (← v.entries ["url"] 0))
    | _ => none
  absent := none
  read_write t := by cases t <;> rfl

/-- A sink. -/
def CdcSinkConfig.codec : Codec CdcSinkConfig where
  write k := .object [
    ("sink_id", Codec.string.write k.sinkId),
    ("org_id", Codec.string.write k.orgId),
    ("sink_type", CdcSinkType.codec.write k.sinkType),
    ("enabled", Codec.bool.write k.enabled),
    ("created_at", Codec.uint64.write k.createdAt)]
  read j := do
    let m ← j.entries ["sink_id", "org_id", "sink_type", "enabled", "created_at"] 0
    return {
      sinkId := ← Codec.string.field "sink_id" m
      orgId := ← Codec.string.field "org_id" m
      sinkType := ← CdcSinkType.codec.field "sink_type" m
      enabled := ← Codec.bool.field "enabled" m
      createdAt := ← Codec.uint64.field "created_at" m }
  absent := none
  read_write k := by simp [Codec.field_cons_self, Codec.field_cons_of_ne]

/-- An identity provider, as it is stored: with its client secret. -/
def IdpConfig.codec : Codec IdpConfig where
  write i := .object [
    ("idp_id", Codec.string.write i.idpId),
    ("org_id", Codec.string.write i.orgId),
    ("issuer_url", Codec.string.write i.issuerUrl),
    ("client_id", Codec.string.write i.clientId),
    ("client_secret", Codec.string.write i.clientSecret),
    ("enabled", Codec.bool.write i.enabled),
    ("created_at", Codec.uint64.write i.createdAt)]
  read j := do
    let m ← j.entries ["idp_id", "org_id", "issuer_url", "client_id", "client_secret", "enabled",
      "created_at"] 0
    return {
      idpId := ← Codec.string.field "idp_id" m
      orgId := ← Codec.string.field "org_id" m
      issuerUrl := ← Codec.string.field "issuer_url" m
      clientId := ← Codec.string.field "client_id" m
      clientSecret := ← Codec.string.field "client_secret" m
      enabled := ← Codec.bool.field "enabled" m
      createdAt := ← Codec.uint64.field "created_at" m }
  absent := none
  read_write i := by simp [Codec.field_cons_self, Codec.field_cons_of_ne]

/-- What is shown of an identity provider: all but the client secret. -/
structure IdpConfigResponse where
  idpId : String
  orgId : String
  issuerUrl : String
  clientId : String
  enabled : Bool
  createdAt : UInt64
  deriving DecidableEq, Repr

/-- `From<IdpConfig>`. -/
def IdpConfigResponse.ofConfig (idp : IdpConfig) : IdpConfigResponse where
  idpId := idp.idpId
  orgId := idp.orgId
  issuerUrl := idp.issuerUrl
  clientId := idp.clientId
  enabled := idp.enabled
  createdAt := idp.createdAt

/-- The JSON object of a provider, without the client secret. -/
def IdpConfigResponse.write (i : IdpConfigResponse) : Json :=
  .object [
    ("idp_id", Codec.string.write i.idpId),
    ("org_id", Codec.string.write i.orgId),
    ("issuer_url", Codec.string.write i.issuerUrl),
    ("client_id", Codec.string.write i.clientId),
    ("enabled", Codec.bool.write i.enabled),
    ("created_at", Codec.uint64.write i.createdAt)]

/-- A tier, by the name of its variant. -/
def MeshTier.codec : Codec MeshTier where
  write
    | .authority => .string "Authority"
    | .infrastructure => .string "Infrastructure"
    | .endpoint => .string "Endpoint"
  read j := do
    match ← j.variant with
    | ("Authority", .null) => some .authority
    | ("Infrastructure", .null) => some .infrastructure
    | ("Endpoint", .null) => some .endpoint
    | _ => none
  absent := none
  read_write t := by cases t <;> rfl

/-- A policy rule. -/
def PolicyRule.codec : Codec PolicyRule where
  write r := .object [
    ("rule_id", Codec.string.write r.ruleId),
    ("org_id", Codec.string.write r.orgId),
    ("claim_key", Codec.string.write r.claimKey),
    ("claim_value", Codec.string.write r.claimValue),
    ("tier", MeshTier.codec.write r.tier),
    ("permissions", Codec.uint32.write r.permissions),
    ("priority", Codec.uint32.write r.priority)]
  read j := do
    let m ← j.entries ["rule_id", "org_id", "claim_key", "claim_value", "tier", "permissions",
      "priority"] 0
    return {
      ruleId := ← Codec.string.field "rule_id" m
      orgId := ← Codec.string.field "org_id" m
      claimKey := ← Codec.string.field "claim_key" m
      claimValue := ← Codec.string.field "claim_value" m
      tier := ← MeshTier.codec.field "tier" m
      permissions := ← Codec.uint32.field "permissions" m
      priority := ← Codec.uint32.field "priority" m }
  absent := none
  read_write r := by simp [Codec.field_cons_self, Codec.field_cons_of_ne]

/-! ### Enrollment -/

/-- A decision, under the name of its variant. -/
def EnrollmentDecision.codec : Codec EnrollmentDecision where
  write
    | .approved tier permissions =>
      .object [("Approved", .object [
        ("tier", MeshTier.codec.write tier),
        ("permissions", Codec.uint32.write permissions)])]
    | .denied reason => .object [("Denied", .object [("reason", Codec.string.write reason)])]
  read j := do
    match ← j.variant with
    | ("Approved", v) =>
      let m ← v.entries ["tier", "permissions"] 0
      return .approved (← MeshTier.codec.field "tier" m) (← Codec.uint32.field "permissions" m)
    | ("Denied", v) => return .denied (← Codec.string.field "reason" (← v.entries ["reason"] 0))
    | _ => none
  absent := none
  read_write d := by
    cases d with
    | approved tier permissions =>
      simp [Json.variant, Codec.field_cons_self, Codec.field_cons_of_ne]
    | denied reason => rfl

/-- An entry of the enrollment log. -/
def EnrollmentAuditEntry.codec : Codec EnrollmentAuditEntry where
  write e := .object [
    ("audit_id", Codec.string.write e.auditId),
    ("org_id", Codec.string.write e.orgId),
    ("app_id", Codec.string.write e.appId),
    ("idp_id", Codec.string.write e.idpId),
    ("subject", Codec.string.write e.subject),
    ("decision", EnrollmentDecision.codec.write e.decision),
    ("timestamp_ms", Codec.uint64.write e.timestampMs)]
  read j := do
    let m ← j.entries ["audit_id", "org_id", "app_id", "idp_id", "subject", "decision",
      "timestamp_ms"] 0
    return {
      auditId := ← Codec.string.field "audit_id" m
      orgId := ← Codec.string.field "org_id" m
      appId := ← Codec.string.field "app_id" m
      idpId := ← Codec.string.field "idp_id" m
      subject := ← Codec.string.field "subject" m
      decision := ← EnrollmentDecision.codec.field "decision" m
      timestampMs := ← Codec.uint64.field "timestamp_ms" m }
  absent := none
  read_write e := by simp [Codec.field_cons_self, Codec.field_cons_of_ne]

end PeatGateway
