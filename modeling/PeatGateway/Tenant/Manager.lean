import PeatGateway.Crypto.Envelope
import PeatGateway.Storage.Backend
import PeatGateway.Tenant.Validate

/-!
# The tenant manager

The operations of `TenantManager`, as programs over the storage calls: what an
operation checks, in which order, and which records it reads and writes.  The clock
and the random source are arguments: `now` is the reading of the system clock in
milliseconds, a `draw` is what the operation takes from the operating system's random
source.

The genesis of a formation is made and serialised by the crate `peat_mesh`, which is a
parameter.

## Main definitions

* `GenesisApi`, `TenantManager` — the parameters of the operations.
* `TenantManager.createOrg`, `TenantManager.createFormation`, … — the operations.
-/

namespace PeatGateway

open Effect Effect.Prog Wire

/-- The membership policies of the mesh. -/
inductive MembershipPolicy
  | open
  | controlled
  | strict
  deriving DecidableEq, Repr

/-- `MeshGenesis` of the crate `peat_mesh`. -/
structure GenesisApi (G : Type) where
  /-- `MeshGenesis::create`, on the bytes it draws. -/
  create : String → MembershipPolicy → Bytes → G
  meshId : G → String
  encode : G → Bytes
  decode : Bytes → Except Error G
  authorityPublicKey : G → Bytes
  /-- The encoded certificate for a public key, a node, a tier, permissions and a
  validity; the first argument is what the signature depends on besides. -/
  issueCertificate : Bytes → G → Bytes → String → WireTier → UInt8 → UInt64 → Bytes

/-- The manager: the crates it builds on, its key provider, and whether a key provider
is configured at all. -/
structure TenantManager (G : Type) where
  api : GenesisApi G
  aead : Aead
  keyProvider : KeyProvider
  encryptEnabled : Bool

/-- The membership policy of an enrollment policy. -/
def EnrollmentPolicy.toMembership : EnrollmentPolicy → MembershipPolicy
  | .open => .open
  | .controlled => .controlled
  | .strict => .strict

/-- Below a limit as it is compared, by a cast to `u32`, is below the limit. -/
theorem lt_of_not_ofNat_ge {n : ℕ} {limit : UInt32} (hn : n < 2 ^ 32)
    (h : ¬ UInt32.ofNat n ≥ limit) : n < limit.toNat := by
  rw [ge_iff_le, UInt32.not_le, UInt32.lt_iff_toNat_lt] at h
  rwa [UInt32.toNat_ofNat_of_lt' hn] at h

namespace TenantManager

/-! ### Organizations -/

/-- `create_org`: the id and the name are checked, and the id must not be taken. -/
def createOrg (now : UInt64) (orgId displayName : String) : StoreProg Organization := do
  ofExcept (validateIdentifier orgId "org_id")
  ofExcept (validateDisplayName displayName)
  let existing ← store (.getOrg orgId)
  ensure existing.isNone s!"Organization '{orgId}' already exists"
  let org : Organization := ⟨orgId, displayName, .default, now⟩
  store (.createOrg org)
  return org

/-- `get_org`: an error if there is none. -/
def getOrg (orgId : String) : StoreProg Organization := do
  let org ← store (.getOrg orgId)
  okOrElse org s!"Organization '{orgId}' not found"

/-- `list_orgs`. -/
def listOrgs : StoreProg (List Organization) := store .listOrgs

/-- `update_org`: what is given replaces what is stored, and is not checked. -/
def updateOrg (orgId : String) (displayName : Option String) (quotas : Option OrgQuotas) :
    StoreProg Organization := do
  let org ← getOrg orgId
  let org := { org with
    displayName := displayName.getD org.displayName, quotas := quotas.getD org.quotas }
  store (.updateOrg org)
  return org

/-- `delete_org`: the backend removes what belongs to it; an error if there was none. -/
def deleteOrg (orgId : String) : StoreProg Unit := do
  let removed ← store (.deleteOrg orgId)
  ensure removed s!"Organization '{orgId}' not found"

/-! ### Formations -/

/-- What `create_formation` draws: the keys of the genesis, and the draws of `seal`. -/
structure FormationDraw where
  genesis : Bytes
  envelope : SealDraw

section Genesis

variable {G : Type} (mgr : TenantManager G)

/-- The bytes to store for an encoded genesis: sealed if a key provider is configured. -/
def protect (draw : SealDraw) (encoded : Bytes) : Except Error Bytes :=
  if mgr.encryptEnabled then sealEnvelope mgr.aead mgr.keyProvider draw encoded else .ok encoded

/-- The genesis of stored bytes.  With a key provider, an envelope is opened and anything
else is read as plaintext of an earlier version. -/
def unprotect (w stored : Bytes) : Except Error G := do
  let plaintext ←
    if mgr.encryptEnabled then
      (openEnvelope mgr.aead mgr.keyProvider w stored).map (·.getD stored)
    else .ok stored
  (mgr.api.decode plaintext).mapError fun e => s!"Failed to decode genesis: {e}"

/-- `get_formation`: an error if there is none. -/
def getFormation (orgId appId : String) : StoreProg FormationConfig := do
  let formation ← store (.getFormation orgId appId)
  okOrElse formation s!"Formation '{appId}' not found in org '{orgId}'"

/-- `create_formation`: the id is checked, the quota is compared with what is listed, and the id
must not be taken; the formation and its genesis are written one after the other. -/
def createFormation (draw : FormationDraw) (orgId appId : String) (policy : EnrollmentPolicy) :
    StoreProg FormationConfig := do
  ofExcept (validateIdentifier appId "app_id")
  let org ← getOrg orgId
  let existing ← store (.listFormations orgId)
  ensure (¬ UInt32.ofNat existing.length ≥ org.quotas.maxFormations)
    s!"Organization '{orgId}' has reached its formation quota ({org.quotas.maxFormations})"
  let taken ← store (.getFormation orgId appId)
  ensure taken.isNone s!"Formation '{appId}' already exists in org '{orgId}'"
  let genesis := mgr.api.create appId policy.toMembership draw.genesis
  let storedBytes ← ofExcept (mgr.protect draw.envelope (mgr.api.encode genesis))
  let formation : FormationConfig := ⟨appId, mgr.api.meshId genesis, policy⟩
  store (.createFormation orgId formation)
  store (.storeGenesis orgId appId storedBytes)
  return formation

/-- `list_formations`: an error without the organization. -/
def listFormations (orgId : String) : StoreProg (List FormationConfig) := do
  let _ ← getOrg orgId
  store (.listFormations orgId)

/-- The genesis is removed after the formation; whether that succeeds is not looked at. -/
def deleteFormation (orgId appId : String) : StoreProg Unit := do
  let removed ← store (.deleteFormation orgId appId)
  ensure removed s!"Formation '{appId}' not found in org '{orgId}'"
  let _ ← attempt (S := Storage) (.deleteGenesis orgId appId)
  return ()

/-- `load_genesis`: an error if there is none, or if it cannot be opened or decoded. -/
def loadGenesis (w : Bytes) (orgId appId : String) : StoreProg G := do
  let stored ← store (.getGenesis orgId appId)
  let stored ← okOrElse stored s!"Genesis not found for formation '{appId}' in org '{orgId}'"
  ofExcept (mgr.unprotect w stored)

end Genesis

/-! ### Enrollment tokens -/

/-- The token's expiry lies before `now`. -/
def expired (token : EnrollmentToken) (now : UInt64) : Bool := token.expiresAt.any (now > ·)

/-- The token has been used as often as it may be. -/
def exhausted (token : EnrollmentToken) : Bool := token.maxUses.any (token.uses ≥ ·)

/-- `create_token`: the label is checked, and the organization and the formation must be there. -/
def createToken (draw : Vector UInt8 16) (now : UInt64) (orgId appId label : String)
    (maxUses : Option UInt32) (expiresAt : Option UInt64) : StoreProg EnrollmentToken := do
  ofExcept (validateNonEmpty label "label")
  let _ ← getOrg orgId
  let _ ← getFormation orgId appId
  let token : EnrollmentToken :=
    { tokenId := "peat_" ++ hexEncode draw.toList, orgId, appId, label, maxUses, uses := 0,
      expiresAt, createdAt := now, revoked := false }
  store (.createToken token)
  return token

/-- `get_token`: an error if there is none. -/
def getToken (orgId tokenId : String) : StoreProg EnrollmentToken := do
  let token ← store (.getToken orgId tokenId)
  okOrElse token s!"Token '{tokenId}' not found in org '{orgId}'"

/-- `list_tokens`: an error without the organization or the formation. -/
def listTokens (orgId appId : String) : StoreProg (List EnrollmentToken) := do
  let _ ← getOrg orgId
  let _ ← getFormation orgId appId
  store (.listTokens orgId appId)

/-- `revoke_token`: the whole record is written back, revoked; an error if it was. -/
def revokeToken (orgId tokenId : String) : StoreProg EnrollmentToken := do
  let token ← getToken orgId tokenId
  ensure (!token.revoked) s!"Token '{tokenId}' is already revoked"
  let token := { token with revoked := true }
  store (.updateToken token)
  return token

/-- `delete_token`: an error if there was none. -/
def deleteToken (orgId tokenId : String) : StoreProg Unit := do
  let removed ← store (.deleteToken orgId tokenId)
  ensure removed s!"Token '{tokenId}' not found in org '{orgId}'"

/-- Check that the token exists, belongs to the formation, is not revoked, not expired and
not used up; then count the use and write the record back. -/
def validateAndConsumeToken (now : UInt64) (orgId appId tokenId : String) :
    StoreProg EnrollmentToken := do
  let token ← getToken orgId tokenId
  ensure (token.appId = appId) s!"Token does not belong to formation '{appId}'"
  ensure (!token.revoked) s!"Token '{tokenId}' has been revoked"
  ensure (!expired token now) s!"Token '{tokenId}' has expired"
  ensure (!exhausted token)
    s!"Token '{tokenId}' has reached its maximum uses ({token.maxUses.getD 0})"
  let token := { token with uses := token.uses + 1 }
  store (.updateToken token)
  return token

/-! ### Sinks and cursors -/

/-- `create_sink`: the sink type is checked, and the quota is compared with what is listed. -/
def createSink (draw : Vector UInt8 8) (now : UInt64) (orgId : String) (sinkType : CdcSinkType) :
    StoreProg CdcSinkConfig := do
  ofExcept (validateSinkType sinkType)
  let org ← getOrg orgId
  let existing ← store (.listSinks orgId)
  ensure (¬ UInt32.ofNat existing.length ≥ org.quotas.maxCdcSinks)
    s!"Organization '{orgId}' has reached its CDC sink quota ({org.quotas.maxCdcSinks})"
  let sink : CdcSinkConfig :=
    { sinkId := hexEncode draw.toList, orgId, sinkType, enabled := true, createdAt := now }
  store (.createSink sink)
  return sink

/-- `get_sink`: an error if there is none. -/
def getSink (orgId sinkId : String) : StoreProg CdcSinkConfig := do
  let sink ← store (.getSink orgId sinkId)
  okOrElse sink s!"Sink '{sinkId}' not found in org '{orgId}'"

/-- `list_sinks`: an error without the organization. -/
def listSinks (orgId : String) : StoreProg (List CdcSinkConfig) := do
  let _ ← getOrg orgId
  store (.listSinks orgId)

/-- `toggle_sink`: the whole record is written back, enabled or not. -/
def toggleSink (orgId sinkId : String) (enabled : Bool) : StoreProg CdcSinkConfig := do
  let sink ← getSink orgId sinkId
  let sink := { sink with enabled }
  store (.updateSink sink)
  return sink

/-- `delete_sink`: an error if there was none. -/
def deleteSink (orgId sinkId : String) : StoreProg Unit := do
  let removed ← store (.deleteSink orgId sinkId)
  ensure removed s!"Sink '{sinkId}' not found in org '{orgId}'"

/-- `get_cursor`. -/
def getCursor (orgId appId documentId : String) : StoreProg (Option String) :=
  store (.getCursor orgId appId documentId)

/-- `set_cursor`: nothing is checked. -/
def setCursor (orgId appId documentId changeHash : String) : StoreProg Unit :=
  store (.setCursor orgId appId documentId changeHash)

/-! ### Identity providers and policy rules -/

/-- `create_idp`: the URL, the id and the secret are checked, and the organization must be there. -/
def createIdp (draw : Vector UInt8 8) (now : UInt64)
    (orgId issuerUrl clientId clientSecret : String) : StoreProg IdpConfig := do
  ofExcept (validateIssuerUrl issuerUrl)
  ofExcept (validateNonEmpty clientId "client_id")
  ofExcept (validateNonEmpty clientSecret "client_secret")
  let _ ← getOrg orgId
  let idp : IdpConfig :=
    { idpId := hexEncode draw.toList, orgId, issuerUrl, clientId, clientSecret, enabled := true,
      createdAt := now }
  store (.createIdp idp)
  return idp

/-- `get_idp`: an error if there is none. -/
def getIdp (orgId idpId : String) : StoreProg IdpConfig := do
  let idp ← store (.getIdp orgId idpId)
  okOrElse idp s!"IdP '{idpId}' not found in org '{orgId}'"

/-- `list_idps`: an error without the organization. -/
def listIdps (orgId : String) : StoreProg (List IdpConfig) := do
  let _ ← getOrg orgId
  store (.listIdps orgId)

/-- `toggle_idp`: the whole record is written back, enabled or not. -/
def toggleIdp (orgId idpId : String) (enabled : Bool) : StoreProg IdpConfig := do
  let idp ← getIdp orgId idpId
  let idp := { idp with enabled }
  store (.updateIdp idp)
  return idp

/-- `delete_idp`: an error if there was none. -/
def deleteIdp (orgId idpId : String) : StoreProg Unit := do
  let removed ← store (.deleteIdp orgId idpId)
  ensure removed s!"IdP '{idpId}' not found in org '{orgId}'"

/-- `create_policy_rule`: the organization must be there, and nothing else is checked. -/
def createPolicyRule (draw : Vector UInt8 8) (orgId claimKey claimValue : String)
    (tier : MeshTier) (permissions priority : UInt32) : StoreProg PolicyRule := do
  let _ ← getOrg orgId
  let rule : PolicyRule :=
    { ruleId := hexEncode draw.toList, orgId, claimKey, claimValue, tier, permissions, priority }
  store (.createPolicyRule rule)
  return rule

/-- `list_policy_rules`: an error without the organization. -/
def listPolicyRules (orgId : String) : StoreProg (List PolicyRule) := do
  let _ ← getOrg orgId
  store (.listPolicyRules orgId)

/-- `delete_policy_rule`: an error if there was none. -/
def deletePolicyRule (orgId ruleId : String) : StoreProg Unit := do
  let removed ← store (.deletePolicyRule orgId ruleId)
  ensure removed s!"Policy rule '{ruleId}' not found in org '{orgId}'"

/-! ### The enrollment log -/

/-- `append_audit`: nothing is checked. -/
def appendAudit (entry : EnrollmentAuditEntry) : StoreProg Unit := store (.appendAudit entry)

/-- `list_audit`: an error without the organization. -/
def listAudit (orgId : String) (appId : Option String) (limit : UInt64) :
    StoreProg (List EnrollmentAuditEntry) := do
  let _ ← getOrg orgId
  store (.listAudit orgId appId limit)

/-- All entries are asked for, with the largest limit there is. -/
def countRecentEnrollments (orgId : String) (sinceMs : UInt64) : StoreProg ℕ := do
  let entries ← store (.listAudit orgId none 0xFFFFFFFFFFFFFFFF)
  return (entries.filter fun e => e.timestampMs ≥ sinceMs).length

end TenantManager

/-! ### A manager to run -/

/-- A genesis that is nothing but its seed. -/
def seedGenesis : GenesisApi Bytes where
  create _ _ draw := draw
  meshId := hexEncode
  encode g := 1 :: g
  decode
    | 1 :: g => .ok g
    | _ => .error "not a genesis"
  authorityPublicKey g := g
  issueCertificate w _ publicKey _ _ _ _ := w ++ publicKey

/-- A manager over `seedGenesis`, without a key provider. -/
def seedManager : TenantManager Bytes := ⟨seedGenesis, counterAead, PlaintextProvider, false⟩

end PeatGateway
