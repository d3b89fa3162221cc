import PeatGateway.Api.Oidc
import PeatGateway.Lib.Reply
import PeatGateway.Tenant.Manager

/-!
# The enrollment endpoint

`POST /:org_id/formations/:app_id/enroll`: check the request, decide by the policy of the
formation, write the decision to the log, and issue a certificate if that can be done.

Each reading of the clock is an argument of its own, as are the draws.

## Main definitions

* `ApiError`, `EnrollRequest`, `EnrollmentResponse` — what goes in and out.
* `extractBearer`, `validatePublicKey` — reading the request.
* `decideEnrollment` — the match on the policy.
* `tryIssueCertificate` — the certificate, or none.
* `enroll` — the handler.

## Main results

* `tryIssueCertificate_cases` — **the certificate takes at most a look at the genesis**.
* `meets_tryIssueCertificate`, `ends_tryIssueCertificate` — the calls it makes, and how it ends.
-/

namespace PeatGateway

open Effect Text Wire

/-- The statuses the handler refuses with. -/
inductive StatusCode
  | badRequest
  | unauthorized
  | forbidden
  | tooManyRequests
  | internalServerError
  deriving DecidableEq, Repr

/-- A refusal: a status and a text. -/
structure ApiError where
  status : StatusCode
  message : String
  deriving DecidableEq, Repr

/-- The body of a request. -/
structure EnrollRequest where
  token : Option String
  publicKey : Option String
  nodeId : Option String
  deriving DecidableEq, Repr

/-- The body of an answer with status 200. -/
structure EnrollmentResponse where
  decision : EnrollmentDecision
  auditId : String
  certificate : Option String
  meshId : Option String
  authorityPublicKey : Option String
  deriving DecidableEq, Repr

/-- The headers of a request, names in lower case. -/
abbrev HeaderMap : Type := List (String × Bytes)

/-- What a request depends on besides its contents: three readings of the clock, the id of
the log entry, and what loading the genesis and signing draw. -/
structure EnrollDraw where
  rateNow : UInt64
  tokenNow : UInt64
  auditNow : UInt64
  auditId : Vector UInt8 8
  genesis : Bytes
  certificate : Bytes

/-- Handlers over the store. -/
abbrev Api (α : Type) : Type := Reply Storage Error ApiError α

/-- A refusal with status 400, for what the manager or the request is at fault. -/
def badRequest (e : Error) : ApiError := ⟨.badRequest, e⟩

/-- A refusal with status 401, for who does not prove who it is. -/
def unauthorized (msg : String) : ApiError := ⟨.unauthorized, msg⟩

/-- A refusal with status 403, for who may not enroll. -/
def forbidden (msg : String) : ApiError := ⟨.forbidden, msg⟩

/-- A refusal with status 429, for an organization that has used up its hour. -/
def tooManyRequests (msg : String) : ApiError := ⟨.tooManyRequests, msg⟩

/-- A refusal with status 500, for a log that cannot be counted. -/
def internal (e : Error) : ApiError := ⟨.internalServerError, e⟩

/-! ### Reading the request -/

/-- `value.to_str()`: only visible ASCII and tabs are text. -/
def headerStr (value : Bytes) : Option String :=
  if value.all fun b => (32 ≤ b && b < 127) || b == 9 then
    some (String.ofList (value.map fun b => Char.ofNat b.toNat))
  else none

/-- The bearer: of the header `authorization` if it has one, else of the body. -/
def extractBearer (headers : HeaderMap) (body : Option EnrollRequest) : Option String :=
  ((headers.lookup "authorization").bind fun auth =>
    (headerStr auth).bind fun val => stripPrefix val "Bearer ") <|> body.bind EnrollRequest.token

/-- A public key is 32 bytes in hexadecimal. -/
def validatePublicKey (pkHex : String) : Except ApiError Unit :=
  match hexDecode pkHex with
  | none => .error (badRequest "Invalid public_key: not valid hex")
  | some bytes =>
    if bytes.length ≠ 32 then
      .error (badRequest s!"Invalid public_key: expected 32 bytes, got {bytes.length}")
    else .ok ()

/-- The check of the body: a public key is looked at only if there is one. -/
def validateBody (body : Option EnrollRequest) : Except ApiError Unit :=
  match body.bind EnrollRequest.publicKey with
  | some pk => validatePublicKey pk
  | none => .ok ()

/-! ### The decision -/

/-- A decision, and who it was made for by whom. -/
structure Verdict where
  decision : EnrollmentDecision
  idpId : String
  subject : String

/-- The claim `sub`, if it is a text. -/
def subjectOf (claims : JsonMap) : String :=
  ((claims.get "sub").bind Json.asStr).getD "unknown"

/-- Enrollment by a token of the gateway. -/
def decideByToken (now : UInt64) (orgId appId bearer : String) : Api Verdict := do
  match ← Reply.outcome (TenantManager.validateAndConsumeToken now orgId appId bearer) with
  | .ok token => return ⟨.approved .endpoint 0, "token", s!"token:{token.tokenId}"⟩
  | .error _ => Reply.refuse (unauthorized "Enrollment token is invalid, revoked, or expired")

/-- Enrollment by an identity provider: the first enabled one is asked. -/
def decideByIdp (net : Internet) (orgId bearer : String) : Api Verdict := do
  let idps ← Reply.orElse (TenantManager.listIdps orgId) badRequest
  let idp ← Reply.okOrElse (idps.find? (·.enabled))
    (badRequest s!"No enabled identity provider configured for org '{orgId}'")
  let claims ← Reply.ofExcept
    ((introspectOidcToken net idp.issuerUrl idp.clientId idp.clientSecret bearer).mapError
      fun e => unauthorized s!"Token validation failed: {e}")
  let rules ← Reply.orElse (TenantManager.listPolicyRules orgId) badRequest
  return ⟨evaluatePolicy rules claims, idp.idpId, subjectOf claims⟩

/-- The match on the policy.  A strict formation has been refused before the match. -/
def decideEnrollment (net : Internet) (now : UInt64) (orgId appId : String) (headers : HeaderMap)
    (body : Option EnrollRequest) : EnrollmentPolicy → Api Verdict
  | .strict =>
    Reply.refuse (forbidden "Formation requires explicit admin approval (Strict policy)")
  | .open => return ⟨.approved .endpoint 0, "none", "anonymous"⟩
  | .controlled => do
    let bearer ← Reply.okOrElse (extractBearer headers body)
      (unauthorized "Missing bearer token (Authorization: Bearer <token>)")
    if startsWith bearer "peat_" then decideByToken now orgId appId bearer
    else decideByIdp net orgId bearer

/-! ### The handler -/

section

variable {G : Type} (mgr : TenantManager G)

/-- The certificate, the mesh id and the authority's key, or none of them: without key
material in the request, or without a genesis that can be loaded. -/
def tryIssueCertificate (d : EnrollDraw) (orgId appId : String) (decision : EnrollmentDecision)
    (body : Option EnrollRequest) : Api (Option String × Option String × Option String) :=
  match decision, body with
  | .approved tier permissions, some ⟨_, some publicKeyHex, some nodeId⟩ =>
    match hexDecode publicKeyHex with
    | some pkBytes =>
      if pkBytes.length = 32 then do
        match ← Reply.outcome (mgr.loadGenesis d.genesis orgId appId) with
        | .ok genesis =>
          let cert := mgr.api.issueCertificate d.certificate genesis pkBytes nodeId
            tier.toMeshTier (permissionsToMesh permissions) (24 * 60 * 60 * 1000)
          return (some (hexEncode cert), some (mgr.api.meshId genesis),
            some (hexEncode (mgr.api.authorityPublicKey genesis)))
        | .error _ => return (none, none, none)
      else return (none, none, none)
    | none => return (none, none, none)
  | _, _ => return (none, none, none)

/-- **Issuing a certificate is loading the genesis, at most**, and answering: whatever comes of it,
the handler does not refuse. -/
theorem tryIssueCertificate_cases (d : EnrollDraw) (orgId appId : String)
    (decision : EnrollmentDecision) (body : Option EnrollRequest) :
    (∃ x, tryIssueCertificate mgr d orgId appId decision body = pure x) ∨
    ∃ f : Except Error G → Option String × Option String × Option String,
      tryIssueCertificate mgr d orgId appId decision body =
        Reply.outcome (mgr.loadGenesis d.genesis orgId appId) >>= fun r => pure (f r) := by
  unfold tryIssueCertificate
  split
  · next tier permissions _ publicKeyHex nodeId =>
    split
    · next pkBytes _ =>
      split
      · refine Or.inr ⟨fun
          | .ok genesis => (some (hexEncode (mgr.api.issueCertificate d.certificate genesis pkBytes
              nodeId tier.toMeshTier (permissionsToMesh permissions) (24 * 60 * 60 * 1000))),
            some (mgr.api.meshId genesis), some (hexEncode (mgr.api.authorityPublicKey genesis)))
          | .error _ => (none, none, none), bind_congr fun r => ?_⟩
        cases r <;> rfl
      · exact Or.inl ⟨_, rfl⟩
    · exact Or.inl ⟨_, rfl⟩
  · exact Or.inl ⟨_, rfl⟩

/-- A certificate is issued, or left out, with no calls but for the genesis; the handler does not
refuse. -/
theorem meets_tryIssueCertificate {Φ : Spec Storage} {d : EnrollDraw} {orgId appId : String}
    (hload : (mgr.loadGenesis d.genesis orgId appId).Meets Φ fun _ => True)
    (decision : EnrollmentDecision) (body : Option EnrollRequest) :
    (tryIssueCertificate mgr d orgId appId decision body).run.Meets Φ fun r => ∃ a, r = .ok a := by
  obtain ⟨x, hx⟩ | ⟨f, hf⟩ := tryIssueCertificate_cases mgr d orgId appId decision body
  · rw [hx]
    exact (Prog.meets_ok _).mpr ⟨x, rfl⟩
  · rw [hf]
    refine (Prog.meets_bind _ _ _).mpr ((Prog.meets_map _ _ _).mpr (Prog.meets_outcome
      (hload.mono fun genesis _ => ?_) fun e => ?_))
    · exact (Prog.meets_ok _).mpr ⟨_, rfl⟩
    · exact (Prog.meets_ok _).mpr ⟨_, rfl⟩

/-- The certificate is issued or not, and what loading the genesis keeps is kept. -/
theorem ends_tryIssueCertificate {σ : Type} {h : Handler Storage Error σ} {d : EnrollDraw}
    {orgId appId : String} {s : σ} {R : σ → Prop} (hs : R s)
    (hload : (mgr.loadGenesis d.genesis orgId appId).Wp h s (fun _ => R) R)
    (decision : EnrollmentDecision) (body : Option EnrollRequest) :
    Reply.Ends h (tryIssueCertificate mgr d orgId appId decision body) s
      fun res s' => (∃ x, res = .ok x) ∧ R s' := by
  obtain ⟨x, hx⟩ | ⟨f, hf⟩ := tryIssueCertificate_cases mgr d orgId appId decision body
  · rw [hx, Reply.ends_pure]
    exact ⟨⟨x, rfl⟩, hs⟩
  · rw [hf, Reply.ends_bind]
    refine Reply.ends_outcome (hload.mono ?_ ?_)
    · exact fun _ _ hs' => Reply.ok_and.mpr ((Reply.ends_pure _).mpr ⟨⟨_, rfl⟩, hs'⟩)
    · exact fun _ hs' _ => Reply.ok_and.mpr ((Reply.ends_pure _).mpr ⟨⟨_, rfl⟩, hs'⟩)

/-- The entry the decision is recorded as. -/
def buildAudit (d : EnrollDraw) (orgId appId : String) (v : Verdict) : EnrollmentAuditEntry where
  auditId := hexEncode d.auditId.toList
  orgId := orgId
  appId := appId
  idpId := v.idpId
  subject := v.subject
  decision := v.decision
  timestampMs := d.auditNow

/-- `now.saturating_sub(3_600_000)`. -/
def oneHourBefore (now : UInt64) : UInt64 := if now < 3600000 then 0 else now - 3600000

/-- The handler.  Whether the decision could be recorded is not looked at. -/
def enroll (net : Internet) (d : EnrollDraw) (orgId appId : String) (headers : HeaderMap)
    (body : Option EnrollRequest) : Api EnrollmentResponse := do
  let org ← Reply.orElse (TenantManager.getOrg orgId) badRequest
  let formation ← Reply.orElse (TenantManager.getFormation orgId appId) badRequest
  Reply.ofExcept (validateBody body)
  let recent ← Reply.orElse
    (TenantManager.countRecentEnrollments orgId (oneHourBefore d.rateNow)) internal
  Reply.ensure (¬ UInt32.ofNat recent ≥ org.quotas.maxEnrollmentsPerHour)
    (tooManyRequests "Enrollment rate limit exceeded")
  let v ← decideEnrollment net d.tokenNow orgId appId headers body formation.enrollmentPolicy
  let entry := buildAudit d orgId appId v
  let _ ← Reply.outcome (TenantManager.appendAudit entry)
  match v.decision with
  | .denied reason => Reply.refuse (forbidden reason)
  | .approved _ _ =>
    let (certificate, meshId, authorityPublicKey) ←
      tryIssueCertificate mgr d orgId appId v.decision body
    return ⟨v.decision, entry.auditId, certificate, meshId, authorityPublicKey⟩

end

end PeatGateway
