import PeatGateway.Api.Auth
import PeatGateway.Api.Formations
import PeatGateway.Tenant.Ops

/-!
# The gateway

One request, from its path to its response.  The admin routes lie behind the middleware;
enrollment, health and metrics do not.

## Main definitions

* `Gateway`, `Surroundings` — what all requests share, and what one request meets.
* `AdminRequest.ops` — the operations of the manager a request calls for.
* `answer` — the handlers of the admin routes.
* `serve` — the router.
* `Move`, `served`, `responseTo` — many requests at a time, and their responses.

## Main results

* `meets_answer`, `meets_serve` — **a request makes only calls that its operations make**.
-/

namespace PeatGateway

open Effect

/-- What all requests share.  The certificate of an authority is made by the crate
`peat_mesh`. -/
structure Gateway (G : Type) where
  mgr : TenantManager G
  adminToken : Option String
  rootCertificate : G → String → RootCertificate
  version : String

/-- What a request meets: the clock, the random source, the brokers, the identity providers and
the metrics.  A draw is used by the requests that need it. -/
structure Surroundings where
  now : UInt64
  formation : TenantManager.FormationDraw
  id16 : Vector UInt8 16
  id8 : Vector UInt8 8
  genesis : Bytes
  enroll : EnrollDraw
  mesh : MeshStateRegistry BrokerView
  net : Internet
  metrics : String

section

variable {G : Type} (gw : Gateway G) (env : Surroundings)

/-- `op.await.map(…).map_err(…)`: the response to a value, and to an error. -/
def reply {α : Type} (p : StoreProg α) (failure success : HttpStatus) (payload : α → Payload) :
    HttpReply ApiResponse := do
  let a ← Reply.orElse p (refusal failure)
  return ⟨success, payload a⟩

open TenantManager in
/-- The handlers of the admin routes. -/
def answer : AdminRequest → HttpReply ApiResponse
  | .createOrg orgId displayName =>
    reply (createOrg env.now orgId displayName) .badRequest .ok fun o =>
      .json (Organization.codec.write o)
  | .listOrgs => reply listOrgs .badRequest .ok (jsonList Organization.codec.write)
  | .getOrg orgId =>
    reply (getOrg orgId) .notFound .ok fun o => .json (Organization.codec.write o)
  | .updateOrg orgId displayName quotas =>
    reply (updateOrg orgId displayName quotas) .notFound .ok fun o =>
      .json (Organization.codec.write o)
  | .deleteOrg orgId => reply (deleteOrg orgId) .notFound .ok fun _ => .empty
  | .createFormation orgId appId policy =>
    reply (gw.mgr.createFormation env.formation orgId appId policy) .badRequest .created fun f =>
      .json (FormationConfig.codec.write f)
  | .listFormations orgId =>
    reply (listFormations orgId) .notFound .ok (jsonList FormationConfig.codec.write)
  | .getFormation orgId appId =>
    reply (getFormation orgId appId) .notFound .ok fun f =>
      .json (FormationConfig.codec.write f)
  | .deleteFormation orgId appId =>
    reply (deleteFormation orgId appId) .notFound .ok fun _ => .empty
  | .listPeers orgId appId => do
    return ⟨.ok, jsonList PeerInfo.write (← listPeers env.mesh env.now orgId appId)⟩
  | .listDocuments orgId appId => do
    return ⟨.ok, jsonList DocumentSummary.write (← listDocuments env.mesh orgId appId)⟩
  | .listCertificates orgId appId => do
    return ⟨.ok, jsonList CertificateSummary.write
      (← listCertificates gw.mgr gw.rootCertificate env.genesis orgId appId)⟩
  | .createToken orgId appId label maxUses expiresAt =>
    reply (createToken env.id16 env.now orgId appId label maxUses expiresAt) .badRequest .created
      fun t => .json (EnrollmentToken.codec.write t)
  | .listTokens orgId appId =>
    reply (listTokens orgId appId) .notFound .ok (jsonList EnrollmentToken.codec.write)
  | .getToken orgId tokenId =>
    reply (getToken orgId tokenId) .notFound .ok fun t => .json (EnrollmentToken.codec.write t)
  | .revokeToken orgId tokenId =>
    reply (revokeToken orgId tokenId) .badRequest .ok fun t =>
      .json (EnrollmentToken.codec.write t)
  | .deleteToken orgId tokenId => reply (deleteToken orgId tokenId) .notFound .ok fun _ => .empty
  | .createSink orgId sinkType =>
    reply (createSink env.id8 env.now orgId sinkType) .badRequest .created fun k =>
      .json (CdcSinkConfig.codec.write k)
  | .listSinks orgId => reply (listSinks orgId) .notFound .ok (jsonList CdcSinkConfig.codec.write)
  | .getSink orgId sinkId =>
    reply (getSink orgId sinkId) .notFound .ok fun k => .json (CdcSinkConfig.codec.write k)
  | .toggleSink orgId sinkId enabled =>
    reply (toggleSink orgId sinkId enabled) .notFound .ok fun k =>
      .json (CdcSinkConfig.codec.write k)
  | .deleteSink orgId sinkId => reply (deleteSink orgId sinkId) .notFound .ok fun _ => .empty
  | .createIdp orgId issuerUrl clientId clientSecret =>
    reply (createIdp env.id8 env.now orgId issuerUrl clientId clientSecret) .badRequest .created
      fun i => .json (IdpConfigResponse.ofConfig i).write
  | .listIdps orgId =>
    reply (listIdps orgId) .notFound .ok (jsonList fun i => (IdpConfigResponse.ofConfig i).write)
  | .getIdp orgId idpId =>
    reply (getIdp orgId idpId) .notFound .ok fun i => .json (IdpConfigResponse.ofConfig i).write
  | .toggleIdp orgId idpId enabled =>
    reply (toggleIdp orgId idpId enabled) .notFound .ok fun i =>
      .json (IdpConfigResponse.ofConfig i).write
  | .deleteIdp orgId idpId => reply (deleteIdp orgId idpId) .notFound .ok fun _ => .empty
  | .createPolicyRule orgId claimKey claimValue tier permissions priority =>
    reply (createPolicyRule env.id8 orgId claimKey claimValue tier permissions priority)
      .badRequest .created fun r => .json (PolicyRule.codec.write r)
  | .listPolicyRules orgId =>
    reply (listPolicyRules orgId) .notFound .ok (jsonList PolicyRule.codec.write)
  | .deletePolicyRule orgId ruleId =>
    reply (deletePolicyRule orgId ruleId) .notFound .ok fun _ => .empty
  | .listAudit orgId appId limit =>
    reply (listAudit orgId appId limit) .notFound .ok (jsonList EnrollmentAuditEntry.codec.write)

/-! ### Enrollment -/

/-- `EnrollmentResponse` as JSON. -/
def EnrollmentResponse.write (r : EnrollmentResponse) : Json :=
  .object [("decision", EnrollmentDecision.codec.write r.decision),
    ("audit_id", Codec.string.write r.auditId),
    ("certificate", optionalString.write r.certificate),
    ("mesh_id", optionalString.write r.meshId),
    ("authority_public_key", optionalString.write r.authorityPublicKey)]

/-- `Option<Json<EnrollRequest>>`: a body that cannot be read is taken for none. -/
def optionalBody (body : Body) : Option EnrollRequest := (body.extract readEnroll).toOption

/-- The enrollment handler as a handler of the API. -/
def answerEnroll (orgId appId : String) (req : ApiRequest) : StoreProg ApiResponse :=
  (enroll gw.mgr env.net env.enroll orgId appId req.headers (optionalBody req.body)).run.map
    fun
    | .ok r => ⟨.ok, .json r.write⟩
    | .error e => ⟨e.status.toHttp, .text e.message⟩

/-! ### The router -/

/-- The outcome of a handler. -/
def respond (x : HttpReply ApiResponse) : StoreProg ApiResponse :=
  x.run.map fun
    | .ok r => r
    | .error r => r

/-- A route that needs the admin token. -/
def serveAdmin (req : ApiRequest) (e : Endpoint) : StoreProg ApiResponse :=
  match requireAdminToken gw.adminToken req.headers with
  | .error r => pure r
  | .ok () =>
    match req.extract e with
    | .error status => pure ⟨status, .rejection⟩
    | .ok r => respond (answer gw env r)

/-- The response to a `GET`, and to a `HEAD`, on a route that has nothing else. -/
def onlyGet (method : Method) (r : ApiResponse) : StoreProg ApiResponse :=
  match method with
  | .get | .head => pure r
  | _ => pure ⟨.methodNotAllowed, .empty⟩

/-- What a path leads to. -/
def dispatch (req : ApiRequest) : StoreProg ApiResponse :=
  match route req.path with
  | none => pure ⟨.notFound, .empty⟩
  | some .health =>
    onlyGet req.method ⟨.ok, .json (.object [("status", .string "ok"),
      ("version", .string gw.version)])⟩
  | some .metrics => onlyGet req.method ⟨.ok, .text env.metrics⟩
  | some (.enroll o a) =>
    match req.method with
    | .post =>
      match pathParam o, pathParam a with
      | .ok orgId, .ok appId => answerEnroll gw env orgId appId req
      | _, _ => pure ⟨.badRequest, .rejection⟩
    | _ => pure ⟨.methodNotAllowed, .empty⟩
  | some e => serveAdmin gw env req e

/-- The router.  A `HEAD` is answered without the body. -/
def serve (req : ApiRequest) : StoreProg ApiResponse :=
  (dispatch gw env req).map fun r =>
    if req.method = .head then { r with payload := .empty } else r

/-! ### What a request does to the store -/

/-- The operations of the manager a request calls for, one after the other. -/
def AdminRequest.ops : AdminRequest → List ManagerOp
  | .createOrg orgId displayName => [.createOrg env.now orgId displayName]
  | .listOrgs => [.listOrgs]
  | .getOrg orgId => [.getOrg orgId]
  | .updateOrg orgId displayName quotas => [.updateOrg orgId displayName quotas]
  | .deleteOrg orgId => [.deleteOrg orgId]
  | .createFormation orgId appId policy => [.createFormation env.formation orgId appId policy]
  | .listFormations orgId => [.listFormations orgId]
  | .getFormation orgId appId => [.getFormation orgId appId]
  | .deleteFormation orgId appId => [.deleteFormation orgId appId]
  | .listPeers orgId appId | .listDocuments orgId appId => [.getFormation orgId appId]
  | .listCertificates orgId appId =>
    [.getFormation orgId appId, .loadGenesis env.genesis orgId appId,
      .listAudit orgId (some appId) 1000]
  | .createToken orgId appId label maxUses expiresAt =>
    [.createToken env.id16 env.now orgId appId label maxUses expiresAt]
  | .listTokens orgId appId => [.listTokens orgId appId]
  | .getToken orgId tokenId => [.getToken orgId tokenId]
  | .revokeToken orgId tokenId => [.revokeToken orgId tokenId]
  | .deleteToken orgId tokenId => [.deleteToken orgId tokenId]
  | .createSink orgId sinkType => [.createSink env.id8 env.now orgId sinkType]
  | .listSinks orgId => [.listSinks orgId]
  | .getSink orgId sinkId => [.getSink orgId sinkId]
  | .toggleSink orgId sinkId enabled => [.toggleSink orgId sinkId enabled]
  | .deleteSink orgId sinkId => [.deleteSink orgId sinkId]
  | .createIdp orgId issuerUrl clientId clientSecret =>
    [.createIdp env.id8 env.now orgId issuerUrl clientId clientSecret]
  | .listIdps orgId => [.listIdps orgId]
  | .getIdp orgId idpId => [.getIdp orgId idpId]
  | .toggleIdp orgId idpId enabled => [.toggleIdp orgId idpId enabled]
  | .deleteIdp orgId idpId => [.deleteIdp orgId idpId]
  | .createPolicyRule orgId claimKey claimValue tier permissions priority =>
    [.createPolicyRule env.id8 orgId claimKey claimValue tier permissions priority]
  | .listPolicyRules orgId => [.listPolicyRules orgId]
  | .deletePolicyRule orgId ruleId => [.deletePolicyRule orgId ruleId]
  | .listAudit orgId appId limit => [.listAudit orgId appId limit]

section Meets

variable {gw env} {Φ : Spec Storage}

theorem meets_reply {α β : Type} {p : StoreProg α} {f : α → β}
    (hp : (p.map f).Meets Φ fun _ => True) (failure success : HttpStatus) (payload : α → Payload) :
    Reply.Meets Φ (reply p failure success payload) fun _ => True := by
  unfold reply
  rw [Reply.meets_bind]
  apply Reply.meets_orElse
  exact ((Prog.meets_map f p _).mp hp).mono fun _ _ => (Reply.meets_pure _).mpr trivial

/-- **A handler makes only calls that the operations of its request make.** -/
theorem meets_answer {r : AdminRequest}
    (h : ∀ op ∈ r.ops env, (op.prog gw.mgr).Meets Φ fun _ => True) :
    Reply.Meets Φ (answer gw env r) fun _ => True := by
  cases r
  case listPeers orgId appId =>
    simp only [answer, listPeers, Reply.meets_bind]
    refine (Reply.meets_orElse_of_map (h _ List.mem_cons_self)).mono fun _ _ => ?_
    split <;> simp
  case listDocuments orgId appId =>
    simp only [answer, listDocuments, Reply.meets_bind]
    refine (Reply.meets_orElse_of_map (h _ List.mem_cons_self)).mono fun _ _ => ?_
    split <;> simp
  case listCertificates orgId appId =>
    simp only [AdminRequest.ops, List.forall_mem_cons] at h
    obtain ⟨hformation, hgenesis, haudit, -⟩ := h
    simp only [answer, listCertificates, Reply.meets_bind, Reply.meets_pure]
    refine (Reply.meets_orElse_of_map hformation).mono fun _ _ => ?_
    refine (Reply.meets_orElse_of_map hgenesis).mono fun _ _ => ?_
    exact (Reply.meets_orElse_of_map haudit).mono fun _ _ => trivial
  -- the others are one operation
  all_goals exact meets_reply (h _ List.mem_cons_self) _ _ _

theorem meets_respond {x : HttpReply ApiResponse} (hx : Reply.Meets Φ x fun _ => True) :
    (respond x).Meets Φ fun _ => True :=
  (Prog.meets_map _ _ _).mpr ((Reply.meets_run hx).mono fun _ _ => trivial)

/-- A route behind the middleware makes calls only for a request that is admitted. -/
theorem meets_serveAdmin {req : ApiRequest} {e : Endpoint}
    (h : Admits gw.adminToken req.headers → ∀ r, req.extract e = .ok r →
      ∀ op ∈ r.ops env, (op.prog gw.mgr).Meets Φ fun _ => True) :
    (serveAdmin gw env req e).Meets Φ fun _ => True := by
  unfold serveAdmin
  split
  · simp
  · next hadmits =>
    split
    · simp
    · next r hr => exact meets_respond (meets_answer (h (requireAdminToken_eq_ok.mp hadmits) r hr))

/-- **A request makes only calls that its operations make**, if it is admitted, or else those
of an enrollment. -/
theorem meets_serve {req : ApiRequest}
    (hadmin : Admits gw.adminToken req.headers → ∀ e r, route req.path = some e →
      req.extract e = .ok r → ∀ op ∈ r.ops env, (op.prog gw.mgr).Meets Φ fun _ => True)
    (henroll : ∀ o a orgId appId, route req.path = some (.enroll o a) → req.method = .post →
      pathParam o = .ok orgId → pathParam a = .ok appId →
      Reply.Meets Φ (enroll gw.mgr env.net env.enroll orgId appId req.headers
        (optionalBody req.body)) fun _ => True) :
    (serve gw env req).Meets Φ fun _ => True := by
  refine (Prog.meets_map _ _ _).mpr (Prog.Meets.mono (Q := fun _ => True) (fun _ _ => trivial) ?_)
  unfold dispatch
  split
  · simp
  · unfold onlyGet
    split <;> simp
  · unfold onlyGet
    split <;> simp
  · next o a hroute =>
    split
    · next hpost =>
      split
      · next orgId appId ho ha =>
        apply (Prog.meets_map _ _ _).mpr
        exact (Reply.meets_run (henroll o a orgId appId hroute hpost ho ha)).mono fun _ _ => trivial
      · simp
    · simp
  · next e _ _ _ hroute => exact meets_serveAdmin fun hadmits r hr => hadmin hadmits e r hroute hr

end Meets

end

/-! ### Many requests -/

/-- What happens next: a request arrives, or one that is under way makes its next call. -/
inductive Move
  | request (env : Surroundings) (req : ApiRequest)
  | step (i : ℕ)

/-- A move starts the program of its request, or steps one that is under way. -/
def Move.act {G : Type} (gw : Gateway G) : Move → Act Storage Error ApiResponse
  | request env req => .start (serve gw env req)
  | step i => .step i

section

variable {G σ : Type} (gw : Gateway G) (h : Backend σ) (s : σ) (l : List Move)

/-- The state after the moves. -/
def served : Pool Storage Error σ ApiResponse := Pool.acts h ⟨s, []⟩ (l.map (Move.act gw))

/-- The response to a request, by its position among the arrivals, if it has been given. -/
def responseTo (i : ℕ) : Option (Except Error ApiResponse) :=
  (served gw h s l).threads[i]?.bind Prog.returned

end

/-! ### A gateway to run -/

/-- A gateway over `seedManager`, with an admin token. -/
def seedGateway : Gateway Bytes where
  mgr := seedManager
  adminToken := some "s3cret"
  rootCertificate g nodeId := ⟨Vector.replicate 32 (g.headD 0), nodeId, 0, 0⟩
  version := "0.1.0"

/-- One moment, without brokers, and with all identity providers out of reach. -/
def quietSurroundings : Surroundings where
  now := 1
  formation := ⟨[42], ⟨Vector.replicate 32 0, Vector.replicate 12 0, []⟩⟩
  id16 := Vector.replicate 16 0
  id8 := Vector.replicate 8 0
  genesis := []
  enroll := ⟨1, 1, 1, Vector.replicate 8 1, [], []⟩
  mesh := .new
  net _ := .error "connection refused"
  metrics := ""

/-- The header that carries the admin token of `seedGateway`. -/
def adminHeaders : HeaderMap := [("authorization", Text.utf8 "Bearer s3cret")]

end PeatGateway
