import PeatGateway.Api.Gate
import PeatGateway.Api.Tenants
import PeatGateway.Tenant.AuditLedger

/-!
# The log tells the truth

Enrollments of many clients are under way at a time, and each writes its decision to the log before
it is answered.  Who reads the log, or the certificates that are taken from it, sees entries of
requests that may not have been answered yet, and of others that were answered long ago.

## Main definitions

* `EnrollmentAuditEntry.Borne` — a response agrees with an entry.
* `EnrolledBy` — an arrival is a request that an entry may come from.
* `Truthful` — each entry of a list has a request of its own, which is answered as it says.

## Main results

* `accounts_enroll` — an enrollment answers for the entry it adds.
* `log_truthful` — **every entry and every certificate that is shown is that of an enrollment
  request of its own, which is answered as it says**.
-/

namespace PeatGateway

open Effect Text

/-! ### What adds to the log -/

/-- The calls of a request that adds nothing to the log. -/
def unloggedSpec : Spec Storage := auditLedger.quiet logSpec

theorem unloggedSpec_pre {c : StorageCall} :
    unloggedSpec.pre c ↔ logPre c ∧ ∀ e, c ≠ .appendAudit e := by
  refine and_congr_right fun _ => ?_
  cases c with
  | appendAudit e => exact iff_of_false (fun h => by cases h) fun h => h e rfl
  | _ => exact iff_of_true rfl fun e he => by cases he

/-- No operation but the one adds to the log. -/
theorem ManagerOp.meets_quiet {G : Type} (mgr : TenantManager G) {op : ManagerOp}
    (hop : ∀ e, op ≠ .appendAudit e) : (op.prog mgr).Meets unloggedSpec fun _ => True := by
  apply ManagerOp.meets_of_needs
  cases op
  case appendAudit e => exact absurd rfl (hop e)
  case createOrg =>
    exact fun hid _ => ⟨⟨trivial, rfl⟩, isIdentifier_of_validate hid, rfl⟩
  case updateOrg =>
    refine ⟨⟨trivial, rfl⟩, ?_⟩
    intro org horg
    obtain ⟨hid, rfl⟩ := horg org rfl
    exact ⟨hid, rfl⟩
  all_goals simp [Needs, Spec.Finds, unloggedSpec_pre, logPre]

/-! ### Enrollment -/

/-- The response to an enrollment. -/
def enrollResponse : Except ApiError EnrollmentResponse → ApiResponse
  | .ok r => ⟨.ok, .json r.write⟩
  | .error e => ⟨e.status.toHttp, .text e.message⟩

/-- The response agrees with the entry: an approval is answered with what was decided, and a denial
with its reason. -/
def EnrollmentAuditEntry.Borne (e : EnrollmentAuditEntry) (resp : ApiResponse) : Prop :=
  match e.decision with
  | .approved tier permissions => ∃ certificate meshId authorityPublicKey, resp = ⟨.ok, .json
      (EnrollmentResponse.write ⟨.approved tier permissions, e.auditId, certificate, meshId,
        authorityPublicKey⟩)⟩
  | .denied reason => resp = ⟨.forbidden, .text reason⟩

theorem borne_approved {e : EnrollmentAuditEntry} {tier : MeshTier} {permissions : UInt32}
    (h : e.decision = .approved tier permissions) (certificate meshId key : Option String) :
    e.Borne (enrollResponse (.ok ⟨.approved tier permissions, e.auditId, certificate, meshId,
      key⟩)) := by
  unfold EnrollmentAuditEntry.Borne
  rw [h]
  exact ⟨certificate, meshId, key, rfl⟩

theorem borne_denied {e : EnrollmentAuditEntry} {reason : String}
    (h : e.decision = .denied reason) : e.Borne (enrollResponse (.error (forbidden reason))) := by
  unfold EnrollmentAuditEntry.Borne
  rw [h]
  rfl

section Enroll

variable {G : Type} (mgr : TenantManager G)

/-- **An enrollment answers for the entry it adds**: the entry is of its formation, no other
follows, and the response agrees with it. -/
theorem accounts_enroll (net : Internet) (d : EnrollDraw) (orgId appId : String)
    (headers : HeaderMap) (body : Option EnrollRequest) :
    auditLedger.Accounts logSpec (fun e => e.orgId = orgId ∧ e.appId = appId)
      (fun e r => e.Borne (enrollResponse r)) (enroll mgr net d orgId appId headers body).run := by
  have hop : ∀ op : ManagerOp, op.InEnroll orgId appId →
      (op.prog mgr).Meets unloggedSpec fun _ => True := by
    intro op hop
    apply op.meets_quiet mgr
    rintro e rfl
    exact hop
  have hfound : (TenantManager.getOrg orgId).Meets unloggedSpec fun _ => IsIdentifier orgId :=
    meets_getOrg_of_finds ⟨⟨trivial, rfl⟩, fun o ho => (ho o rfl).1⟩
  have hformation := hop (.getFormation orgId appId) ⟨rfl, rfl⟩
  have hcount := hop (.countRecentEnrollments orgId (oneHourBefore d.rateNow)) rfl
  unfold enroll
  refine Ledger.accounts_reply ((Reply.meets_orElse hfound).mono fun org hid => ?_)
  refine Ledger.accounts_reply ((Reply.meets_orElse_of_map hformation).mono fun formation _ => ?_)
  refine Ledger.accounts_reply ((Reply.meets_ofExcept _).mpr fun _ _ => ?_)
  refine Ledger.accounts_reply ((Reply.meets_orElse_of_map hcount).mono fun recent _ => ?_)
  refine Ledger.accounts_reply ((Reply.meets_ensure _ _ _).mpr fun _ => ?_)
  refine Ledger.accounts_reply ((meets_decideEnrollment mgr hop net d.tokenNow headers body
    formation.enrollmentPolicy).mono fun v _ => ?_)
  -- the decision is made, and written to the log
  show auditLedger.Accounts logSpec _ _
    (Prog.call (StorageCall.appendAudit (buildAudit d orgId appId v)) _)
  refine Ledger.accounts_call hid rfl ⟨rfl, rfl⟩ ?_
  intro _
  cases hv : v.decision with
  | denied reason => exact (Prog.meets_ok _).mpr (borne_denied hv)
  | approved tier permissions =>
    have hload := (Prog.meets_map _ _ _).mp (hop (.loadGenesis d.genesis orgId appId) ⟨rfl, rfl⟩)
    refine (Prog.meets_bind (tryIssueCertificate mgr d orgId appId (.approved tier permissions)
      body).run _ _).mpr ((meets_tryIssueCertificate mgr hload _ body).mono ?_)
    rintro _ ⟨⟨certificate, meshId, key⟩, rfl⟩
    exact (Prog.meets_ok _).mpr (borne_approved hv certificate meshId key)

end Enroll

/-! ### Requests -/

section Serve

variable {G : Type} (gw : Gateway G) (env : Surroundings)

/-- The request is an enrollment that the entry may come from. -/
def ApiRequest.Enrolls (req : ApiRequest) (e : EnrollmentAuditEntry) : Prop :=
  req.method = .post ∧ ∃ o a, route req.path = some (.enroll o a) ∧
    pathParam o = .ok e.orgId ∧ pathParam a = .ok e.appId

theorem AdminRequest.appendAudit_not_mem_ops (r : AdminRequest) (e : EnrollmentAuditEntry) :
    .appendAudit e ∉ r.ops env := by
  intro h
  cases r
  case listCertificates =>
    simp only [ops, List.mem_cons, List.not_mem_nil, or_false] at h
    rcases h with h | h | h <;> cases h
  all_goals cases List.mem_singleton.mp h

/-- **Every request answers for what it adds to the log.** -/
theorem accounts_serve (req : ApiRequest) :
    auditLedger.Accounts logSpec req.Enrolls EnrollmentAuditEntry.Borne (serve gw env req) := by
  by_cases henroll : ∃ o a orgId appId, route req.path = some (.enroll o a) ∧
      req.method = .post ∧ pathParam o = .ok orgId ∧ pathParam a = .ok appId
  · obtain ⟨o, a, orgId, appId, hroute, hpost, ho, ha⟩ := henroll
    have hdispatch : dispatch gw env req = answerEnroll gw env orgId appId req := by
      unfold dispatch
      simp only [hroute, hpost, ho, ha]
    have hhead : ¬ req.method = .head := by
      rw [hpost]
      decide
    have haccounts := accounts_enroll gw.mgr env.net env.enroll orgId appId req.headers
      (optionalBody req.body)
    unfold serve
    rw [hdispatch]
    apply Ledger.accounts_map
    simp only [if_neg hhead]
    refine Ledger.accounts_map (haccounts.mono ?_)
    rintro e ⟨rfl, rfl⟩
    exact ⟨hpost, o, a, hroute, ho, ha⟩
  · apply Ledger.accounts_of_quiet (Q := fun _ => True)
    apply meets_serve
    · intro _ e r _ hr op hop
      apply op.meets_quiet gw.mgr
      rintro entry rfl
      exact AdminRequest.appendAudit_not_mem_ops env r entry hop
    · intro o a orgId appId hroute hpost ho ha
      exact absurd ⟨o, a, orgId, appId, hroute, hpost, ho, ha⟩ henroll

end Serve

/-! ### What is shown of the log -/

/-- The entries are of the organization, and of the application if there is one. -/
def Matching (orgId : String) (appId : Option String) (entries : List EnrollmentAuditEntry) :
    Prop :=
  ∀ e ∈ entries, e.orgId = orgId ∧ ∀ a, appId = some a → e.appId = a

/-- A list of entries is shown. -/
def AuditShown (K : List EnrollmentAuditEntry → Prop) (orgId : String) (appId : Option String)
    (payload : Payload) : Prop :=
  ∃ entries, K entries ∧ Matching orgId appId entries ∧
    payload = jsonList EnrollmentAuditEntry.codec.write entries

/-- The certificate of the authority is shown, and those of a list of entries. -/
def CertificatesShown {G : Type} (gw : Gateway G) (K : List EnrollmentAuditEntry → Prop)
    (orgId appId : String) (payload : Payload) : Prop :=
  ∃ genesis entries, K entries ∧ Matching orgId (some appId) entries ∧
    payload = jsonList CertificateSummary.write
      (authorityCertificate (gw.rootCertificate genesis "authority-0") ::
        entries.filterMap entryCertificate)

/-- What a success shows of the log, by the request. -/
def ApiRequest.Shown {G : Type} (gw : Gateway G) (req : ApiRequest)
    (K : List EnrollmentAuditEntry → Prop) (resp : ApiResponse) : Prop :=
  req.method = .get → resp.status = .ok → ∀ e, route req.path = some e →
    (∀ orgId appId limit, req.extract e = .ok (.listAudit orgId appId limit) →
      AuditShown K orgId appId resp.payload) ∧
    ∀ orgId appId, req.extract e = .ok (.listCertificates orgId appId) →
      CertificatesShown gw K orgId appId resp.payload

section Shown

variable {G : Type} {gw : Gateway G} {K K' : List EnrollmentAuditEntry → Prop}

theorem ApiRequest.Shown.mono {req : ApiRequest} {resp : ApiResponse} (h : req.Shown gw K resp)
    (hK : ∀ entries, K entries → K' entries) : req.Shown gw K' resp := by
  intro hget hok e hroute
  obtain ⟨haudit, hcerts⟩ := h hget hok e hroute
  constructor
  · intro orgId appId limit hr
    obtain ⟨entries, hentries, hrest⟩ := haudit orgId appId limit hr
    exact ⟨entries, hK entries hentries, hrest⟩
  · intro orgId appId hr
    obtain ⟨genesis, entries, hentries, hrest⟩ := hcerts orgId appId hr
    exact ⟨genesis, entries, hK entries hentries, hrest⟩

/-- A listing of the log. -/
theorem meets_listAudit (orgId : String) (appId : Option String) (limit : UInt64) :
    (TenantManager.listAudit orgId appId limit).Meets (auditLedger.telling logSpec K)
      fun entries => K entries ∧ Matching orgId appId entries := by
  simp only [TenantManager.listAudit, Prog.meets_bind, meets_store]
  have hfound : (TenantManager.getOrg orgId).Meets (auditLedger.telling logSpec K) fun _ =>
      IsIdentifier orgId := meets_getOrg_of_finds ⟨trivial, fun o ho => (ho.1 o rfl).1⟩
  refine hfound.mono fun _ hid => ⟨trivial, ?_⟩
  intro entries hentries
  exact ⟨hentries.2, hentries.1 hid⟩

theorem decides_listAudit (env : Surroundings) (orgId : String) (appId : Option String)
    (limit : UInt64) :
    Decides (auditLedger.telling logSpec K) (answer gw env (.listAudit orgId appId limit))
      fun resp => AuditShown K orgId appId resp.payload := by
  refine decides_bind ((decides_orElse (meets_listAudit orgId appId limit) (by decide)).mono ?_)
  intro entries hentries
  exact decides_pure ⟨entries, hentries.1, hentries.2, rfl⟩

theorem decides_listCertificates (env : Surroundings) (orgId appId : String) :
    Decides (auditLedger.telling logSpec K) (answer gw env (.listCertificates orgId appId))
      fun resp => CertificatesShown gw K orgId appId resp.payload := by
  have hany : ∀ {α : Type} (p : StoreProg α),
      p.Meets (auditLedger.telling logSpec K) fun _ => True :=
    Prog.meets_of_pre fun _ => trivial
  have hlist : Decides (auditLedger.telling logSpec K)
      (listCertificates gw.mgr gw.rootCertificate env.genesis orgId appId) fun certificates =>
        ∃ genesis entries, K entries ∧ Matching orgId (some appId) entries ∧
          certificates = authorityCertificate (gw.rootCertificate genesis "authority-0") ::
            entries.filterMap entryCertificate := by
    refine decides_bind ((decides_orElse (hany _) (by decide)).mono fun _ _ => ?_)
    refine decides_bind ((decides_orElse (hany _) (by decide)).mono fun genesis _ => ?_)
    refine decides_bind ((decides_orElse (meets_listAudit _ _ _) (by decide)).mono ?_)
    intro entries hentries
    exact decides_pure ⟨genesis, entries, hentries.1, hentries.2, rfl⟩
  refine decides_bind (hlist.mono ?_)
  intro certificates h
  obtain ⟨genesis, entries, hentries, hmatching, rfl⟩ := h
  exact decides_pure ⟨genesis, entries, hentries, hmatching, rfl⟩

/-- Behind a public endpoint there is no handler of the administrator. -/
theorem isPublic_of_extract {req : ApiRequest} {e : Endpoint} {r : AdminRequest}
    (hr : req.extract e = .ok r) : e.isPublic = false := by
  cases e
  case enroll | health | metrics => cases hr
  all_goals rfl

/-- **What is shown of the log is a list that was read from it.** -/
theorem serve_shown (env : Surroundings) (req : ApiRequest) :
    (serve gw env req).Meets (auditLedger.telling logSpec K) (req.Shown gw K) := by
  have hvacuous : ∀ {Q : ApiResponse → Prop}, (∀ resp, Q resp) →
      (serve gw env req).Meets (auditLedger.telling logSpec K) Q :=
    fun hQ => (Prog.meets_of_pre (fun _ => trivial) _).mono fun resp _ => hQ resp
  by_cases hget : req.method = .get
  swap
  · exact hvacuous fun _ hmethod => absurd hmethod hget
  cases hroute : route req.path with
  | none =>
    refine hvacuous ?_
    intro resp _ _ e he
    rw [hroute] at he
    cases he
  | some e =>
    -- it is one of the two listings, or nothing of the log is shown
    by_cases haudit : ∃ orgId appId limit, req.extract e = .ok (.listAudit orgId appId limit)
    · obtain ⟨orgId, appId, limit, hr⟩ := haudit
      refine (serve_of_decides hroute (isPublic_of_extract hr) hget hr
        (decides_listAudit env orgId appId limit)).mono ?_
      intro resp hshown _ hok e' he'
      obtain rfl := Option.some.inj (hroute.symm.trans he')
      rw [hr]
      constructor
      · rintro _ _ _ ⟨⟩
        exact hshown hok
      · rintro _ _ ⟨⟩
    · by_cases hcerts : ∃ orgId appId, req.extract e = .ok (.listCertificates orgId appId)
      · obtain ⟨orgId, appId, hr⟩ := hcerts
        refine (serve_of_decides hroute (isPublic_of_extract hr) hget hr
          (decides_listCertificates env orgId appId)).mono ?_
        intro resp hshown _ hok e' he'
        obtain rfl := Option.some.inj (hroute.symm.trans he')
        rw [hr]
        constructor
        · rintro _ _ _ ⟨⟩
        · rintro _ _ ⟨⟩
          exact hshown hok
      · refine hvacuous ?_
        intro resp _ _ e' he'
        obtain rfl := Option.some.inj (hroute.symm.trans he')
        exact ⟨fun o a n hr => absurd ⟨o, a, n, hr⟩ haudit, fun o a hr => absurd ⟨o, a, hr⟩ hcerts⟩

end Shown

/-! ### Schedules -/

section Truthful

variable {G : Type} (gw : Gateway G)

/-- No entry is in the list twice, and each that was not in the log at the start has an enrollment
request of its own, for its formation, whose response, if it has been given, agrees with it. -/
def Truthful (s : AnyStore) (l : List Move) (entries : List EnrollmentAuditEntry) : Prop :=
  entries.Nodup ∧ ∃ owner : EnrollmentAuditEntry → ℕ,
    (∀ e ∈ entries, ¬ s.HasEntry e →
      (∃ req, (arrivals l)[owner e]? = some req ∧ req.Enrolls e) ∧
      ∀ resp, responseTo gw AnyStore.exec s l (owner e) = some (.ok resp) → e.Borne resp) ∧
    ∀ e ∈ entries, ¬ s.HasEntry e → ∀ e' ∈ entries, ¬ s.HasEntry e' →
      owner e = owner e' → e = e'

/-- The programs of a schedule are those of its arrivals. -/
theorem starts_served {l : List Move} {i : ℕ} {p : StoreProg ApiResponse}
    (h : (Act.starts (l.map (Move.act gw)))[i]? = some p) :
    ∃ env req, (arrivals l)[i]? = some req ∧ p = serve gw env req := by
  induction l generalizing i with
  | nil => cases h
  | cons m l ih =>
    cases m with
    | step j => exact ih h
    | request env req =>
      cases i with
      | zero => exact ⟨env, req, rfl, (Option.some.inj h).symm⟩
      | succ i => exact ih h

/-- **The log tells the truth.**  Whatever is asked for on either backend, and however the storage
calls of all requests are interleaved: the entries that are shown of a log that is in order at the
start, and those that the shown certificates are taken from, are of the formation that was asked
for; none is shown twice; and each that was not there at the start is that of an enrollment request
of its own, whose response agrees with it. -/
theorem log_truthful {s : AnyStore} (hs : s.LogInOrder) (l : List Move) {i : ℕ} {req : ApiRequest}
    {resp : ApiResponse} (hreq : (arrivals l)[i]? = some req) (hget : req.method = .get)
    (hresp : responseTo gw AnyStore.exec s l i = some (.ok resp)) (hok : resp.status = .ok)
    {e : Endpoint} (hroute : route req.path = some e) :
    (∀ orgId appId limit, req.extract e = .ok (.listAudit orgId appId limit) →
      AuditShown (Truthful gw s l) orgId appId resp.payload) ∧
    ∀ orgId appId, req.extract e = .ok (.listCertificates orgId appId) →
      CertificatesShown gw (Truthful gw s l) orgId appId resp.payload := by
  let origin : ℕ → EnrollmentAuditEntry → Prop := fun i e =>
    ∃ req, (arrivals l)[i]? = some req ∧ req.Enrolls e
  let shown : ℕ → (List EnrollmentAuditEntry → Prop) → ApiResponse → Prop := fun i K resp =>
    ∀ req, (arrivals l)[i]? = some req → req.Shown gw K resp
  have hkept : auditLedger.Kept logSpec (auditLedger.holds s) origin EnrollmentAuditEntry.Borne
      shown AnyStore.LogInOrder (served gw AnyStore.exec s l) := by
    refine Ledger.acts_traced auditLedger_sound logSpec_sound hs ?_
    intro i p hp
    obtain ⟨env, req, hreq, rfl⟩ := starts_served gw hp
    refine ⟨(accounts_serve gw env req).mono fun e he => ⟨req, hreq, he⟩, ?_⟩
    intro K _
    refine (serve_shown env req).mono ?_
    intro resp hshown req' hreq'
    obtain rfl := Option.some.inj (hreq.symm.trans hreq')
    exact hshown
  have hlisted : ∀ entries, auditLedger.Listed logSpec (auditLedger.holds s) origin
      EnrollmentAuditEntry.Borne (served gw AnyStore.exec s l) entries →
      Truthful gw s l entries := by
    intro entries hentries
    obtain ⟨owner, howner, hinj⟩ := hentries.2.returned
    exact ⟨hentries.1, owner, howner, fun e he hnew e' he' => hinj e e' he hnew he'⟩
  exact (hkept.returned hresp req hreq).mono hlisted hget hok e hroute

end Truthful

/-- An enrollment is under way while the certificates of its formation are asked for. -/
def oneEnrolled : List Move :=
  [.request quietSurroundings ⟨.post, ["orgs"], [], adminHeaders,
      .json (.object [("org_id", .string "acme"), ("display_name", .string "Acme")]) .data⟩,
    .step 0, .step 0,
    .request quietSurroundings ⟨.post, ["orgs", "acme", "formations"], [], adminHeaders,
      .json (.object [("app_id", .string "logistics"), ("enrollment_policy", .string "Open")])
        .data⟩,
    .step 1, .step 1, .step 1, .step 1, .step 1,
    .request quietSurroundings ⟨.post, ["orgs", "acme", "formations", "logistics", "enroll"], [],
      [], .notJson⟩,
    .request quietSurroundings ⟨.get,
      ["orgs", "acme", "formations", "logistics", "certificates"], [], adminHeaders, .notJson⟩,
    .step 2, .step 3, .step 2, .step 3, .step 2, .step 3, .step 2, .step 3]

/-- The certificates that are shown can be traced. -/
theorem log_truthful_one :
    ∃ resp, responseTo seedGateway AnyStore.exec (.redb .empty) oneEnrolled 3 = some (.ok resp) ∧
      CertificatesShown seedGateway (Truthful seedGateway (.redb .empty) oneEnrolled) "acme"
        "logistics" resp.payload := by
  have hanswered : ((responseTo seedGateway AnyStore.exec (.redb .empty) oneEnrolled 3).bind
      Except.toOption).any (fun resp => resp.status = .ok) = true := by decide +kernel
  obtain ⟨resp, hreturned, hstatus⟩ := (Option.any_eq_true _ _).mp hanswered
  obtain ⟨r, hresp, hr⟩ := Option.bind_eq_some_iff.mp hreturned
  have hok : r = .ok resp := by
    cases r with
    | error e => cases hr
    | ok a => exact congrArg Except.ok (Option.some.inj hr)
  subst hok
  have hextract : ApiRequest.extract ⟨.get,
      ["orgs", "acme", "formations", "logistics", "certificates"], [], adminHeaders, .notJson⟩
      (.certificates "acme" "logistics") = .ok (.listCertificates "acme" "logistics") := by
    decide +kernel
  obtain ⟨-, hshown⟩ := log_truthful seedGateway AnyStore.logInOrder_empty.1 oneEnrolled rfl rfl
    hresp (of_decide_eq_true hstatus) rfl
  exact ⟨resp, hresp, hshown _ _ hextract⟩

end PeatGateway
