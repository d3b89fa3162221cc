import PeatGateway.Api.EnrollSound
import PeatGateway.Tenant.RateCount

/-!
# Which enrollment attempts are audited

The log is to hold an entry for every attempt.  The handler writes it after the decision, so
an attempt that is turned away before leaves no trace, and since the rate limit is computed
from the log, it does not count either.

## Main definitions

* `Enrollment.TurnedAway`, `Enrollment.Decided` — how the policy takes a request.
* `Enrollment.Audited` — the request adds the one entry it should.

## Main results

* `ends_enroll` — how a request ends.
* `enroll_audited_iff` — **a request is audited exactly if it is not turned away, and its
  entry has a key of its own**.
-/

namespace PeatGateway

open Effect Text Wire

namespace Enrollment

variable (r : Enrollment) (s : Redb)

/-! ### How the policy takes a request -/

/-- The bearer is a token that is accepted for the formation. -/
def TokenAccepted (bearer : String) : Prop :=
  ∃ t, s.tokens[tokenKey r.orgId bearer]? = some t ∧ t.appId = r.appId ∧ t.revoked = false ∧
    TenantManager.expired t r.draw.tokenNow = false ∧ TenantManager.exhausted t = false

/-- The identity provider that is asked. -/
def provider : Option IdpConfig := (s.idps.scan (belongsTo r.orgId)).find? (·.enabled)

/-- What it says. -/
def introspection (idp : IdpConfig) (bearer : String) : Except Error JsonMap :=
  introspectOidcToken r.net idp.issuerUrl idp.clientId idp.clientSecret bearer

/-- The request is turned away with 401 or 403. -/
inductive TurnedAway : EnrollmentPolicy → Prop
  | strict : TurnedAway .strict
  | noBearer (h : extractBearer r.headers r.body = none) : TurnedAway .controlled
  | token {bearer : String} (h : extractBearer r.headers r.body = some bearer)
      (hpeat : startsWith bearer "peat_" = true) (htok : ¬ r.TokenAccepted s bearer) :
      TurnedAway .controlled
  | idp {bearer : String} (h : extractBearer r.headers r.body = some bearer)
      (hpeat : startsWith bearer "peat_" = false) {idp : IdpConfig} (hidp : r.provider s = some idp)
      {e : Error} (hintro : r.introspection idp bearer = .error e) : TurnedAway .controlled

/-- The request is decided. -/
inductive Decided : EnrollmentPolicy → Prop
  | «open» : Decided .open
  | token {bearer : String} (h : extractBearer r.headers r.body = some bearer)
      (hpeat : startsWith bearer "peat_" = true) (htok : r.TokenAccepted s bearer) :
      Decided .controlled
  | idp {bearer : String} (h : extractBearer r.headers r.body = some bearer)
      (hpeat : startsWith bearer "peat_" = false) {idp : IdpConfig} (hidp : r.provider s = some idp)
      {claims : JsonMap} (hintro : r.introspection idp bearer = .ok claims) : Decided .controlled

/-- The number the handler compares with the limit. -/
def counted : ℕ :=
  ((s.listAudit r.orgId none 0xFFFFFFFFFFFFFFFF).filter fun e =>
    e.timestampMs ≥ oneHourBefore r.draw.rateNow).length

/-- The request gets as far as the policy: its body is in order, and the organization is below
its limit as the handler compares it. -/
def Admitted (org : Organization) : Prop :=
  validateBody r.body = .ok () ∧ ¬ UInt32.ofNat (r.counted s) ≥ org.quotas.maxEnrollmentsPerHour

/-- The id of the entry the request is recorded as. -/
def auditId : String := hexEncode r.draw.auditId.toList

/-- The key of the entry the request is recorded under. -/
def auditKey : String := PeatGateway.auditKey r.orgId r.draw.auditNow r.auditId

variable {r s}

theorem TurnedAway.not_decided {policy : EnrollmentPolicy} (h : r.TurnedAway s policy) :
    ¬ r.Decided s policy := by
  intro hd
  cases h with
  | strict => cases hd
  | noBearer h => cases hd <;> simp_all
  | token h hpeat htok => cases hd <;> simp_all
  | idp h hpeat hidp hintro => cases hd <;> simp_all

/-! ### How a request ends -/

/-- The check of a token accepts it, or leaves the store as it was. -/
theorem wp_validateAndConsumeToken (bearer : String) :
    (TenantManager.validateAndConsumeToken r.draw.tokenNow r.orgId r.appId bearer).Wp Redb.exec s
      (fun _ s' => s' = { s with tokens := s'.tokens } ∧ r.TokenAccepted s bearer)
      fun s' => s' = { s with tokens := s'.tokens } ∧ ¬ r.TokenAccepted s bearer := by
  simp only [TenantManager.validateAndConsumeToken, TenantManager.getToken, Prog.wp_bind, wp_store,
    Redb.exec, Prog.post_ok, Prog.wp_okOrElse, Prog.wp_ensure, Prog.wp_pure, true_and]
  refine ⟨?_, ?_⟩
  · intro t ht
    -- the checks, in the order of the source
    refine ⟨fun happ => ⟨fun hrev => ⟨fun hexp => ⟨fun hused => ?_, ?_⟩, ?_⟩, ?_⟩, ?_⟩
    · exact ⟨t, ht, happ, by simpa using hrev, by simpa using hexp, by simpa using hused⟩
    all_goals
      rintro hbad ⟨t', ht', happ', hrev', hexp', hused'⟩
      rw [ht] at ht'
      obtain rfl := Option.some.inj ht'
      simp_all
  · intro hnone
    rintro ⟨t, ht, -⟩
    rw [hnone] at ht
    cases ht

end Enrollment

/-- A refusal with 401 or 403. -/
def ApiError.Denies (e : ApiError) : Prop := e.status = .unauthorized ∨ e.status = .forbidden

/-- What comes of the match on the policy: an approval, a refusal with 401 or 403, or a refusal
with 400 because there is nobody to ask. -/
inductive Enrollment.Takes (r : Enrollment) (s : Redb) (policy : EnrollmentPolicy) :
    Except ApiError Verdict → Prop
  | approved (hd : r.Decided s policy) {v : Verdict} {tier : MeshTier} {permissions : UInt32}
      (hv : v.decision = .approved tier permissions) : Takes r s policy (.ok v)
  | denied (ht : r.TurnedAway s policy) {e : ApiError} (he : e.Denies) : Takes r s policy (.error e)
  | nobody (hd : ¬ r.Decided s policy) (ht : ¬ r.TurnedAway s policy) {e : ApiError}
      (he : e.status = .badRequest) : Takes r s policy (.error e)

section Decide

variable (r : Enrollment) (s : Redb)

theorem ends_decideByToken {bearer : String} (h : extractBearer r.headers r.body = some bearer)
    (hpeat : startsWith bearer "peat_" = true) :
    Reply.Ends Redb.exec (decideByToken r.draw.tokenNow r.orgId r.appId bearer) s fun res s' =>
      s' = { s with tokens := s'.tokens } ∧ r.Takes s .controlled res := by
  rw [decideByToken, Reply.ends_bind]
  refine Reply.ends_outcome ((Enrollment.wp_validateAndConsumeToken bearer).mono ?_ ?_)
  · rintro t s' ⟨hframe, hacc⟩
    simp only [Reply.ok_and, Reply.ends_pure]
    exact ⟨hframe, .approved (.token h hpeat hacc) rfl⟩
  · rintro s' ⟨hframe, hacc⟩ e
    simp only [Reply.ok_and, Reply.ends_refuse]
    exact ⟨hframe, .denied (.token h hpeat hacc) (Or.inl rfl)⟩

theorem ends_decideByIdp {org : Organization} (horg : s.orgs[r.orgId]? = some org)
    {bearer : String} (h : extractBearer r.headers r.body = some bearer)
    (hpeat : startsWith bearer "peat_" = false) :
    Reply.Ends Redb.exec (decideByIdp r.net r.orgId bearer) s fun res s' =>
      s' = { s with tokens := s'.tokens } ∧ r.Takes s .controlled res := by
  -- listing looks for the organization first
  have hlist : ∀ {α : Type} {c : StoreProg α} {Q : α → Redb → Prop} {E : Redb → Prop},
      c.Wp Redb.exec s Q E →
      (TenantManager.getOrg r.orgId >>= fun _ => c).Wp Redb.exec s Q E := by
    intro α c Q E hc
    simpa [TenantManager.getOrg, Redb.exec, horg] using hc
  rw [decideByIdp, Reply.ends_bind]
  refine Reply.ends_orElse (hlist ?_)
  simp only [wp_store, Redb.exec, Prog.post_ok, Reply.ok_and, Reply.error_and, Reply.ends_bind,
    Reply.ends_okOrElse, Reply.ends_ofExcept, true_and]
  refine ⟨?_, ?_⟩
  · intro idp hidp
    cases hintro : r.introspection idp bearer with
    | error e =>
      rw [Enrollment.introspection] at hintro
      rw [hintro]
      apply Reply.error_and.mpr
      exact .denied (.idp h hpeat hidp hintro) (Or.inl rfl)
    | ok claims =>
      rw [Enrollment.introspection] at hintro
      rw [hintro]
      apply Reply.ok_and.mpr
      refine Reply.ends_orElse (hlist ?_)
      simp only [wp_store, Redb.exec, Prog.post_ok, Reply.ok_and, Reply.ends_pure, true_and]
      obtain ⟨tier, permissions, heval, -⟩ :=
        evaluatePolicy_eq (s.policyRules.scan (belongsTo r.orgId)) claims
      exact .approved (.idp h hpeat hidp hintro) heval
  · intro hnone
    have hidp : r.provider s = none := hnone
    refine .nobody ?_ ?_ rfl
    · intro hd
      cases hd <;> simp_all
    · intro ht
      cases ht <;> simp_all

/-- **What comes of the match on the policy.** -/
theorem ends_decideEnrollment {org : Organization} (horg : s.orgs[r.orgId]? = some org)
    (policy : EnrollmentPolicy) :
    Reply.Ends Redb.exec (decideEnrollment r.net r.draw.tokenNow r.orgId r.appId r.headers r.body
      policy) s fun res s' => s' = { s with tokens := s'.tokens } ∧ r.Takes s policy res := by
  cases policy with
  | strict =>
    rw [decideEnrollment, Reply.ends_refuse]
    exact ⟨rfl, .denied .strict (Or.inr rfl)⟩
  | «open» =>
    rw [decideEnrollment, Reply.ends_pure]
    exact ⟨rfl, .approved .open rfl⟩
  | controlled =>
    rw [decideEnrollment, Reply.ends_bind, Reply.ends_okOrElse]
    refine ⟨?_, ?_⟩
    · intro bearer h
      apply Reply.ok_and.mpr
      split
      · next hpeat => exact ends_decideByToken r s h hpeat
      · next hpeat => exact ends_decideByIdp r s horg h (Bool.eq_false_iff.mpr hpeat)
    · intro hnone
      apply Reply.error_and.mpr
      exact ⟨rfl, .denied (.noBearer hnone) (Or.inl rfl)⟩

end Decide

/-- How a request ends. -/
inductive Enrollment.Ending (r : Enrollment) (s : Redb) :
    Except ApiError EnrollmentResponse → Redb → Prop
  /-- Something is missing or out of order, or there is nobody to ask. -/
  | refused (h : ∀ org formation, s.orgs[r.orgId]? = some org →
        s.formations[formationKey r.orgId r.appId]? = some formation → r.Admitted s org →
        ¬ r.Decided s formation.enrollmentPolicy ∧ ¬ r.TurnedAway s formation.enrollmentPolicy)
      {e : ApiError} (he : e.status = .badRequest) {s' : Redb}
      (hs' : s' = { s with tokens := s'.tokens }) : Ending r s (.error e) s'
  /-- The organization has reached its limit. -/
  | limited {org : Organization} (horg : s.orgs[r.orgId]? = some org) (hlimit : ¬ r.Admitted s org)
      (hbody : validateBody r.body = .ok ()) {e : ApiError} (he : e.status = .tooManyRequests) :
      Ending r s (.error e) s
  | denied {org : Organization} (horg : s.orgs[r.orgId]? = some org) {formation : FormationConfig}
      (hform : s.formations[formationKey r.orgId r.appId]? = some formation)
      (hadm : r.Admitted s org) (ht : r.TurnedAway s formation.enrollmentPolicy) {e : ApiError}
      (he : e.Denies) {s' : Redb} (hs' : s' = { s with tokens := s'.tokens }) :
      Ending r s (.error e) s'
  /-- The decision is recorded and returned. -/
  | approved {org : Organization} (horg : s.orgs[r.orgId]? = some org) {formation : FormationConfig}
      (hform : s.formations[formationKey r.orgId r.appId]? = some formation)
      (hadm : r.Admitted s org) (hd : r.Decided s formation.enrollmentPolicy) {v : Verdict}
      {tier : MeshTier} {permissions : UInt32} (hv : v.decision = .approved tier permissions)
      {resp : EnrollmentResponse} (hresp : resp.decision = v.decision) {s' : Redb}
      (hs' : s' = { s with
        tokens := s'.tokens
        audit := s.audit.insert r.auditKey (buildAudit r.draw r.orgId r.appId v) }) :
      Ending r s (.ok resp) s'

/-- A refusal before the policy is looked at. -/
theorem Enrollment.Ending.of_none {r : Enrollment} {s : Redb} {e : ApiError}
    (h : s.orgs[r.orgId]? = none ∨ s.formations[formationKey r.orgId r.appId]? = none ∨
      validateBody r.body ≠ .ok ()) (he : e.status = .badRequest) : r.Ending s (.error e) s := by
  refine .refused ?_ he rfl
  intro org formation horg hform hadm
  rcases h with h | h | h
  · rw [h] at horg
    cases horg
  · rw [h] at hform
    cases hform
  · exact absurd hadm.1 h

theorem status_of_validateBody {body : Option EnrollRequest} {e : ApiError}
    (h : validateBody body = .error e) : e.status = .badRequest := by
  unfold validateBody validatePublicKey at h
  grind [badRequest]

/-- **How a request ends.** -/
theorem ends_enroll {G : Type} (mgr : TenantManager G) (r : Enrollment) (s : Redb) :
    Reply.Ends Redb.exec (enroll mgr r.net r.draw r.orgId r.appId r.headers r.body) s
      (r.Ending s) := by
  rw [enroll, Reply.ends_bind]
  apply Reply.ends_orElse
  simp only [TenantManager.getOrg, Prog.wp_bind, wp_store, Redb.exec, Prog.post_ok,
    Prog.wp_okOrElse, Reply.ok_and, Reply.error_and]
  -- An organization or a formation that is not there ends the request before the log is read.
  refine ⟨?_, fun hnone e => .of_none (Or.inl hnone) rfl⟩
  intro org horg
  rw [Reply.ends_bind]
  apply Reply.ends_orElse
  simp only [TenantManager.getFormation, Prog.wp_bind, wp_store, Redb.exec, Prog.post_ok,
    Prog.wp_okOrElse, Reply.ok_and, Reply.error_and]
  refine ⟨?_, fun hnone e => .of_none (Or.inr (Or.inl hnone)) rfl⟩
  intro formation hform
  rw [Reply.ends_bind, Reply.ends_ofExcept]
  refine ⟨?_, ?_⟩
  · intro _ hbody
    rw [Reply.ends_bind]
    apply Reply.ends_orElse
    simp only [TenantManager.countRecentEnrollments, Prog.wp_bind, wp_store, Redb.exec,
      Prog.post_ok, Prog.wp_pure, ↓Reply.ok_and, ↓Reply.error_and, Reply.ends_bind,
      Reply.ends_ensure]
    refine ⟨?_, fun hrate => .limited horg (fun hadm => hrate hadm.2) hbody rfl⟩
    intro hrate
    -- Only the store at this point is described: the decision may consume a token of it.
    have hadm : r.Admitted s org := ⟨hbody, hrate⟩
    apply (ends_decideEnrollment r s horg formation.enrollmentPolicy).mono
    rintro res s₁ ⟨hframe, htakes⟩
    cases htakes with
    | denied ht he =>
      apply Reply.error_and.mpr
      exact .denied horg hform hadm ht he hframe
    | nobody hd ht he =>
      apply Reply.error_and.mpr
      -- The formation the ending speaks of is the one that was read.
      refine .refused ?_ he hframe
      intro org' formation' _ hform' _
      obtain rfl := Option.some.inj (hform.symm.trans hform')
      exact ⟨hd, ht⟩
    | approved hd hv =>
      apply Reply.ok_and.mpr
      apply Reply.ends_outcome
      -- `let _ =` drops the outcome of the write; on redb it does not fail.
      simp only [TenantManager.appendAudit, wp_store, Redb.exec, Prog.post_ok, Reply.ok_and, hv,
        Reply.ends_bind]
      apply (ends_tryIssueCertificate_redb mgr _ _ _ _ _ _).mono
      rintro _ _ ⟨⟨x, rfl⟩, rfl⟩
      simp only [Reply.ok_and, Reply.ends_pure]
      refine .approved horg hform hadm hd hv hv.symm ?_
      rw [hframe]
      rfl
  · intro e he
    refine .of_none (Or.inr (Or.inr ?_)) (status_of_validateBody he)
    rw [he]
    simp

/-- On Postgres no request gets past the rate limit: the log cannot be counted. -/
theorem ends_enroll_postgres {G : Type} (mgr : TenantManager G) (r : Enrollment) (s : Postgres)
    {Q : Except ApiError EnrollmentResponse → Prop}
    (hQ : ∀ e : ApiError, e.status = .badRequest ∨ e.status = .internalServerError →
      Q (.error e)) :
    Reply.Ends Postgres.exec (enroll mgr r.net r.draw r.orgId r.appId r.headers r.body) s
      fun res _ => Q res := by
  rw [enroll, Reply.ends_bind]
  apply Reply.ends_orElse
  simp only [TenantManager.getOrg, Prog.wp_bind, wp_store, Postgres.exec, Prog.post_ok,
    Prog.wp_okOrElse, Reply.ok_and, Reply.error_and]
  refine ⟨?_, fun _ e => hQ _ (Or.inl rfl)⟩
  intro org horg
  rw [Reply.ends_bind]
  apply Reply.ends_orElse
  simp only [TenantManager.getFormation, Prog.wp_bind, wp_store, Postgres.exec, Prog.post_ok,
    Prog.wp_okOrElse, Reply.ok_and, Reply.error_and]
  refine ⟨?_, fun _ e => hQ _ (Or.inl rfl)⟩
  intro formation hform
  rw [Reply.ends_bind, Reply.ends_ofExcept]
  refine ⟨?_, fun e he => hQ e (Or.inl (status_of_validateBody he))⟩
  intro _ hbody
  rw [Reply.ends_bind]
  apply Reply.ends_orElse
  simp only [TenantManager.countRecentEnrollments, Prog.wp_bind, wp_store, Postgres.exec]
  -- the limit becomes negative
  change ∀ e, _
  intro e
  apply Reply.error_and.mpr
  exact hQ _ (Or.inr rfl)

/-! ### Auditing -/

namespace Enrollment

/-- From one store to the other the log grows by one entry of the organization and the
formation, with a decision that satisfies `P`. -/
def Logs (r : Enrollment) (st st' : AnyStore) (P : EnrollmentDecision → Prop) : Prop :=
  ∃ e : EnrollmentAuditEntry, e.orgId = r.orgId ∧ e.appId = r.appId ∧ P e.decision ∧
    st'.log.Perm (e :: st.log)

/-- The request is audited: an answer with 200 adds the approval that is returned, a refusal
with 401 or 403 adds a denial. -/
def Audited {G : Type} (mgr : TenantManager G) (r : Enrollment) (st : AnyStore) : Prop :=
  let run := (enroll mgr r.net r.draw r.orgId r.appId r.headers r.body).run.run AnyStore.exec st
  (∀ resp, run.1 = .ok (.ok resp) → r.Logs st run.2 fun decision =>
    decision = resp.decision ∧ ∃ tier permissions, decision = .approved tier permissions) ∧
  ∀ e, run.1 = .ok (.error e) → e.Denies → r.Logs st run.2 fun decision =>
    ∃ reason, decision = .denied reason

/-- If the request gets as far as the policy, it is not turned away, and the key of the entry
it is recorded under is not in use. -/
def Recorded (r : Enrollment) (s : Redb) : Prop :=
  ∀ org formation, s.orgs[r.orgId]? = some org →
    s.formations[formationKey r.orgId r.appId]? = some formation → r.Admitted s org →
    ¬ r.TurnedAway s formation.enrollmentPolicy ∧
    (r.Decided s formation.enrollmentPolicy → s.audit[r.auditKey]? = none)

/-- A store with as many entries as before is not one with an entry more. -/
theorem not_logs_of_length {r : Enrollment} {st st' : AnyStore} {P : EnrollmentDecision → Prop}
    (h : st'.log.length = st.log.length) : ¬ r.Logs st st' P := by
  rintro ⟨e, -, -, -, hperm⟩
  have hlen := hperm.length_eq
  rw [List.length_cons] at hlen
  omega

/-- **A decision is logged exactly if the key of its entry was not in use.** -/
theorem logs_iff {r : Enrollment} {s s' : Redb} {v : Verdict}
    (hs' : s'.audit = s.audit.insert r.auditKey (buildAudit r.draw r.orgId r.appId v))
    {P : EnrollmentDecision → Prop} (hP : P v.decision) :
    r.Logs (.redb s) (.redb s') P ↔ s.audit[r.auditKey]? = none := by
  constructor
  · intro hlogs
    by_contra hused
    refine not_logs_of_length ?_ hlogs
    have hmem : s.audit.contains r.auditKey = true := by
      rw [Std.ExtTreeMap.contains_eq_isSome_getElem?]
      exact Option.isSome_iff_ne_none.mpr hused
    simp only [AnyStore.log, List.length_map, Std.ExtTreeMap.length_toList, hs',
      Std.ExtTreeMap.size_insert, if_pos hmem]
  · intro hfree
    refine ⟨buildAudit r.draw r.orgId r.appId v, rfl, rfl, hP, ?_⟩
    simp only [AnyStore.log, hs']
    exact (Table.toList_insert_perm hfree _).map Prod.snd

end Enrollment

/-- **A request is audited exactly if it is not turned away, and its entry has a key of its
own.**  On Postgres no request gets that far. -/
theorem enroll_audited_iff {G : Type} (mgr : TenantManager G) (r : Enrollment) (st : AnyStore) :
    r.Audited mgr st ↔ ∀ s, st = .redb s → r.Recorded s := by
  cases st with
  | postgres s =>
    -- The count fails, so the reply is a 400 or a 500 and nothing has to be recorded.
    have hstatus : ∀ e : ApiError, e.status = .badRequest ∨ e.status = .internalServerError →
        ¬ e.Denies := by
      rintro e he (hd | hd) <;> rcases he with he | he <;> cases hd.symm.trans he
    obtain ⟨res, hres, e, rfl, he⟩ := (ends_enroll_postgres mgr r s
      (Q := fun res => ∃ e, res = .error e ∧ ¬ e.Denies) fun e he => ⟨e, rfl, hstatus e he⟩).run
    refine iff_of_true ?_ nofun
    rw [Enrollment.Audited, AnyStore.run_postgres, hres]
    refine ⟨nofun, ?_⟩
    rintro _ ⟨⟩ hd
    exact absurd hd he
  | redb s =>
    obtain ⟨res, hres, hend⟩ := (ends_enroll mgr r s).run
    rw [Enrollment.Audited, AnyStore.run_redb, hres]
    -- The store after the request is a variable from here on, so that the endings can be split.
    generalize ((enroll mgr r.net r.draw r.orgId r.appId r.headers r.body).run.run Redb.exec s).2 =
      s' at hend
    simp only [AnyStore.redb.injEq, forall_eq']
    cases hend with
    | refused h he hs' =>
      refine iff_of_true ⟨nofun, ?_⟩ ?_
      · rintro _ ⟨⟩ (hd | hd) <;> cases hd.symm.trans he
      · intro org formation horg hform hadm
        obtain ⟨hdec, hturn⟩ := h org formation horg hform hadm
        exact ⟨hturn, fun hd => absurd hd hdec⟩
    | limited horg hlimit hbody he =>
      refine iff_of_true ⟨nofun, ?_⟩ ?_
      · rintro _ ⟨⟩ (hd | hd) <;> cases hd.symm.trans he
      · intro org formation horg' _ hadm
        obtain rfl := Option.some.inj (horg.symm.trans horg')
        exact absurd hadm hlimit
    | denied horg hform hadm ht he hs' =>
      refine iff_of_false ?_ fun hrec => (hrec _ _ horg hform hadm).1 ht
      intro haudit
      -- Turned away by the policy: the reply denies, and the log is as long as before.
      refine Enrollment.not_logs_of_length ?_ (haudit.2 _ rfl he)
      rw [hs']
      rfl
    | approved horg hform hadm hd hv hresp hs' =>
      -- Approved: one entry is written, and it is new exactly if its key was free.
      have hlogs := Enrollment.logs_iff (congrArg Redb.audit hs')
        (P := fun decision => decision = _ ∧ ∃ tier permissions,
          decision = .approved tier permissions) ⟨hresp.symm, _, _, hv⟩
      constructor
      · intro haudit org formation horg' hform' hadm'
        obtain rfl := Option.some.inj (hform.symm.trans hform')
        exact ⟨fun ht => ht.not_decided hd, fun _ => hlogs.mp (haudit.1 _ rfl)⟩
      · intro hrec
        refine ⟨?_, nofun⟩
        rintro _ ⟨⟩
        exact hlogs.mpr ((hrec _ _ horg hform hadm).2 hd)

/-! ### A request to a strict formation -/

/-- An organization and a strict formation are made. -/
def strictSchedule : Schedule Bytes :=
  [.start ((ManagerOp.createOrg 0 "a" "A").prog seedManager), .step 0, .step 0,
    .start ((ManagerOp.createFormation ⟨[42], (sampleDraws 0).envelope⟩ "a" "x" .strict).prog
      seedManager), .step 1, .step 1, .step 1, .step 1, .step 1]

/-- **A request to a strict formation is refused with 403, and no entry is written.** -/
theorem strict_not_audited :
    ¬ ∀ (mgr : TenantManager Bytes) (r : Enrollment) (s : Redb), GatewayReachable Bytes s →
      s.orgs[r.orgId]?.isSome = true →
      s.formations[formationKey r.orgId r.appId]?.isSome = true → r.Audited mgr (.redb s) := by
  intro h
  have hreach : GatewayReachable Bytes
      (Pool.acts Redb.exec ⟨.empty, []⟩ strictSchedule).store := by
    refine ⟨strictSchedule, ?_, rfl⟩
    simp only [strictSchedule, Act.forall_start_start, Act.forall_start_step, Act.forall_start_nil]
    exact ⟨.program (.op _ _), .program (.op _ _), trivial⟩
  have haudit := h seedManager tokenRequest _ hreach (by decide +kernel) (by decide +kernel)
  have hres : ((enroll seedManager tokenRequest.net tokenRequest.draw tokenRequest.orgId
      tokenRequest.appId tokenRequest.headers tokenRequest.body).run.run AnyStore.exec
      (.redb (Pool.acts Redb.exec ⟨.empty, []⟩ strictSchedule).store)).1 = .ok (.error
        ⟨.forbidden, "Formation requires explicit admin approval (Strict policy)"⟩) := by
    decide +kernel
  have hlen : ((enroll seedManager tokenRequest.net tokenRequest.draw tokenRequest.orgId
      tokenRequest.appId tokenRequest.headers tokenRequest.body).run.run AnyStore.exec
      (.redb (Pool.acts Redb.exec ⟨.empty, []⟩ strictSchedule).store)).2.log.length =
      (AnyStore.redb (Pool.acts Redb.exec ⟨.empty, []⟩ strictSchedule).store).log.length := by
    decide +kernel
  exact Enrollment.not_logs_of_length hlen (haudit.2 _ hres (Or.inr rfl))

end PeatGateway
