import PeatGateway.Api.Enroll
import PeatGateway.Tenant.Keyed

/-!
# Enrollment lets in only who is entitled

The handler has a dozen early exits and three ways to an approval.  Whatever the identity
provider answers, an answer with status 200 means that one of the three ways has been gone
to its end.

## Main definitions

* `ManagerOp.InEnroll` — the operations that an enrollment is made of.
* `GatewayReachable` — the stores that operations, migrations and requests lead to.
* `recentEntries` — the entries of an organization within the last hour.
* `ByPolicy`, `ByToken`, `ByIdp` — the three ways.
* `Entitled` — exactly one of them.

## Main results

* `meets_enroll_of` — an enrollment makes the calls of its operations.
* `GatewayReachable.keyed` — in every reachable store records lie under their own keys.
* `answers_decideByToken`, `answers_decideByIdp` — what the two checks of a bearer establish.
* `enroll_sound` — **every approval is one of an open formation, of a valid token, or of an
  identity provider**, within the rate limit.
-/

namespace PeatGateway

open Effect Text

/-! ### The calls of an enrollment -/

/-- The operations that an enrollment is made of, but for the entry in the log. -/
def ManagerOp.InEnroll (orgId appId : String) : ManagerOp → Prop
  | getOrg o | countRecentEnrollments o _ | listIdps o | listPolicyRules o => o = orgId
  | getFormation o a | validateAndConsumeToken _ o a _ | loadGenesis _ o a =>
    o = orgId ∧ a = appId
  | _ => False

theorem ManagerOp.InEnroll.orgId_eq {orgId appId : String} {op : ManagerOp}
    (h : op.InEnroll orgId appId) : op.orgId = some orgId := by
  cases op
  case getOrg | countRecentEnrollments | listIdps | listPolicyRules => exact congrArg some h
  case getFormation | validateAndConsumeToken | loadGenesis => exact congrArg some h.1
  all_goals exact h.elim

/-- It reads, or consumes a token. -/
theorem ManagerOp.InEnroll.isRead_or {orgId appId : String} {op : ManagerOp}
    (h : op.InEnroll orgId appId) :
    op.isRead = true ∨ ∃ now tokenId, op = .validateAndConsumeToken now orgId appId tokenId := by
  cases op
  case validateAndConsumeToken now o a tokenId =>
    obtain ⟨rfl, rfl⟩ := h
    exact Or.inr ⟨now, tokenId, rfl⟩
  all_goals first | exact h.elim | exact Or.inl rfl

section Meets

variable {G : Type} (mgr : TenantManager G) {Φ : Spec Storage} {orgId appId : String}
  (hop : ∀ op : ManagerOp, op.InEnroll orgId appId → (op.prog mgr).Meets Φ fun _ => True)

include hop

theorem meets_decideEnrollment (net : Internet) (now : UInt64) (headers : HeaderMap)
    (body : Option EnrollRequest) (policy : EnrollmentPolicy) :
    Reply.Meets Φ (decideEnrollment net now orgId appId headers body policy) fun _ => True := by
  cases policy with
  | strict => simp [decideEnrollment]
  | «open» => simp [decideEnrollment]
  | controlled =>
    simp only [decideEnrollment, Reply.meets_bind, Reply.meets_okOrElse]
    intro bearer _
    split
    -- A bearer that starts like a token is never shown to an identity provider.
    · have htoken := hop (.validateAndConsumeToken now orgId appId bearer) ⟨rfl, rfl⟩
      simp only [decideByToken, Reply.meets_bind]
      refine Reply.meets_outcome (((Prog.meets_map _ _ _).mp htoken).mono ?_) ?_
      · simp
      · simp
    · simp only [decideByIdp, Reply.meets_bind, Reply.meets_okOrElse, Reply.meets_ofExcept,
        Reply.meets_pure]
      refine (Reply.meets_orElse_of_map (hop (.listIdps orgId) rfl)).mono fun _ _ _ _ _ _ => ?_
      exact (Reply.meets_orElse_of_map (hop (.listPolicyRules orgId) rfl)).mono fun _ _ => trivial

/-- **What the handler does to the store**: what its operations do, and an entry in the log, of an
organization that has been found. -/
theorem meets_enroll_of {P : Prop} (hfound : (TenantManager.getOrg orgId).Meets Φ fun _ => P)
    (net : Internet) (d : EnrollDraw)
    (haudit : P → ∀ v, Φ.pre (.appendAudit (buildAudit d orgId appId v))) (headers : HeaderMap)
    (body : Option EnrollRequest) :
    Reply.Meets Φ (enroll mgr net d orgId appId headers body) fun _ => True := by
  have hformation := hop (.getFormation orgId appId) ⟨rfl, rfl⟩
  simp only [enroll, Reply.meets_bind, Reply.meets_ofExcept, Reply.meets_ensure]
  refine (Reply.meets_orElse hfound).mono fun org hp => ?_
  refine (Reply.meets_orElse_of_map hformation).mono fun formation _ _ _ => ?_
  refine (Reply.meets_orElse_of_map (hop (.countRecentEnrollments orgId _) rfl)).mono
    fun _ _ _ => ?_
  refine (meets_decideEnrollment mgr hop net _ headers body _).mono fun v _ => ?_
  -- The reply does not depend on whether the entry was written.
  refine Reply.Meets.mono (Q := fun _ => True) (Reply.meets_outcome ?_ fun _ => trivial) ?_
  · simp only [TenantManager.appendAudit, meets_store]
    exact ⟨haudit hp v, fun _ _ => trivial⟩
  · intro _ _
    split
    · simp
    · have hload := (Prog.meets_map _ _ _).mp (hop (.loadGenesis d.genesis orgId appId) ⟨rfl, rfl⟩)
      rw [Reply.meets_bind]
      refine (Reply.meets_of_run (meets_tryIssueCertificate mgr hload _ body)).mono ?_
      simp

end Meets

/-- The calls of an enrollment are those of operations of its organization. -/
theorem meets_enroll_ops {G : Type} (mgr : TenantManager G) {Φ : Spec Storage} {orgId : String}
    (h : ∀ op : ManagerOp, op.orgId = some orgId → (op.prog mgr).Meets Φ fun _ => True)
    (net : Internet) (d : EnrollDraw) (appId : String) (headers : HeaderMap)
    (body : Option EnrollRequest) :
    Reply.Meets Φ (enroll mgr net d orgId appId headers body) fun _ => True := by
  refine meets_enroll_of mgr (P := True) (fun op hop => h op hop.orgId_eq)
    ((Prog.meets_map _ _ _).mp (h (.getOrg orgId) rfl)) net d ?_ headers body
  intro _ v
  have haudit := (Prog.meets_map _ _ _).mp (h (.appendAudit (buildAudit d orgId appId v)) rfl)
  simp only [TenantManager.appendAudit, meets_store] at haudit
  exact haudit.1

/-! ### Reachable stores -/

/-- **The handler makes only calls that keep records under their own keys**, and writes only
in its organization. -/
theorem meets_enroll {G : Type} (mgr : TenantManager G) {scope : String → Prop} {orgId : String}
    (hs : InScope scope orgId) (net : Internet) (d : EnrollDraw) (appId : String)
    (headers : HeaderMap) (body : Option EnrollRequest) :
    Reply.Meets (callSpec scope) (enroll mgr net d orgId appId headers body) fun _ => True := by
  refine meets_enroll_ops mgr (fun op hop => op.meets mgr ?_) net d appId headers body
  intro o ho
  obtain rfl := Option.some.inj (hop.symm.trans ho)
  exact hs

/-- What runs over the store of a gateway: the operations of its managers, the migration
command, and enrollment requests. -/
inductive IsGatewayProgram (G : Type) : StoreProg (Outcome G) → Prop
  | program {p : StoreProg (Outcome G)} (h : IsProgram G p) : IsGatewayProgram G p
  | enroll (mgr : TenantManager G) (net : Internet) (d : EnrollDraw) (orgId appId : String)
      (headers : HeaderMap) (body : Option EnrollRequest) :
      IsGatewayProgram G ((enroll mgr net d orgId appId headers body).run.map fun _ => .unit)

/-- The store is reached from the empty one by such programs, their storage transactions
interleaved in any way. -/
def GatewayReachable (G : Type) (s : Redb) : Prop :=
  ∃ l : Schedule G, (∀ p, Act.start p ∈ l → IsGatewayProgram G p) ∧
    (Pool.acts Redb.exec ⟨.empty, []⟩ l).store = s

/-- **In every reachable store records lie under their own keys.** -/
theorem GatewayReachable.keyed {G : Type} {s : Redb} (h : GatewayReachable G s) : s.Keyed := by
  obtain ⟨l, hl, rfl⟩ := h
  refine (Pool.acts_meets (Q := fun _ => True) (callSpec_sound fun _ => True) Redb.keyed_empty
    ?_ ?_).1
  · intro p hp
    cases hp
  · intro p hp
    cases hl p hp with
    | program h => exact h.meets
    | enroll mgr net d orgId appId headers body =>
      apply (Prog.meets_map _ _ _).mpr
      exact (Reply.meets_run (meets_enroll mgr (fun _ _ => trivial) net d appId headers body)).mono
        fun _ _ => trivial

/-! ### The rate limit -/

/-- The number of entries of the organization from an hour before `now` on. -/
def recentEntries (s : Redb) (orgId : String) (now : UInt64) : ℕ :=
  s.audit.toList.countP fun row =>
    row.2.orgId == orgId && decide (now.toNat ≤ row.2.timestampMs.toNat + 3600000)

theorem oneHourBefore_le_iff {now t : UInt64} :
    oneHourBefore now ≤ t ↔ now.toNat ≤ t.toNat + 3600000 := by
  unfold oneHourBefore
  split
  · next h =>
    rw [UInt64.lt_iff_toNat_lt] at h
    have h' : now.toNat < 3600000 := h
    refine iff_of_true ?_ (by omega)
    rw [UInt64.le_iff_toNat_le]
    exact Nat.zero_le _
  · next h =>
    rw [UInt64.not_lt] at h
    rw [UInt64.le_iff_toNat_le, UInt64.toNat_sub_of_le _ _ h]
    have h' : (3600000 : UInt64).toNat = 3600000 := rfl
    omega

/-- The count is at least the number of entries of the organization, and no wider than the
log. -/
theorem wp_countRecentEnrollments {s : Redb} (hs : s.Keyed) (hlen : s.audit.size < 2 ^ 32)
    (orgId : String) (now : UInt64) :
    (TenantManager.countRecentEnrollments orgId (oneHourBefore now)).Wp Redb.exec s
      (fun n s' => s' = s ∧ recentEntries s orgId now ≤ n ∧ n < 2 ^ 32) fun _ => True := by
  simp only [TenantManager.countRecentEnrollments, Prog.wp_bind, wp_store, Redb.exec, Prog.post_ok,
    Prog.wp_pure, true_and]
  have hsize : s.audit.toList.length < 2 ^ 32 := by rwa [Std.ExtTreeMap.length_toList]
  -- the limit is beyond the length of the log
  have hscan : (s.audit.scan (belongsTo orgId)).length < 2 ^ 64 := by
    have hle := List.length_filter_le (fun kv => belongsTo orgId kv.1) s.audit.toList
    rw [Table.scan, List.length_map]
    omega
  have hcount : ((s.listAudit orgId none 0xFFFFFFFFFFFFFFFF).filter
      fun e => decide (e.timestampMs ≥ oneHourBefore now)).length =
      s.audit.toList.countP fun row => belongsTo orgId row.1 &&
        decide (now.toNat ≤ row.2.timestampMs.toNat + 3600000) := by
    rw [Redb.listAudit_max hscan, List.filter_reverse, List.length_reverse, Table.scan,
      List.filter_map, List.length_map, List.filter_filter, ← List.countP_eq_length_filter]
    apply List.countP_congr
    intro row _
    simp only [Function.comp_apply, Bool.and_eq_true, decide_eq_true_eq, ge_iff_le,
      oneHourBefore_le_iff]
    exact and_comm
  rw [hcount]
  refine ⟨List.countP_mono_left ?_, lt_of_le_of_lt (List.countP_le_length) hsize⟩
  rintro ⟨k, e⟩ hmem hrow
  have hk := hs.audit k e (Std.ExtTreeMap.mem_toList_iff_getElem?_eq_some.mp hmem)
  simp only [Bool.and_eq_true, beq_iff_eq, decide_eq_true_eq] at hrow ⊢
  refine ⟨?_, hrow.2⟩
  rw [hk, hrow.1]
  exact belongsTo_nulKey _ _

/-! ### The three ways -/

/-- What a request is made with, and what it meets. -/
structure Enrollment where
  net : Internet
  draw : EnrollDraw
  orgId : String
  appId : String
  headers : HeaderMap
  body : Option EnrollRequest

namespace Enrollment

variable (r : Enrollment)

/-- The formation is open: anyone gets the lowest tier, and no token changes. -/
def ByPolicy (policy : EnrollmentPolicy) (tier : MeshTier) (permissions : UInt32)
    (s s' : Redb) : Prop :=
  policy = .open ∧ tier = .endpoint ∧ permissions = 0 ∧ s'.tokens = s.tokens

/-- The formation is controlled and the bearer is a token of the organization for it, neither
revoked nor expired nor used up.  It gets the lowest tier, and the token counts one use
more. -/
def ByToken (policy : EnrollmentPolicy) (tier : MeshTier) (permissions : UInt32)
    (s s' : Redb) : Prop :=
  policy = .controlled ∧ ∃ bearer, extractBearer r.headers r.body = some bearer ∧
    startsWith bearer "peat_" = true ∧
    ∃ t, s.tokens[tokenKey r.orgId bearer]? = some t ∧ t.orgId = r.orgId ∧ t.tokenId = bearer ∧
      t.appId = r.appId ∧ t.revoked = false ∧ (∀ e, t.expiresAt = some e → r.draw.tokenNow ≤ e) ∧
      (∀ m, t.maxUses = some m → t.uses < m) ∧ tier = .endpoint ∧ permissions = 0 ∧
      s'.tokens = s.tokens.insert (tokenKey r.orgId bearer) { t with uses := t.uses + 1 }

/-- The formation is controlled, the bearer is no token, and an enabled identity provider of
the organization vouches for it.  It gets what the rules of the organization grant for the
claims, and no token changes. -/
def ByIdp (policy : EnrollmentPolicy) (tier : MeshTier) (permissions : UInt32)
    (s s' : Redb) : Prop :=
  policy = .controlled ∧ ∃ bearer, extractBearer r.headers r.body = some bearer ∧
    startsWith bearer "peat_" = false ∧
    ∃ idp claims rules, s.idps[idpKey r.orgId idp.idpId]? = some idp ∧ idp.orgId = r.orgId ∧
      idp.enabled = true ∧ Vouches r.net idp bearer claims ∧
      (∀ rule, rule ∈ rules ↔ s.policyRules[policyRuleKey r.orgId rule.ruleId]? = some rule) ∧
      Grants rules claims tier permissions ∧ s'.tokens = s.tokens

/-- Exactly one of the three ways. -/
def Entitled (policy : EnrollmentPolicy) (tier : MeshTier) (permissions : UInt32)
    (s s' : Redb) : Prop :=
  (ByPolicy policy tier permissions s s' ∨ r.ByToken policy tier permissions s s' ∨
    r.ByIdp policy tier permissions s s') ∧
  ¬ (ByPolicy policy tier permissions s s' ∧ r.ByToken policy tier permissions s s') ∧
  ¬ (ByPolicy policy tier permissions s s' ∧ r.ByIdp policy tier permissions s s') ∧
  ¬ (r.ByToken policy tier permissions s s' ∧ r.ByIdp policy tier permissions s s')

end Enrollment

/-- The three ways exclude each other. -/
theorem Enrollment.entitled_of {r : Enrollment} {policy : EnrollmentPolicy} {tier : MeshTier}
    {permissions : UInt32} {s s' : Redb}
    (h : ByPolicy policy tier permissions s s' ∨ r.ByToken policy tier permissions s s' ∨
      r.ByIdp policy tier permissions s s') : r.Entitled policy tier permissions s s' := by
  refine ⟨h, ?_, ?_, ?_⟩
  · rintro ⟨⟨rfl, -⟩, ⟨hpol, -⟩⟩
    cases hpol
  · rintro ⟨⟨rfl, -⟩, ⟨hpol, -⟩⟩
    cases hpol
  · rintro ⟨⟨-, bearer, hb, hpeat, -⟩, ⟨-, bearer', hb', hpeat', -⟩⟩
    rw [hb] at hb'
    obtain rfl := Option.some.inj hb'
    rw [hpeat] at hpeat'
    cases hpeat'

section Ways

variable {s : Redb} (hs : s.Keyed) {orgId : String} (ho : IsIdentifier orgId)

include hs ho

/-- What the check of a token establishes. -/
theorem answers_decideByToken (now : UInt64) (appId bearer : String) :
    Reply.Answers Redb.exec (decideByToken now orgId appId bearer) s fun v s' =>
      v.decision = .approved .endpoint 0 ∧
      ∃ t, s.tokens[tokenKey orgId bearer]? = some t ∧ t.orgId = orgId ∧ t.tokenId = bearer ∧
        t.appId = appId ∧ t.revoked = false ∧ (∀ e, t.expiresAt = some e → now ≤ e) ∧
        (∀ m, t.maxUses = some m → t.uses < m) ∧
        s' = { s with tokens :=
          s.tokens.insert (tokenKey orgId bearer) { t with uses := t.uses + 1 } } := by
  simp only [decideByToken, Reply.answers_bind]
  apply Reply.answers_outcome
  simp only [TenantManager.validateAndConsumeToken, TenantManager.getToken, Prog.wp_bind, wp_store,
    Redb.exec, Prog.post_ok, Prog.wp_okOrElse, Prog.wp_ensure, Prog.wp_pure, Reply.answers_refuse,
    Reply.answers_pure, implies_true, and_true, true_and]
  intro t ht happ hrev hexp hused
  obtain ⟨horg, hid⟩ := hs.token_ids ho.nulFree ht
  refine ⟨t, ht, horg, hid, happ, by simpa using hrev, ?_, ?_, ?_⟩
  · intro e he
    simpa [TenantManager.expired, he] using hexp
  · intro m hm
    simpa [TenantManager.exhausted, hm] using hused
  · rw [horg, hid]

/-- What the check by an identity provider establishes. -/
theorem answers_decideByIdp (net : Internet) (bearer : String) :
    Reply.Answers Redb.exec (decideByIdp net orgId bearer) s fun v s' =>
      s' = s ∧ ∃ idp claims rules, s.idps[idpKey orgId idp.idpId]? = some idp ∧
        idp.orgId = orgId ∧ idp.enabled = true ∧ Vouches net idp bearer claims ∧
        (∀ rule, rule ∈ rules ↔ s.policyRules[policyRuleKey orgId rule.ruleId]? = some rule) ∧
        v.decision = evaluatePolicy rules claims := by
  simp only [decideByIdp, TenantManager.listIdps, TenantManager.listPolicyRules,
    TenantManager.getOrg, Reply.answers_bind, Reply.answers_orElse, Reply.answers_okOrElse,
    Reply.answers_ofExcept, Reply.answers_pure, Prog.wp_bind, Prog.wp_okOrElse, wp_store, Redb.exec,
    Prog.post_ok, implies_true, and_true, true_and]
  intro _ _ idp hidp claims hclaims _ _
  have hmem := List.mem_of_find?_eq_some hidp
  -- The provider comes from a scan by prefix; that its key is its own is `Keyed`.
  obtain ⟨k, hk, hget⟩ := Table.mem_scan.mp hmem
  obtain ⟨x, rfl⟩ := belongsTo_iff.mp hk
  obtain ⟨horg, rfl⟩ := hs.idp_ids ho.nulFree hget
  have hclaims : introspectOidcToken net idp.issuerUrl idp.clientId idp.clientSecret bearer =
      .ok claims := by
    revert hclaims
    cases introspectOidcToken net idp.issuerUrl idp.clientId idp.clientSecret bearer <;>
      simp [Except.mapError]
  refine ⟨idp, claims, _, hget, horg, by simpa using List.find?_some hidp,
    introspectOidcToken_eq_ok.mp hclaims, fun rule => ?_, rfl⟩
  constructor
  -- A rule in the scan has some key of the organization, and `Keyed` says which.
  · intro hrule
    obtain ⟨k, hk, hget⟩ := Table.mem_scan.mp hrule
    obtain ⟨hid, hkey⟩ := hs.policyRules k rule hget
    obtain ⟨x, rfl⟩ := belongsTo_iff.mp hk
    obtain ⟨rfl, rfl⟩ := glue_inj ho.nulFree hid.nulFree hkey
    exact hget
  · intro hget
    exact Table.mem_scan.mpr ⟨_, belongsTo_nulKey _ _, hget⟩

end Ways

/-- What the match on the policy establishes. -/
theorem answers_decideEnrollment {s : Redb} (hs : s.Keyed) (r : Enrollment)
    (ho : IsIdentifier r.orgId) (policy : EnrollmentPolicy) :
    Reply.Answers Redb.exec (decideEnrollment r.net r.draw.tokenNow r.orgId r.appId r.headers r.body
      policy) s fun v s' => policy ≠ .strict ∧ s' = { s with tokens := s'.tokens } ∧
      ∃ tier permissions, v.decision = .approved tier permissions ∧
        (Enrollment.ByPolicy policy tier permissions s s' ∨
          r.ByToken policy tier permissions s s' ∨ r.ByIdp policy tier permissions s s') := by
  cases policy with
  | strict => simp [decideEnrollment]
  | «open» =>
    rw [decideEnrollment, Reply.answers_pure]
    exact ⟨nofun, rfl, .endpoint, 0, rfl, Or.inl ⟨rfl, rfl, rfl, rfl⟩⟩
  | controlled =>
    rw [decideEnrollment, Reply.answers_bind, Reply.answers_okOrElse]
    intro bearer hbearer
    split
    · next hpeat =>
      apply (answers_decideByToken hs ho _ _ _).mono
      intro v s' hv
      obtain ⟨hdec, t, ht, horg, hid, happ, hrev, hexp, hused, rfl⟩ := hv
      refine ⟨nofun, rfl, .endpoint, 0, hdec, Or.inr (Or.inl ⟨rfl, bearer, hbearer, hpeat, t, ht,
        horg, hid, happ, hrev, hexp, hused, rfl, rfl, rfl⟩)⟩
    · next hpeat =>
      apply (answers_decideByIdp hs ho _ _).mono
      intro v s' hv
      obtain ⟨rfl, idp, claims, rules, hidp, horg, hen, hvouch, hrules, hdec⟩ := hv
      obtain ⟨tier, permissions, heval, hgrants⟩ := evaluatePolicy_eq rules claims
      refine ⟨nofun, rfl, tier, permissions, hdec.trans heval, Or.inr (Or.inr ⟨rfl, bearer, hbearer,
        by simpa using hpeat, idp, claims, rules, hidp, horg, hen, hvouch, hrules, hgrants, rfl⟩)⟩

/-- On a store that nothing else works on, the certificate changes nothing. -/
theorem ends_tryIssueCertificate_redb {G : Type} (mgr : TenantManager G) (d : EnrollDraw)
    (orgId appId : String) (decision : EnrollmentDecision) (body : Option EnrollRequest)
    (s : Redb) :
    Reply.Ends Redb.exec (tryIssueCertificate mgr d orgId appId decision body) s
      fun res s' => (∃ x, res = .ok x) ∧ s' = s := by
  refine ends_tryIssueCertificate (R := fun s' => s' = s) mgr rfl ?_ decision body
  simp [TenantManager.loadGenesis, Redb.exec]

/-- **Every approval is one of an open formation, of a valid token, or of an identity
provider.**  For every reachable store, every request and whatever the identity provider
answers: if the answer is 200 with an approval, the organization and the formation exist, the
policy is not strict, the organization is within its hourly limit, exactly one of the three
ways has been gone, and besides the tokens only the log has changed. -/
theorem enroll_sound {G : Type} (mgr : TenantManager G) {s : Redb} (hs : GatewayReachable G s)
    (hlen : s.audit.size < 2 ^ 32) (r : Enrollment) {resp : EnrollmentResponse} {s' : Redb}
    {tier : MeshTier} {permissions : UInt32}
    (hrun : (enroll mgr r.net r.draw r.orgId r.appId r.headers r.body).run.run Redb.exec s =
      (.ok (.ok resp), s')) (hdec : resp.decision = .approved tier permissions) :
    ∃ org formation, s.orgs[r.orgId]? = some org ∧
      s.formations[formationKey r.orgId r.appId]? = some formation ∧
      formation.enrollmentPolicy ≠ .strict ∧
      recentEntries s r.orgId r.draw.rateNow < org.quotas.maxEnrollmentsPerHour.toNat ∧
      r.Entitled formation.enrollmentPolicy tier permissions s s' ∧
      s' = { s with tokens := s'.tokens, audit := s'.audit } := by
  have hk := hs.keyed
  revert hdec
  refine Reply.Answers.of_run hrun ?_
  simp only [enroll, TenantManager.getOrg, TenantManager.getFormation, Reply.answers_bind,
    Reply.answers_orElse, Reply.answers_ofExcept, Reply.answers_ensure, Prog.wp_bind,
    Prog.wp_okOrElse, wp_store, Redb.exec, Prog.post_ok, implies_true, and_true]
  intro org horg formation hform _ _
  refine (wp_countRecentEnrollments hk hlen r.orgId r.draw.rateNow).mono ?_ fun _ h => h
  rintro n _ ⟨rfl, hle, hlt⟩ hrate
  have hlimit := lt_of_le_of_lt hle (lt_of_not_ofNat_ge hlt hrate)
  apply (answers_decideEnrollment hk r (hk.orgs _ _ horg).1 formation.enrollmentPolicy).mono
  rintro v s₁ ⟨hstrict, hs₁, tier₁, permissions₁, hdec₁, hways⟩
  apply Reply.answers_outcome
  simp only [TenantManager.appendAudit, wp_store, Redb.exec, Prog.post_ok, hdec₁,
    Reply.answers_bind]
  apply (ends_tryIssueCertificate_redb mgr _ _ _ _ _ _).answers.mono
  rintro cert s₂ ⟨-, rfl⟩
  rw [Reply.answers_pure]
  intro hdec
  obtain ⟨rfl, rfl⟩ : tier₁ = tier ∧ permissions₁ = permissions := by
    cases hdec
    exact ⟨rfl, rfl⟩
  -- the entry of the log touches no token
  refine ⟨org, formation, horg, hform, hstrict, hlimit, Enrollment.entitled_of ?_, ?_⟩
  · exact hways
  · rw [hs₁]

/-! ### A request with a token -/

/-- An organization, a controlled formation and a token for it are made. -/
def tokenSchedule : Schedule Bytes :=
  [.start ((ManagerOp.createOrg 0 "a" "A").prog seedManager), .step 0, .step 0,
    .start ((ManagerOp.createFormation ⟨[42], (sampleDraws 0).envelope⟩ "a" "x" .controlled).prog
      seedManager), .step 1, .step 1, .step 1, .step 1, .step 1,
    .start ((ManagerOp.createToken (Vector.replicate 16 0) 0 "a" "x" "label" (some 1) none).prog
      seedManager), .step 2, .step 2, .step 2]

/-- A request whose body holds the token; the identity provider is out of reach. -/
def tokenRequest : Enrollment where
  net _ := .error "connection refused"
  draw := ⟨5000000, 5000000, 5000000, Vector.replicate 8 1, [], []⟩
  orgId := "a"
  appId := "x"
  headers := []
  body := some ⟨some "peat_00000000000000000000000000000000", none, none⟩

/-- The request is let in by its token. -/
theorem enroll_sound_token :
    ∃ s s' : Redb, GatewayReachable Bytes s ∧ ∃ org formation, s.orgs["a"]? = some org ∧
      s.formations[formationKey "a" "x"]? = some formation ∧
      formation.enrollmentPolicy ≠ .strict ∧
      recentEntries s "a" 5000000 < org.quotas.maxEnrollmentsPerHour.toNat ∧
      tokenRequest.Entitled formation.enrollmentPolicy .endpoint 0 s s' ∧
      s' = { s with tokens := s'.tokens, audit := s'.audit } := by
  have hreach : GatewayReachable Bytes (Pool.acts Redb.exec ⟨.empty, []⟩ tokenSchedule).store := by
    refine ⟨tokenSchedule, ?_, rfl⟩
    simp only [tokenSchedule, Act.forall_start_start, Act.forall_start_step, Act.forall_start_nil]
    exact ⟨.program (.op _ _), .program (.op _ _), .program (.op _ _), trivial⟩
  have hlen : (Pool.acts Redb.exec ⟨.empty, []⟩ tokenSchedule).store.audit.size < 2 ^ 32 := by
    decide +kernel
  have hres : ((enroll seedManager tokenRequest.net tokenRequest.draw tokenRequest.orgId
      tokenRequest.appId tokenRequest.headers tokenRequest.body).run.run Redb.exec
      (Pool.acts Redb.exec ⟨.empty, []⟩ tokenSchedule).store).1 =
      .ok (.ok ⟨.approved .endpoint 0, "0101010101010101", none, none, none⟩) := by
    decide +kernel
  generalize (Pool.acts Redb.exec ⟨.empty, []⟩ tokenSchedule).store = s at hreach hlen hres
  exact ⟨s, _, hreach, enroll_sound seedManager hreach hlen tokenRequest (Prod.ext hres rfl) rfl⟩

end PeatGateway
