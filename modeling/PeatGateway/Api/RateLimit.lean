import Mathlib.Data.Fintype.BigOperators
import PeatGateway.Api.Audited
import PeatGateway.Lib.Amid
import PeatGateway.Lib.Window
import PeatGateway.Storage.AuditLog

/-!
# The hourly limit holds in every window

The requests of an organization are served one at a time, while others move between their
calls and leave its log and its limit alone.  A request is let on only if fewer than the limit
are in the log from an hour before its first look at the clock on; its own entry is stamped
with a later one.  So no window of an hour, wherever it begins, holds more entries than that.

## Main definitions

* `StorageCall.Spares` — a call that leaves the log of an organization and its limit alone.
* `Turn`, `serveAll` — a request with what others do in the meantime, and the requests of an
  organization one after the other.

## Main results

* `ends_enroll_amid` — how a request ends amid others.
* `rate_limit` — **no window holds more approvals than the limit, and nobody is turned away
  below it**.
-/

namespace PeatGateway

open Effect Text

/-! ### What others may do -/

/-- The call leaves the log of the organization and its limit alone. -/
def StorageCall.Spares (A : String) (Q : UInt32) : StorageCall → Prop
  | .createOrg org | .updateOrg org => org.orgId = A → org.quotas.maxEnrollmentsPerHour = Q
  | .deleteOrg o => ∀ key, belongsTo A key = true → belongsTo o key = false
  | .appendAudit e => belongsTo A (auditKey e.orgId e.timestampMs e.auditId) = false
  | _ => True

/-- Deleting another organization spares this one. -/
theorem spares_deleteOrg {A o : String} {Q : UInt32} (hA : IsIdentifier A) (ho : IsIdentifier o)
    (hne : A ≠ o) : (StorageCall.deleteOrg o).Spares A Q := by
  intro key hkey
  exact not_belongsTo_of_belongsTo ho hA hne.symm hkey

/-- The log of the organization is that of `log`, and its limit is `Q`. -/
def Redb.Keeps (A : String) (Q : UInt32) (log : Table String EnrollmentAuditEntry) (s : Redb) :
    Prop :=
  Table.AgreeOn (belongsTo A) log s.audit ∧
    ∀ org, s.orgs[A]? = some org → org.quotas.maxEnrollmentsPerHour = Q

section Keeps

variable {A : String} {Q : UInt32} {log : Table String EnrollmentAuditEntry} {s : Redb}

theorem Redb.Keeps.exec (h : s.Keeps A Q log) {c : StorageCall} (hc : c.Spares A Q) :
    (Redb.exec c s).2.Keeps A Q log := by
  obtain ⟨hlog, hquota⟩ := h
  cases c with
  | createOrg org | updateOrg org =>
    refine ⟨hlog, ?_⟩
    intro org' horg'
    change (s.orgs.insert org.orgId org)[A]? = some org' at horg'
    rw [Table.get_insert] at horg'
    split at horg'
    · next heq => exact Option.some.inj horg' ▸ hc heq
    · exact hquota org' horg'
  | deleteOrg o =>
    refine ⟨hlog.trans (Table.agreeOn_removeAll hc), ?_⟩
    intro org' horg'
    change (s.orgs.erase o)[A]? = some org' at horg'
    rw [Table.get_erase] at horg'
    split at horg'
    · cases horg'
    · exact hquota org' horg'
  | appendAudit e => exact ⟨hlog.trans (Table.agreeOn_insert hc), hquota⟩
  | _ => exact ⟨hlog, hquota⟩

/-- The specification of programs that spare the organization. -/
def spareSpec (A : String) (Q : UInt32) : Spec Storage :=
  ⟨fun c => StorageCall.Spares A Q c, fun _ _ => True⟩

theorem spareSpec_sound : (spareSpec A Q).Sound Redb.exec (Redb.Keeps A Q log) :=
  fun _ _ hs hpre => ⟨hs.exec hpre, fun _ _ => trivial⟩

end Keeps

/-! ### A request amid others -/

section Amid

variable {Q : UInt32} {log : Table String EnrollmentAuditEntry} {others : ℕ → Redb → Redb}
  {r : Enrollment}

section Steps

variable (hothers : ∀ n s, s.Keeps r.orgId Q log → (others n s).Keeps r.orgId Q log)

include hothers

/-- A program that spares the organization leaves its log as it is. -/
theorem wp_keeps {α : Type} {p : StoreProg α}
    (hp : p.Meets (spareSpec r.orgId Q) fun _ => True) {s : Redb × ℕ}
    (hs : s.1.Keeps r.orgId Q log) :
    p.Wp (amid Redb.exec others) s (fun _ s' => s'.1.Keeps r.orgId Q log)
      fun s' => s'.1.Keeps r.orgId Q log :=
  (Prog.wp_of_meets (spareSpec_sound.amid hothers) hp hs).mono (fun _ _ h => h.1) fun _ h => h

/-- The check of a token leaves the log as it is. -/
theorem ends_decideByToken_amid {s : Redb × ℕ} (hs : s.1.Keeps r.orgId Q log) (bearer : String) :
    Reply.Ends (amid Redb.exec others) (decideByToken r.draw.tokenNow r.orgId r.appId bearer) s
      fun res s' => s'.1.Keeps r.orgId Q log ∧
        ∀ e, res = .error e → e.status ≠ .tooManyRequests := by
  rw [decideByToken, Reply.ends_bind]
  refine Reply.ends_outcome ((wp_keeps hothers ?_ hs).mono ?_ ?_)
  · simp [TenantManager.validateAndConsumeToken, TenantManager.getToken, spareSpec,
      StorageCall.Spares]
  · intro t s' hs'
    simpa using hs'
  · intro s' hs' e
    simpa [unauthorized] using hs'

/-- The check by an identity provider leaves the log as it is. -/
theorem ends_decideByIdp_amid {s : Redb × ℕ} (hs : s.1.Keeps r.orgId Q log) (bearer : String) :
    Reply.Ends (amid Redb.exec others) (decideByIdp r.net r.orgId bearer) s
      fun res s' => s'.1.Keeps r.orgId Q log ∧
        ∀ e, res = .error e → e.status ≠ .tooManyRequests := by
  rw [decideByIdp, Reply.ends_bind]
  refine Reply.ends_orElse ((wp_keeps hothers ?_ hs).mono ?_ ?_)
  · simp [TenantManager.listIdps, TenantManager.getOrg, spareSpec, StorageCall.Spares]
  · intro idps s₁ hs₁
    simp only [Reply.ok_and, Reply.error_and, Reply.ends_bind, Reply.ends_okOrElse,
      Reply.ends_ofExcept]
    refine ⟨?_, ?_⟩
    · intro idp _
      refine ⟨?_, ?_⟩
      · intro claims _
        refine Reply.ends_orElse ((wp_keeps hothers ?_ hs₁).mono ?_ ?_)
        · simp [TenantManager.listPolicyRules, TenantManager.getOrg, spareSpec, StorageCall.Spares]
        · intro rules s₂ hs₂
          simpa using hs₂
        · intro s₂ hs₂ e
          simpa [badRequest] using hs₂
      · intro e he
        refine ⟨hs₁, ?_⟩
        rintro _ ⟨⟩
        revert he
        cases introspectOidcToken r.net idp.issuerUrl idp.clientId idp.clientSecret bearer with
        | ok claims => simp [Except.mapError]
        | error msg =>
          rintro ⟨⟩ hstatus
          cases hstatus
    · intro _
      refine ⟨hs₁, ?_⟩
      rintro _ ⟨⟩ hstatus
      cases hstatus
  · intro s₁ hs₁ e
    simpa [badRequest] using hs₁

/-- The match on the policy leaves the log as it is, and does not speak of the limit. -/
theorem ends_decideEnrollment_amid {s : Redb × ℕ} (hs : s.1.Keeps r.orgId Q log)
    (policy : EnrollmentPolicy) :
    Reply.Ends (amid Redb.exec others) (decideEnrollment r.net r.draw.tokenNow r.orgId r.appId
      r.headers r.body policy) s fun res s' =>
        s'.1.Keeps r.orgId Q log ∧ ∀ e, res = .error e → e.status ≠ .tooManyRequests := by
  cases policy with
  | strict => simp [decideEnrollment, forbidden, hs]
  | «open» => simp [decideEnrollment, hs]
  | controlled =>
    rw [decideEnrollment, Reply.ends_bind, Reply.ends_okOrElse]
    simp only [Reply.ok_and, Reply.error_and]
    refine ⟨?_, ?_⟩
    · intro bearer _
      split
      · exact ends_decideByToken_amid hothers hs bearer
      · exact ends_decideByIdp_amid hothers hs bearer
    · intro _
      refine ⟨hs, ?_⟩
      rintro _ ⟨⟩ hstatus
      cases hstatus

/-- The certificate leaves the log as it is. -/
theorem ends_tryIssueCertificate_amid {G : Type} (mgr : TenantManager G) {s : Redb × ℕ}
    (hs : s.1.Keeps r.orgId Q log) (decision : EnrollmentDecision) :
    Reply.Ends (amid Redb.exec others)
      (tryIssueCertificate mgr r.draw r.orgId r.appId decision r.body) s
      fun res s' => (∃ x, res = .ok x) ∧ s'.1.Keeps r.orgId Q log := by
  have hload : (mgr.loadGenesis r.draw.genesis r.orgId r.appId).Meets (spareSpec r.orgId Q)
      fun _ => True := by
    simp [TenantManager.loadGenesis, spareSpec, StorageCall.Spares]
  exact ends_tryIssueCertificate (R := fun t : Redb × ℕ => t.1.Keeps r.orgId Q log) mgr hs
    (wp_keeps hothers hload hs) decision r.body

end Steps

/-- What a request comes to, `s` being the store in which it counts: it is refused and leaves
the log as it is, or it is recorded. -/
inductive Enrollment.Outcome (r : Enrollment) (Q : UInt32)
    (log : Table String EnrollmentAuditEntry) (s : Redb) :
    Except ApiError EnrollmentResponse → Redb → Prop
  | refused {e : ApiError} (he : e.status = .tooManyRequests → UInt32.ofNat (r.counted s) ≥ Q)
      {s' : Redb} (hs' : s'.Keeps r.orgId Q log) : Outcome r Q log s (.error e) s'
  | recorded (hrate : ¬ UInt32.ofNat (r.counted s) ≥ Q) {entry : EnrollmentAuditEntry}
      (hstamp : entry.timestampMs = r.draw.auditNow) {res : Except ApiError EnrollmentResponse}
      (hres : ∀ e, res = .error e → e.status ≠ .tooManyRequests) {s' : Redb}
      (hs' : s'.Keeps r.orgId Q (log.insert r.auditKey entry)) : Outcome r Q log s res s'

/-- From the decision on: it is recorded, and nothing else of the log changes. -/
theorem ends_record_amid {G : Type} (mgr : TenantManager G)
    (hothers : ∀ log n s, s.Keeps r.orgId Q log → (others n s).Keeps r.orgId Q log)
    {s : Redb × ℕ} (hs : s.1.Keeps r.orgId Q log) (v : Verdict) {s₀ : Redb}
    (hrate : ¬ UInt32.ofNat (r.counted s₀) ≥ Q) :
    Reply.Ends (amid Redb.exec others) (do
      let _ ← Reply.outcome (TenantManager.appendAudit (buildAudit r.draw r.orgId r.appId v))
      match v.decision with
      | .denied reason => Reply.refuse (forbidden reason)
      | .approved _ _ =>
        let (certificate, meshId, authorityPublicKey) ←
          tryIssueCertificate mgr r.draw r.orgId r.appId v.decision r.body
        return ⟨v.decision, (buildAudit r.draw r.orgId r.appId v).auditId, certificate, meshId,
          authorityPublicKey⟩) s fun res s' => r.Outcome Q log s₀ res s'.1 := by
  rw [Reply.ends_bind]
  apply Reply.ends_outcome
  simp only [TenantManager.appendAudit, wp_store, amid, Redb.exec, Prog.post_ok, Reply.ok_and]
  -- The others move first, then the entry is put on top of what they left.
  obtain ⟨hlog, hquota⟩ := hothers log s.2 s.1 hs
  have hs₁ : Redb.Keeps r.orgId Q (log.insert r.auditKey (buildAudit r.draw r.orgId r.appId v))
      { others s.2 s.1 with
        audit := (others s.2 s.1).audit.insert r.auditKey
          (buildAudit r.draw r.orgId r.appId v) } := ⟨hlog.insert _ _, hquota⟩
  split
  -- A denial is recorded like an approval, and then refused with 403.
  · rw [Reply.ends_refuse]
    refine .recorded hrate rfl ?_ hs₁
    intro e he hstatus
    obtain rfl := Except.error.inj he
    cases hstatus
  · rw [Reply.ends_bind]
    apply (ends_tryIssueCertificate_amid (hothers _) mgr hs₁ _).mono
    rintro _ s₂ ⟨⟨x, rfl⟩, hs₂⟩
    apply Reply.ok_and.mpr
    rw [Reply.ends_pure]
    refine .recorded hrate rfl ?_ hs₂
    intro e he
    cases he

/-- **How a request ends amid others.** -/
theorem ends_enroll_amid {G : Type} (mgr : TenantManager G)
    (hothers : ∀ log n s, s.Keeps r.orgId Q log → (others n s).Keeps r.orgId Q log) {s : Redb}
    (hs : s.Keeps r.orgId Q log) :
    Reply.Ends (amid Redb.exec others) (enroll mgr r.net r.draw r.orgId r.appId r.headers r.body)
      (s, 0) fun res s' => r.Outcome Q log (others 2 (others 1 (others 0 s))) res s'.1 := by
  have h₀ := hothers log 0 s hs
  have h₁ := hothers log 1 _ h₀
  have h₂ := hothers log 2 _ h₁
  rw [enroll, Reply.ends_bind]
  apply Reply.ends_orElse
  simp only [TenantManager.getOrg, Prog.wp_bind, wp_store, amid, Redb.exec, Prog.post_ok,
    Prog.wp_okOrElse, Reply.ok_and, Reply.error_and]
  refine ⟨?_, fun _ _ => .refused (fun he => by cases he) h₀⟩
  intro org horg
  -- the limit is read here, and compared later
  obtain rfl : org.quotas.maxEnrollmentsPerHour = Q := h₀.2 org horg
  rw [Reply.ends_bind]
  apply Reply.ends_orElse
  simp only [TenantManager.getFormation, Prog.wp_bind, wp_store, amid, Redb.exec, Prog.post_ok,
    Prog.wp_okOrElse, Reply.ok_and, Reply.error_and]
  refine ⟨?_, fun _ _ => .refused (fun he => by cases he) h₁⟩
  intro formation _
  rw [Reply.ends_bind, Reply.ends_ofExcept]
  refine ⟨?_, ?_⟩
  · intro _ _
    rw [Reply.ends_bind]
    apply Reply.ends_orElse
    simp only [TenantManager.countRecentEnrollments, Prog.wp_bind, wp_store, amid, Redb.exec,
      Prog.post_ok, Prog.wp_pure, ↓Reply.ok_and, ↓Reply.error_and, Reply.ends_bind,
      Reply.ends_ensure]
    refine ⟨?_, fun hrate => .refused (fun _ => not_not.mp hrate) h₂⟩
    intro hrate
    apply (ends_decideEnrollment_amid (hothers log) h₂ formation.enrollmentPolicy).mono
    rintro res s₃ ⟨hs₃, hres⟩
    cases res with
    | error e =>
      apply Reply.error_and.mpr
      exact .refused (fun he => absurd he (hres e rfl)) hs₃
    | ok v =>
      apply Reply.ok_and.mpr
      exact (Reply.ends_bind _ _ _).mp (ends_record_amid mgr hothers hs₃ v hrate)
  · intro e he
    refine .refused ?_ h₁
    intro he'
    cases (status_of_validateBody he).symm.trans he'

end Amid

/-! ### The log as a list of times -/

/-- There are not more ids than a `u64` can count. -/
theorem length_le_of_nodup {l : List (Vector UInt8 8)} (h : l.Nodup) : l.length ≤ 2 ^ 64 := by
  let f : Vector UInt8 8 → Fin 8 → Fin 256 := fun v i => v[i].toFin
  have hf : Function.Injective f := by
    intro v w hvw
    ext i hi
    exact congrArg Fin.val (congrFun hvw ⟨i, hi⟩)
  have hle := (h.map hf).length_le_card
  rw [List.length_map, Fintype.card_fun, Fintype.card_fin, Fintype.card_fin] at hle
  exact hle

/-- The times of the entries of the organization. -/
def stamps (A : String) (log : Table String EnrollmentAuditEntry) : List ℕ :=
  (log.scan (belongsTo A)).map fun e => e.timestampMs.toNat

/-- A new entry of the organization adds its time. -/
theorem stamps_insert {A : String} {log : Table String EnrollmentAuditEntry} {k : String}
    (hk : log[k]? = none) (hA : belongsTo A k = true) (e : EnrollmentAuditEntry) :
    (stamps A (log.insert k e)).Perm (e.timestampMs.toNat :: stamps A log) := by
  have hperm := ((Table.toList_insert_perm hk e).filter fun kv => belongsTo A kv.1).map Prod.snd
  rw [List.filter_cons, if_pos hA, List.map_cons] at hperm
  exact hperm.map fun e => e.timestampMs.toNat

/-- What the handler counts. -/
theorem Enrollment.counted_eq {r : Enrollment} {s : Redb}
    (hlen : (stamps r.orgId s.audit).length < 2 ^ 64) :
    r.counted s = Window.recent 3600000 r.draw.rateNow.toNat (stamps r.orgId s.audit) := by
  rw [stamps, List.length_map] at hlen
  rw [Enrollment.counted, Redb.listAudit_max hlen, List.filter_reverse, List.length_reverse,
    ← List.countP_eq_length_filter, Window.recent, stamps, List.countP_map]
  apply List.countP_congr
  intro e _
  simp only [Function.comp_apply, decide_eq_true_eq, ge_iff_le, oneHourBefore_le_iff]

theorem Redb.Keeps.stamps_eq {A : String} {Q : UInt32} {log : Table String EnrollmentAuditEntry}
    {s : Redb} (h : s.Keeps A Q log) : stamps A s.audit = stamps A log := by
  rw [stamps, stamps, h.1.scan]

/-! ### One request after the other -/

/-- A request, and the calls others make before each of its own. -/
structure Turn where
  request : Enrollment
  others : ℕ → List StorageCall

namespace Turn

/-- What others do before the `n`-th call. -/
def move (t : Turn) (n : ℕ) (s : Redb) : Redb :=
  (t.others n).foldl (fun s c => (Redb.exec c s).2) s

/-- The store in which the request counts: two calls come before. -/
def atCheck (t : Turn) (s : Redb) : Redb := t.move 2 (t.move 1 (t.move 0 s))

/-- The request is served. -/
def serve {G : Type} (mgr : TenantManager G) (t : Turn) (s : Redb) :
    Except Error (Except ApiError EnrollmentResponse) × Redb :=
  let run := (enroll mgr t.request.net t.request.draw t.request.orgId t.request.appId
    t.request.headers t.request.body).run.run (amid Redb.exec t.move) (s, 0)
  (run.1, run.2.1)

theorem keeps_move {A : String} {Q : UInt32} {t : Turn} {n : ℕ}
    (hspares : ∀ c ∈ t.others n, c.Spares A Q) {log : Table String EnrollmentAuditEntry} {s : Redb}
    (hs : s.Keeps A Q log) : (t.move n s).Keeps A Q log := by
  unfold move
  revert hspares
  generalize t.others n = calls
  intro hspares
  induction calls generalizing s with
  | nil => exact hs
  | cons c calls ih =>
    exact ih (hs.exec (hspares c List.mem_cons_self)) fun c' hc' =>
      hspares c' (List.mem_cons_of_mem _ hc')

end Turn

/-- A request that has been served: the store in which it counted, and the reply. -/
structure Handled where
  request : Enrollment
  atCheck : Redb
  reply : Except Error (Except ApiError EnrollmentResponse)

/-- The reply is an approval whose entry lies between the times. -/
def Handled.approvedWithin (w s : ℕ) (x : Handled) : Bool :=
  match x.reply with
  | .ok (.ok ⟨.approved _ _, _, _, _, _⟩) =>
    s ≤ x.request.draw.auditNow.toNat && x.request.draw.auditNow.toNat ≤ s + w
  | _ => false

/-- The requests of an organization, one after the other. -/
def serveAll {G : Type} (mgr : TenantManager G) : List Turn → Redb → List Handled
  | [], _ => []
  | t :: ts, s => ⟨t.request, t.atCheck s, (t.serve mgr s).1⟩ :: serveAll mgr ts (t.serve mgr s).2

section Run

variable {G : Type} (mgr : TenantManager G) {A : String} {Q : UInt32}

/-- What a turn comes to. -/
theorem Turn.outcome {t : Turn} (horg : t.request.orgId = A)
    (hspares : ∀ n, ∀ c ∈ t.others n, c.Spares A Q) {log : Table String EnrollmentAuditEntry}
    {s : Redb} (hs : s.Keeps A Q log) :
    ∃ res, (t.serve mgr s).1 = .ok res ∧
      t.request.Outcome Q log (t.atCheck s) res (t.serve mgr s).2 := by
  subst horg
  exact (ends_enroll_amid mgr (fun log n s hs => Turn.keeps_move (hspares n) hs) hs).run

theorem Turn.keeps_atCheck {t : Turn} (hspares : ∀ n, ∀ c ∈ t.others n, c.Spares A Q)
    {log : Table String EnrollmentAuditEntry} {s : Redb} (hs : s.Keeps A Q log) :
    (t.atCheck s).Keeps A Q log :=
  keeps_move (hspares 2) (keeps_move (hspares 1) (keeps_move (hspares 0) hs))

/-- What is to be shown of a request that has been served: the cast of the count is exact, and
if the request was turned away, the limit had been reached within the hour before. -/
def Handled.Sound (A : String) (Q : UInt32) (x : Handled) : Prop :=
  x.request.counted x.atCheck < 2 ^ 32 ∧
  ∀ msg, x.reply = .ok (.error ⟨.tooManyRequests, msg⟩) →
    Q.toNat ≤ (stamps A x.atCheck.audit).countP fun t =>
      x.request.draw.rateNow.toNat ≤ t + 3600000 ∧ t ≤ x.request.draw.rateNow.toNat

/-- The requests still to come find the log `log`: no window of it is too full, its entries are
in the past, their keys are taken by nobody, and all can be counted. -/
structure Ahead (A : String) (Q : UInt32) (log : Table String EnrollmentAuditEntry)
    (turns : List Turn) : Prop where
  org : ∀ t ∈ turns, t.request.orgId = A
  spares : ∀ t ∈ turns, ∀ n, ∀ c ∈ t.others n, c.Spares A Q
  clock : (turns.flatMap fun t => [t.request.draw.rateNow, t.request.draw.tokenNow,
    t.request.draw.auditNow]).Pairwise (· ≤ ·)
  ids : (turns.map fun t => t.request.auditId).Nodup
  bounded : Window.Bounded 3600000 Q.toNat (stamps A log)
  past : ∀ t ∈ turns, ∀ x ∈ stamps A log, x ≤ t.request.draw.rateNow.toNat
  fresh : ∀ t ∈ turns, log[t.request.auditKey]? = none
  length : (stamps A log).length + turns.length ≤ 2 ^ 64

namespace Ahead

variable {log : Table String EnrollmentAuditEntry} {t : Turn} {ts : List Turn}

/-- One request less, if it has left the log as it was. -/
theorem tail (h : Ahead A Q log (t :: ts)) : Ahead A Q log ts where
  org t' ht' := h.org t' (List.mem_cons_of_mem _ ht')
  spares t' ht' := h.spares t' (List.mem_cons_of_mem _ ht')
  clock := by
    have hclock := h.clock
    rw [List.flatMap_cons] at hclock
    exact (List.pairwise_append.mp hclock).2.1
  ids := (List.nodup_cons.mp h.ids).2
  bounded := h.bounded
  past t' ht' := h.past t' (List.mem_cons_of_mem _ ht')
  fresh t' ht' := h.fresh t' (List.mem_cons_of_mem _ ht')
  length := by
    have hlen := h.length
    rw [List.length_cons] at hlen
    omega

/-- The clock is read for the entry after it is read for the check. -/
theorem rateNow_le (h : Ahead A Q log (t :: ts)) :
    t.request.draw.rateNow ≤ t.request.draw.auditNow := by
  have hclock := h.clock
  rw [List.flatMap_cons] at hclock
  have hfirst := (List.pairwise_append.mp hclock).1
  exact (List.pairwise_cons.mp hfirst).1 _ (by simp)

/-- The clock is read for the entry before it is read by later requests. -/
theorem auditNow_le (h : Ahead A Q log (t :: ts)) {t' : Turn} (ht' : t' ∈ ts) :
    t.request.draw.auditNow ≤ t'.request.draw.rateNow := by
  have hclock := h.clock
  rw [List.flatMap_cons] at hclock
  apply (List.pairwise_append.mp hclock).2.2 _ (by simp) _
  exact List.mem_flatMap.mpr ⟨t', ht', by simp⟩

/-- The count of the next request is the number of recent entries, and at most the limit. -/
theorem counted (h : Ahead A Q log (t :: ts)) {s : Redb} (hs : s.Keeps A Q log) :
    t.request.counted s = Window.recent 3600000 t.request.draw.rateNow.toNat (stamps A log) ∧
      t.request.counted s ≤ Q.toNat := by
  have horg := h.org t List.mem_cons_self
  have hlen := h.length
  rw [List.length_cons] at hlen
  have hcount : t.request.counted s =
      Window.recent 3600000 t.request.draw.rateNow.toNat (stamps A log) := by
    rw [Enrollment.counted_eq, horg, hs.stamps_eq]
    rw [horg, hs.stamps_eq]
    omega
  rw [hcount]
  exact ⟨rfl, h.bounded.recent_le (h.past t List.mem_cons_self)⟩

/-- One request less, and its entry more. -/
theorem record (h : Ahead A Q log (t :: ts))
    (hrate : Window.recent 3600000 t.request.draw.rateNow.toNat (stamps A log) < Q.toNat)
    {entry : EnrollmentAuditEntry} (hstamp : entry.timestampMs = t.request.draw.auditNow) :
    Ahead A Q (log.insert t.request.auditKey entry) ts ∧
      (stamps A (log.insert t.request.auditKey entry)).Perm
        (t.request.draw.auditNow.toNat :: stamps A log) := by
  have hbelongs : belongsTo A t.request.auditKey = true := by
    rw [← h.org t List.mem_cons_self]
    exact belongsTo_nulKey _ _
  have hperm := stamps_insert (h.fresh t List.mem_cons_self) hbelongs entry
  rw [hstamp] at hperm
  refine ⟨{ h.tail with bounded := ?_, past := ?_, fresh := ?_, length := ?_ }, hperm⟩
  · exact (h.bounded.cons hrate (UInt64.le_iff_toNat_le.mp h.rateNow_le)).perm hperm.symm
  · intro t' ht' x hx
    rcases List.mem_cons.mp (hperm.mem_iff.mp hx) with rfl | hx
    · exact UInt64.le_iff_toNat_le.mp (h.auditNow_le ht')
    · exact h.tail.past t' ht' x hx
  · intro t' ht'
    rw [Table.get_insert, if_neg, h.tail.fresh t' ht']
    -- the ids differ, and with them the keys
    intro hkey
    refine (List.nodup_cons.mp h.ids).1 (List.mem_map.mpr ⟨t', ht', ?_⟩)
    rw [Enrollment.auditKey, Enrollment.auditKey, h.org t List.mem_cons_self,
      h.tail.org t' ht'] at hkey
    exact (auditKey_inj hkey).2.symm
  · have hlen := h.length
    rw [List.length_cons] at hlen
    rw [hperm.length_eq, List.length_cons]
    omega

/-- The next request is served as it should be. -/
theorem sound (h : Ahead A Q log (t :: ts)) {s : Redb} (hs : s.Keeps A Q log) :
    Handled.Sound A Q ⟨t.request, t.atCheck s, (t.serve mgr s).1⟩ := by
  have hspares := h.spares t List.mem_cons_self
  have hcheck := Turn.keeps_atCheck hspares hs
  obtain ⟨hcount, hle⟩ := h.counted hcheck
  have hsmall : t.request.counted (t.atCheck s) < 2 ^ 32 := lt_of_le_of_lt hle Q.toNat_lt
  refine ⟨hsmall, ?_⟩
  intro msg hreply
  obtain ⟨res, hres, hout⟩ := Turn.outcome mgr (h.org t List.mem_cons_self) hspares hs
  obtain rfl : res = .error ⟨.tooManyRequests, msg⟩ := Except.ok.inj (hres.symm.trans hreply)
  cases hout with
  | recorded _ _ hres' _ => exact absurd rfl (hres' _ rfl)
  | refused he _ =>
    have hge := he rfl
    rw [ge_iff_le, UInt32.le_iff_toNat_le, UInt32.toNat_ofNat_of_lt' hsmall, hcount,
      Window.recent_eq_within (h.past t List.mem_cons_self)] at hge
    simpa only [hcheck.stamps_eq] using hge

/-- **One request**: it leaves a log with which the others are ahead, and an approval is in
it. -/
theorem step (h : Ahead A Q log (t :: ts)) {s : Redb} (hs : s.Keeps A Q log) :
    ∃ log', Ahead A Q log' ts ∧ (t.serve mgr s).2.Keeps A Q log' ∧
      ∀ w, Window.within 3600000 w (stamps A log) +
        (if Handled.approvedWithin 3600000 w ⟨t.request, t.atCheck s, (t.serve mgr s).1⟩ then 1
          else 0) ≤ Window.within 3600000 w (stamps A log') := by
  have horg := h.org t List.mem_cons_self
  have hspares := h.spares t List.mem_cons_self
  obtain ⟨res, hres, hout⟩ := Turn.outcome mgr horg hspares hs
  rw [hres]
  generalize (t.serve mgr s).2 = s' at hout
  cases hout with
  | refused he hs' =>
    rw [horg] at hs'
    exact ⟨log, h.tail, hs', fun w => le_rfl⟩
  | @recorded hrate entry hstamp res hres' s' hs' =>
    rw [horg] at hs'
    obtain ⟨hcount, hle⟩ := h.counted (Turn.keeps_atCheck hspares hs)
    have hlt := lt_of_not_ofNat_ge (lt_of_le_of_lt hle Q.toNat_lt) hrate
    rw [hcount] at hlt
    obtain ⟨hahead, hperm⟩ := h.record hlt hstamp
    refine ⟨_, hahead, hs', ?_⟩
    intro w
    rw [Window.within_perm hperm, Window.within_cons]
    refine Nat.add_le_add_left ?_ _
    split
    · next happroved =>
      -- an approval within the window is an entry within the window
      rw [if_pos]
      unfold Handled.approvedWithin at happroved
      split at happroved
      · simpa using happroved
      · cases happroved
    · exact Nat.zero_le _

/-- **The requests ahead**: together with the entries there are, no window gets more approvals
than the limit. -/
theorem run {turns : List Turn} {s : Redb} (h : Ahead A Q log turns) (hs : s.Keeps A Q log) :
    (∀ w, Window.within 3600000 w (stamps A log) +
      (serveAll mgr turns s).countP (Handled.approvedWithin 3600000 w) ≤ Q.toNat) ∧
    ∀ x ∈ serveAll mgr turns s, x.Sound A Q := by
  induction turns generalizing log s with
  | nil =>
    rw [serveAll]
    refine ⟨?_, fun x hx => absurd hx List.not_mem_nil⟩
    intro w
    rw [List.countP_nil, Nat.add_zero]
    exact h.bounded w
  | cons t ts ih =>
    obtain ⟨log', hahead, hs', hmore⟩ := h.step mgr hs
    obtain ⟨hcount, hsound⟩ := ih hahead hs'
    refine ⟨?_, ?_⟩
    · intro w
      have hw := hcount w
      have hmore := hmore w
      rw [serveAll, List.countP_cons]
      omega
    · intro x hx
      rcases List.mem_cons.mp hx with rfl | hx
      · exact h.sound mgr hs
      · exact hsound x hx

end Ahead

/-- **The hourly limit holds in every window.**  The requests of an organization are served one
at a time, amid others that leave its log and its limit `Q` alone; the log is empty at first,
the clock does not go back, and no audit id is drawn twice.  Then no window of an hour holds
more than `Q` approvals, the cast of the count to `u32` is exact at every check, and a request
is turned away only if `Q` entries lie within the hour before its check. -/
theorem rate_limit {s : Redb} (hempty : ∀ key, belongsTo A key = true → s.audit[key]? = none)
    (hquota : ∀ org, s.orgs[A]? = some org → org.quotas.maxEnrollmentsPerHour = Q)
    {turns : List Turn} (horg : ∀ t ∈ turns, t.request.orgId = A)
    (hspares : ∀ t ∈ turns, ∀ n, ∀ c ∈ t.others n, c.Spares A Q)
    (hclock : (turns.flatMap fun t => [t.request.draw.rateNow, t.request.draw.tokenNow,
      t.request.draw.auditNow]).Pairwise (· ≤ ·))
    (hids : (turns.map fun t => t.request.auditId).Nodup) :
    (∀ w, (serveAll mgr turns s).countP (Handled.approvedWithin 3600000 w) ≤ Q.toNat) ∧
    ∀ x ∈ serveAll mgr turns s, x.request.counted x.atCheck < 2 ^ 32 ∧
      ∀ msg, x.reply = .ok (.error ⟨.tooManyRequests, msg⟩) →
        Q.toNat ≤ (stamps A x.atCheck.audit).countP fun t =>
          x.request.draw.rateNow.toNat ≤ t + 3600000 ∧ t ≤ x.request.draw.rateNow.toNat := by
  have hkeeps : s.Keeps A Q ∅ := by
    refine ⟨?_, hquota⟩
    intro key hkey
    rw [hempty key hkey]
    simp
  have hstamps : stamps A ∅ = [] := by simp [stamps, Table.scan]
  -- No id is drawn twice and an id has eight bytes, so there are at most `2 ^ 64` requests.
  have hlen : turns.length ≤ 2 ^ 64 := by
    have hvectors : (turns.map fun t => t.request.draw.auditId).Nodup :=
      List.Nodup.of_map (fun v => Wire.hexEncode v.toList) (by rwa [List.map_map])
    have hle := length_le_of_nodup hvectors
    rwa [List.length_map] at hle
  -- Before the first request nothing is in the log, and every condition is about the requests.
  have hahead : Ahead A Q ∅ turns :=
    { org := horg, spares := hspares, clock := hclock, ids := hids
      bounded := by rw [hstamps]; exact Window.bounded_nil
      past := by simp [hstamps]
      fresh := fun _ _ => by simp
      length := by rw [hstamps]; simpa using hlen }
  obtain ⟨hcount, hsound⟩ := hahead.run mgr hkeeps
  exact ⟨fun w => le_trans (Nat.le_add_left _ _) (hcount w), hsound⟩

end Run

/-! ### Two requests with a limit of one -/

/-- An organization with a limit of one an hour, and an open formation. -/
def limitStore : Redb :=
  let ops : List ManagerOp := [.createOrg 0 "a" "A",
    .updateOrg "a" none (some { OrgQuotas.default with maxEnrollmentsPerHour := 1 }),
    .createFormation ⟨[42], (sampleDraws 0).envelope⟩ "a" "x" .open]
  ops.foldl (fun s op => ((op.prog seedManager).run Redb.exec s).2) .empty

/-- A request at a time, while another organization is deleted. -/
def limitTurn (now : UInt64) (id : UInt8) : Turn where
  request := ⟨fun _ => .error "connection refused",
    ⟨now, now + 1, now + 2, Vector.replicate 8 id, [], []⟩, "a", "x", [], none⟩
  others _ := [.deleteOrg "b"]

/-- Of two requests within a minute the second is turned away. -/
theorem rate_limit_one :
    (serveAll seedManager [limitTurn 5000000 1, limitTurn 5060000 2] limitStore).map Handled.reply =
      [.ok (.ok ⟨.approved .endpoint 0, "0101010101010101", none, none, none⟩),
        .ok (.error ⟨.tooManyRequests, "Enrollment rate limit exceeded"⟩)] ∧
    ∀ w, (serveAll seedManager [limitTurn 5000000 1, limitTurn 5060000 2] limitStore).countP
      (Handled.approvedWithin 3600000 w) ≤ 1 := by
  have hempty : ∀ key, belongsTo "a" key = true → limitStore.audit[key]? = none := by
    have haudit : limitStore.audit = ∅ := rfl
    intro key _
    rw [haudit]
    simp
  have hquota : ∀ org, limitStore.orgs["a"]? = some org →
      org.quotas.maxEnrollmentsPerHour = 1 := by
    have hlimit : limitStore.orgs["a"]?.map (·.quotas.maxEnrollmentsPerHour) = some 1 := by
      decide +kernel
    intro org horg
    rw [horg] at hlimit
    exact Option.some.inj hlimit
  have hspares : ∀ t ∈ [limitTurn 5000000 1, limitTurn 5060000 2], ∀ n, ∀ c ∈ t.others n,
      c.Spares "a" 1 := by
    intro t ht n c hc
    have hdelete : c = .deleteOrg "b" := by
      rcases List.mem_pair.mp ht with rfl | rfl <;> exact List.mem_singleton.mp hc
    rw [hdelete]
    exact spares_deleteOrg (by decide) (by decide) (by decide)
  obtain ⟨hcount, -⟩ := rate_limit seedManager hempty hquota (by decide +kernel) hspares
    (by decide +kernel) (by decide +kernel)
  exact ⟨by decide +kernel, hcount⟩

end PeatGateway
