import PeatGateway.Api.EnrollSound
import PeatGateway.Api.Gateway
import PeatGateway.Tenant.AuditLedger
import PeatGateway.Tenant.TokenRace

/-!
# What can be done without the admin token

Once an admin token is configured, requests that do not carry it reach the store through
enrollment only.  However many of them there are and however their storage calls are
interleaved, they count uses of tokens and add to the log, on either backend, and change
nothing else.  On redb an entry may take the place of one of the same organization, time and id.

## Main definitions

* `AnyStore.InOrder` — tokens, organizations and log entries lie under their own keys.
* `AnyStore.Reached` — the stores that storage calls lead to.
* `AnyStore.Untouched` — the later store differs from the earlier one in uses and in the log.
* `Endpoint.isPublic` — the endpoints outside the middleware.
* `outsiderSpec` — the calls of a request without the token.
* `Decides` — what a handler answers, as long as the store answers as granted.

## Main results

* `AnyStore.Reached.inOrder` — what calls lead to is in order.
* `outsiderSpec_sound` — each such call leaves the store untouched but for uses and the log.
* `serve_refused` — a request that is not admitted to an admin route makes no call.
* `serve_of_decides` — what a success shows is what the handler has answered.
* `unauthenticated_untouched` — **without the token nothing else changes**.
-/

namespace PeatGateway

open Effect

/-! ### Stores in order -/

/-- Every token lies under its own ids. -/
def AnyStore.TokensKeyed : AnyStore → Prop
  | .redb s => s.tokens.Forall fun k t => k = tokenKey t.orgId t.tokenId
  | .postgres s => ∀ k t, s.tokens.select k = some t → k = (t.orgId, t.tokenId)

/-- Tokens, organizations and log entries lie under their own keys. -/
structure AnyStore.InOrder (s : AnyStore) : Prop where
  tokens : s.TokensKeyed
  log : s.LogInOrder

/-- The store that storage calls lead to, from the empty one of either backend, if organizations
are called by identifiers. -/
def AnyStore.Reached (s : AnyStore) : Prop :=
  ∃ s₀ ∈ [AnyStore.redb .empty, .postgres .empty], ∃ calls : List StorageCall,
    (∀ c ∈ calls, logPre c) ∧ s = calls.foldl (fun s c => (AnyStore.exec c s).2) s₀

theorem Redb.tokens_exec {s : Redb} {P : String → EnrollmentToken → Prop}
    (hP : ∀ t, P (tokenKey t.orgId t.tokenId) t) (hs : s.tokens.Forall P) (c : StorageCall) :
    (Redb.exec c s).2.tokens.Forall P := by
  cases c
  case createToken t => exact hs.insert (hP t)
  case updateToken t => exact hs.insert (hP t)
  case deleteToken orgId tokenId => exact hs.erase _
  case deleteOrg orgId => exact hs.removeAll _
  all_goals exact hs

theorem Postgres.tokens_exec {s : Postgres} {P : String × String → EnrollmentToken → Prop}
    (hP : ∀ t, P (t.orgId, t.tokenId) t) (hs : ∀ k t, s.tokens.select k = some t → P k t)
    (c : StorageCall) : ∀ k t, (Postgres.exec c s).2.tokens.select k = some t → P k t := by
  cases c
  case createToken t₁ =>
    refine commit_ind (Q := fun s => ∀ k t, s.tokens.select k = some t → P k t) hs ?_
    intro ts hins k t hk
    rw [Rows.select_insert (insertChild_eq_ok hins).1] at hk
    split at hk
    · next heq =>
      obtain rfl := Option.some.inj hk
      exact heq ▸ hP t₁
    · exact hs k t hk
  case updateToken t₁ =>
    intro k t hk
    simp only [Postgres.exec, Rows.select_update] at hk
    split at hk
    · next heq =>
      obtain ⟨_, -, rfl⟩ := Option.map_eq_some_iff.mp hk
      exact heq ▸ hP t₁
    · exact hs k t hk
  case deleteToken orgId tokenId =>
    intro k t hk
    simp only [Postgres.exec, Rows.select_delete] at hk
    split at hk
    · cases hk
    · exact hs k t hk
  case deleteOrg orgId =>
    intro k t hk
    simp only [Postgres.exec] at hk
    split at hk
    · simp only [Postgres.deleteOrg, Rows.select_deleteWhere] at hk
      split at hk
      · cases hk
      · exact hs k t hk
    · exact hs k t hk
  -- the others leave the tokens alone
  case createOrg | createFormation | createSink | createIdp | createPolicyRule | appendAudit |
      storeGenesis | setCursor =>
    exact commit_ind (Q := fun s => ∀ k t, s.tokens.select k = some t → P k t) hs fun _ _ => hs
  all_goals exact hs

theorem AnyStore.TokensKeyed.exec {s : AnyStore} (hs : s.TokensKeyed) (c : StorageCall) :
    (AnyStore.exec c s).2.TokensKeyed := by
  cases s with
  | redb s => exact Redb.tokens_exec (fun _ => rfl) hs c
  | postgres s => exact Postgres.tokens_exec (fun _ => rfl) hs c

theorem AnyStore.InOrder.exec {s : AnyStore} (hs : s.InOrder) {c : StorageCall} (hc : logPre c) :
    (AnyStore.exec c s).2.InOrder :=
  ⟨hs.tokens.exec c, (logSpec_sound c s hs.log hc).1⟩

/-- **What calls lead to is in order.** -/
theorem AnyStore.Reached.inOrder {s : AnyStore} (hs : s.Reached) : s.InOrder := by
  obtain ⟨s₀, hs₀, calls, hcalls, rfl⟩ := hs
  have hrun : ∀ s : AnyStore, s.InOrder →
      (calls.foldl (fun s c => (AnyStore.exec c s).2) s).InOrder := by
    induction calls with
    | nil => exact fun _ hs => hs
    | cons c calls ih =>
      have hc := List.forall_mem_cons.mp hcalls
      exact fun s hs => ih hc.2 _ (hs.exec hc.1)
  apply hrun
  simp only [List.mem_cons, List.not_mem_nil, or_false] at hs₀
  rcases hs₀ with rfl | rfl
  · exact ⟨Table.forall_empty _, AnyStore.logInOrder_empty.1⟩
  · refine ⟨?_, AnyStore.logInOrder_empty.2⟩
    intro k t hk
    simp [Postgres.empty] at hk

/-! ### What stays -/

/-- The token, its uses not counted. -/
def EnrollmentToken.withoutUses (t : EnrollmentToken) : EnrollmentToken := { t with uses := 0 }

theorem EnrollmentToken.ids_of_withoutUses {t t' : EnrollmentToken}
    (h : t.withoutUses = t'.withoutUses) : t.orgId = t'.orgId ∧ t.tokenId = t'.tokenId := by
  simp only [withoutUses, EnrollmentToken.mk.injEq] at h
  exact ⟨h.2.1, h.1⟩

/-- The entries are of one organization, one time and one id. -/
def EnrollmentAuditEntry.SameIds (e e' : EnrollmentAuditEntry) : Prop :=
  e.orgId = e'.orgId ∧ e.timestampMs = e'.timestampMs ∧ e.auditId = e'.auditId

/-- The later store differs from the earlier one in the uses of tokens, and in entries added to
the log.  Where there was an entry, there is it or one of the same organization, time and id. -/
structure Redb.Untouched (s s' : Redb) : Prop where
  orgs : s'.orgs = s.orgs
  formations : s'.formations = s.formations
  sinks : s'.sinks = s.sinks
  cursors : s'.cursors = s.cursors
  idps : s'.idps = s.idps
  policyRules : s'.policyRules = s.policyRules
  genesis : s'.genesis = s.genesis
  tokens : ∀ k : String, (s'.tokens[k]?).map EnrollmentToken.withoutUses =
    (s.tokens[k]?).map EnrollmentToken.withoutUses
  audit : ∀ (k : String) e, s.audit[k]? = some e → ∃ e', s'.audit[k]? = some e' ∧ e'.SameIds e

/-- The same on Postgres, where moreover no entry of the log is replaced. -/
structure Postgres.Untouched (s s' : Postgres) : Prop where
  orgs : s'.orgs = s.orgs
  formations : s'.formations = s.formations
  sinks : s'.sinks = s.sinks
  cursors : s'.cursors = s.cursors
  idps : s'.idps = s.idps
  policyRules : s'.policyRules = s.policyRules
  genesis : s'.genesis = s.genesis
  tokens : ∀ k, (s'.tokens.select k).map EnrollmentToken.withoutUses =
    (s.tokens.select k).map EnrollmentToken.withoutUses
  audit : ∀ k e, s.audit.select k = some e → s'.audit.select k = some e

/-- The same on both backends. -/
def AnyStore.Untouched : AnyStore → AnyStore → Prop
  | .redb s, .redb s' => s.Untouched s'
  | .postgres s, .postgres s' => s.Untouched s'
  | _, _ => False

theorem AnyStore.Untouched.refl (s : AnyStore) : s.Untouched s := by
  cases s with
  | redb s =>
    exact ⟨rfl, rfl, rfl, rfl, rfl, rfl, rfl, fun _ => rfl, fun _ e h => ⟨e, h, rfl, rfl, rfl⟩⟩
  | postgres s => exact ⟨rfl, rfl, rfl, rfl, rfl, rfl, rfl, fun _ => rfl, fun _ _ h => h⟩

/-- The store holds the token, up to its uses. -/
def AnyStore.HoldsToken (s : AnyStore) (t : EnrollmentToken) : Prop :=
  (s.token t.orgId t.tokenId).map EnrollmentToken.withoutUses = some t.withoutUses

section Untouched

variable {s s' : AnyStore} {t : EnrollmentToken}

/-- A token that is read later was there before. -/
theorem AnyStore.Untouched.holdsToken (h : s.Untouched s') (hs : s.TokensKeyed)
    {orgId tokenId : String} (ht : s'.token orgId tokenId = some t) : s.HoldsToken t := by
  cases s with
  | redb s =>
    cases s' with
    | postgres s' => exact h.elim
    | redb s' =>
      have hmap := Redb.Untouched.tokens h (tokenKey orgId tokenId)
      rw [show s'.tokens[tokenKey orgId tokenId]? = some t from ht, Option.map_some] at hmap
      obtain ⟨t₀, ht₀, heq⟩ := Option.map_eq_some_iff.mp hmap.symm
      -- the token lies under the ids it holds, which are those of the earlier one
      have hkey : tokenKey orgId tokenId = tokenKey t₀.orgId t₀.tokenId := hs _ _ ht₀
      have hids := EnrollmentToken.ids_of_withoutUses heq
      rw [hids.1, hids.2] at hkey
      rw [HoldsToken, token, ← hkey, ht₀, Option.map_some, heq]
  | postgres s =>
    cases s' with
    | redb s' => exact h.elim
    | postgres s' =>
      have hmap := Postgres.Untouched.tokens h (orgId, tokenId)
      rw [show s'.tokens.select (orgId, tokenId) = some t from ht, Option.map_some] at hmap
      obtain ⟨t₀, ht₀, heq⟩ := Option.map_eq_some_iff.mp hmap.symm
      have hkey : (orgId, tokenId) = (t₀.orgId, t₀.tokenId) := hs _ _ ht₀
      have hids := EnrollmentToken.ids_of_withoutUses heq
      rw [hids.1, hids.2] at hkey
      rw [HoldsToken, token, ← hkey, ht₀, Option.map_some, heq]

/-- Writing back a token that was there, with other uses. -/
theorem AnyStore.Untouched.updateToken (h : s.Untouched s') (ht : s.HoldsToken t) :
    s.Untouched (AnyStore.exec (.updateToken t) s').2 := by
  cases s with
  | redb s =>
    cases s' with
    | postgres s' => exact h.elim
    | redb s' =>
      refine { h with tokens := ?_ }
      intro k
      simp only [Redb.exec, Table.get_insert]
      split
      · next heq =>
        subst heq
        exact ht.symm
      · exact Redb.Untouched.tokens h k
  | postgres s =>
    cases s' with
    | redb s' => exact h.elim
    | postgres s' =>
      refine { h with tokens := ?_ }
      intro k
      have hk := Postgres.Untouched.tokens h k
      simp only [Postgres.exec, Rows.select_update]
      split
      · next heq =>
        subst heq
        have ht' : (s.tokens.select (t.orgId, t.tokenId)).map EnrollmentToken.withoutUses =
            some t.withoutUses := ht
        rw [ht'] at hk ⊢
        obtain ⟨t₁, ht₁, -⟩ := Option.map_eq_some_iff.mp hk
        rw [ht₁]
        rfl
      · exact hk

/-- An organization that is found later has an identifier. -/
theorem AnyStore.Untouched.isIdentifier (h : s.Untouched s') (hs : s.LogInOrder) {orgId : String}
    {o : Organization} (ho : (AnyStore.exec (.getOrg orgId) s').1 = .ok (some o)) :
    IsIdentifier orgId := by
  cases s with
  | redb s =>
    cases s' with
    | postgres s' => exact h.elim
    | redb s' =>
      have hget : s'.orgs[orgId]? = some o := Except.ok.inj ho
      rw [Redb.Untouched.orgs h] at hget
      exact (hs.1 _ _ hget).1
  | postgres s =>
    cases s' with
    | redb s' => exact h.elim
    | postgres s' =>
      have hget : s'.orgs.select orgId = some o := Except.ok.inj ho
      rw [Postgres.Untouched.orgs h] at hget
      exact (hs.1 _ _ hget).1

/-- An entry of an organization is added to the log. -/
theorem AnyStore.Untouched.appendAudit (h : s.Untouched s') (hs : s.LogInOrder)
    {e : EnrollmentAuditEntry} (he : IsIdentifier e.orgId) :
    s.Untouched (AnyStore.exec (.appendAudit e) s').2 := by
  cases s with
  | redb s =>
    cases s' with
    | postgres s' => exact h.elim
    | redb s' =>
      refine { h with audit := ?_ }
      intro k e₀ he₀
      simp only [Redb.exec, Table.get_insert]
      split
      -- the key tells the organization, the time and the id
      · next heq =>
        have hkey := hs.2.key k e₀ he₀
        rw [← heq] at hkey
        exact ⟨e, rfl, auditKey_inj_of_free he.nulFree (hs.2.nulFree k e₀ he₀) hkey⟩
      · exact Redb.Untouched.audit h k e₀ he₀
  | postgres s =>
    cases s' with
    | redb s' => exact h.elim
    | postgres s' =>
      refine Postgres.commit_ind (Q := s.Untouched) h ?_
      intro rows hins
      refine { h with audit := ?_ }
      intro k e' he
      have hold := Postgres.Untouched.audit h k e' he
      have hnew := (Postgres.insertChild_eq_ok hins).1
      rw [Rows.select_insert hnew]
      split
      -- an entry that is there is not replaced
      · next heq =>
        subst heq
        have hfresh := Rows.select_of_insert hnew
        rw [hold] at hfresh
        cases hfresh
      · exact hold

end Untouched

/-! ### The calls of a request without the token -/

/-- Reads, entries of the log of organizations, and tokens that were there, with other uses. -/
def outsiderSpec (s₀ : AnyStore) : Spec Storage where
  pre c := c.isRead = true ∨ (∃ e, c = .appendAudit e ∧ IsIdentifier e.orgId) ∨
    ∃ t, c = .updateToken t ∧ s₀.HoldsToken t
  post
    | .getOrg orgId, r => ∀ o, r = some o → IsIdentifier orgId
    | .getToken _ _, r => ∀ t, r = some t → s₀.HoldsToken t
    | _, _ => True

/-- **Each such call leaves the store untouched but for uses and the log.** -/
theorem outsiderSpec_sound {s₀ : AnyStore} (hs₀ : s₀.InOrder) :
    (outsiderSpec s₀).Sound AnyStore.exec s₀.Untouched := by
  intro c s h hpre
  refine ⟨?_, ?_⟩
  · rcases hpre with hread | ⟨e, rfl, he⟩ | ⟨t, rfl, ht⟩
    · rwa [AnyStore.exec_of_isRead hread]
    · exact h.appendAudit hs₀.log he
    · exact h.updateToken ht
  · intro x hx
    cases c
    case getOrg orgId =>
      rintro o rfl
      exact h.isIdentifier hs₀.log hx
    case getToken orgId tokenId =>
      rw [AnyStore.exec_getToken] at hx
      obtain rfl := Except.ok.inj hx
      exact fun t ht => h.holdsToken hs₀.tokens ht
    all_goals trivial

theorem meets_serve_outsider {G : Type} (s₀ : AnyStore) (gw : Gateway G) (env : Surroundings)
    {req : ApiRequest} (h : ¬ Admits gw.adminToken req.headers) :
    (serve gw env req).Meets (outsiderSpec s₀) fun _ => True := by
  apply meets_serve
  · exact fun hadmits => absurd hadmits h
  · intro _ _ orgId appId _ _ _ _
    have hop : ∀ op : ManagerOp, op.InEnroll orgId appId →
        (op.prog gw.mgr).Meets (outsiderSpec s₀) fun _ => True := by
      intro op hop
      rcases hop.isRead_or with hread | ⟨now, tokenId, rfl⟩
      · exact op.meets_of_isRead gw.mgr hread fun c hc => Or.inl hc
      · refine ManagerOp.meets_of_needs gw.mgr ⟨Or.inl rfl, ?_⟩
        exact fun t ht => Or.inr (Or.inr ⟨_, rfl, ht t rfl⟩)
    -- who gets as far as the log has found the organization
    have hfound : (TenantManager.getOrg orgId).Meets (outsiderSpec s₀) fun _ =>
        IsIdentifier orgId := meets_getOrg_of_finds ⟨Or.inl rfl, fun o ho => ho o rfl⟩
    exact meets_enroll_of gw.mgr hop hfound env.net env.enroll
      (fun hid v => Or.inr (Or.inl ⟨_, rfl, hid⟩)) _ _

/-! ### The gate -/

/-- The endpoints outside the middleware. -/
def Endpoint.isPublic : Endpoint → Bool
  | .enroll _ _ | .health | .metrics => true
  | _ => false

/-- **A request that is not admitted to an admin route makes no call**, and is refused whatever
else it holds. -/
theorem serve_refused {G : Type} (gw : Gateway G) (env : Surroundings) {req : ApiRequest}
    (h : ¬ Admits gw.adminToken req.headers) {e : Endpoint} (hroute : route req.path = some e)
    (he : e.isPublic = false) :
    ∃ r, serve gw env req = pure r ∧ (r.status = .unauthorized ∨ r.status = .forbidden) := by
  obtain ⟨r, hr, hstatus⟩ := requireAdminToken_of_not_admits h
  have hdispatch : dispatch gw env req = pure r := by
    unfold dispatch
    rw [hroute]
    cases e
    case enroll | health | metrics => cases he
    all_goals simp only [serveAdmin, hr]
  refine ⟨if req.method = .head then { r with payload := .empty } else r, ?_, ?_⟩
  · rw [serve, hdispatch]
    rfl
  · split <;> exact hstatus

/-! ### What is answered -/

/-- As long as the store answers as granted, the handler answers something of which `Q` holds, or
refuses. -/
def Decides (Φ : Spec Storage) {α : Type} (x : HttpReply α) (Q : α → Prop) : Prop :=
  x.run.Meets Φ fun
    | .ok a => Q a
    | .error r => r.status ≠ .ok

section Decides

variable {Φ : Spec Storage} {α β : Type}

theorem decides_pure {a : α} {Q : α → Prop} (h : Q a) : Decides Φ (pure a) Q :=
  (Prog.meets_ok (Except.ok a)).mpr h

theorem decides_bind {x : HttpReply α} {f : α → HttpReply β} {Q : β → Prop}
    (h : Decides Φ x fun a => Decides Φ (f a) Q) : Decides Φ (x >>= f) Q := by
  refine (Prog.meets_bind x.run _ _).mpr (Prog.Meets.mono ?_ h)
  intro r hr
  cases r with
  | ok a => exact hr
  | error r => exact (Prog.meets_ok (Except.error r)).mpr hr

theorem decides_orElse {p : StoreProg α} {Q : α → Prop} {status : HttpStatus} (hp : p.Meets Φ Q)
    (h : status ≠ .ok) : Decides Φ (Reply.orElse p (refusal status)) Q :=
  (Prog.meets_map _ _ _).mpr (Prog.meets_outcome hp fun _ => h)

theorem Decides.mono {x : HttpReply α} {P Q : α → Prop} (h : Decides Φ x P)
    (hPQ : ∀ a, P a → Q a) : Decides Φ x Q := by
  refine Prog.Meets.mono ?_ h
  intro r hr
  cases r with
  | ok a => exact hPQ a hr
  | error r => exact hr

/-- **What a success shows** is what the handler of its route has answered. -/
theorem serve_of_decides {G : Type} {gw : Gateway G} {env : Surroundings} {req : ApiRequest}
    {e : Endpoint} {r : AdminRequest} {Q : Payload → Prop} (hroute : route req.path = some e)
    (he : e.isPublic = false) (hmethod : req.method = .get) (hr : req.extract e = .ok r)
    (h : Decides Φ (answer gw env r) fun resp => Q resp.payload) :
    (serve gw env req).Meets Φ fun resp => resp.status = .ok → Q resp.payload := by
  by_cases hadmits : Admits gw.adminToken req.headers
  · have hhandler : dispatch gw env req = respond (answer gw env r) := by
      have hadmin : serveAdmin gw env req e = respond (answer gw env r) := by
        simp only [serveAdmin, requireAdminToken_eq_ok.mpr hadmits, hr]
      rw [← hadmin]
      unfold dispatch
      rw [hroute]
      cases e
      case enroll | health | metrics => cases he
      all_goals rfl
    have hget : req.method ≠ .head := by
      rw [hmethod]
      decide
    unfold serve
    rw [hhandler]
    refine (Prog.meets_map _ _ _).mpr ((Prog.meets_map _ _ _).mpr (Prog.Meets.mono ?_ h))
    intro outcome houtcome hok
    rw [if_neg hget] at hok ⊢
    cases outcome with
    | ok resp => exact houtcome
    | error resp => exact absurd hok houtcome
  · obtain ⟨refused, hserve, hstatus⟩ := serve_refused gw env hadmits hroute he
    rw [hserve, Prog.meets_pure]
    intro hok
    rw [hok] at hstatus
    cases hstatus <;> contradiction

end Decides

/-! ### Without the admin token -/

/-- **Without the admin token nothing but uses and the log changes.**  On either backend, from any
store that is in order, after any requests that do not carry the configured token, their storage
calls interleaved in any way: no record of any other kind has changed, no token has come or gone or
changed but in its uses, and where there was an entry of the log, there is it or, on redb, one of
the same organization, time and id.  The admin routes refuse them without a call. -/
theorem unauthenticated_untouched {G : Type} (gw : Gateway G) {s : AnyStore} (hs : s.InOrder)
    (l : List (Act Storage Error ApiResponse))
    (hl : ∀ p, Act.start p ∈ l → ∃ env req, ¬ Admits gw.adminToken req.headers ∧
      p = serve gw env req) :
    s.Untouched (Pool.acts AnyStore.exec ⟨s, []⟩ l).store ∧
    ∀ env req e, ¬ Admits gw.adminToken req.headers → route req.path = some e →
      e.isPublic = false → ∃ r, serve gw env req = pure r ∧
        (r.status = .unauthorized ∨ r.status = .forbidden) := by
  refine ⟨?_, fun env req e h hroute he => serve_refused gw env h hroute he⟩
  refine (Pool.acts_meets (Q := fun _ => True) (outsiderSpec_sound hs)
    (AnyStore.Untouched.refl s) ?_ ?_).1
  · intro p hp
    cases hp
  · intro p hp
    obtain ⟨env, req, h, rfl⟩ := hl p hp
    exact meets_serve_outsider s gw env h

/-- A store with one organization. -/
def acmeOrgStore : AnyStore :=
  (AnyStore.exec (.createOrg ⟨"acme", "Acme", .default, 0⟩) (.redb .empty)).2

/-- Someone who has no token tries to delete the organization. -/
def intruderRequest : ApiRequest := ⟨.delete, ["orgs", "acme"], [], [], .notJson⟩

/-- The organization stays. -/
theorem unauthenticated_untouched_acme :
    acmeOrgStore.Untouched (Pool.acts AnyStore.exec ⟨acmeOrgStore, []⟩
      [.start (serve seedGateway quietSurroundings intruderRequest), .step 0]).store ∧
    ∃ r, serve seedGateway quietSurroundings intruderRequest = pure r ∧
      (r.status = .unauthorized ∨ r.status = .forbidden) := by
  have hreached : acmeOrgStore.Reached := by
    refine ⟨_, List.mem_cons_self, [.createOrg ⟨"acme", "Acme", .default, 0⟩], ?_, rfl⟩
    intro c hc
    obtain rfl := List.mem_singleton.mp hc
    exact (by decide : IsIdentifier "acme")
  have hnot : ¬ Admits seedGateway.adminToken intruderRequest.headers := by
    intro h
    cases h "s3cret" rfl
  obtain ⟨hstay, hrefused⟩ := unauthenticated_untouched seedGateway hreached.inOrder
    [.start (serve seedGateway quietSurroundings intruderRequest), .step 0] (by
      simp only [Act.forall_start_start, Act.forall_start_step, Act.forall_start_nil, and_true]
      exact ⟨_, _, hnot, rfl⟩)
  exact ⟨hstay, hrefused _ _ (.org "acme") hnot rfl rfl⟩

end PeatGateway
