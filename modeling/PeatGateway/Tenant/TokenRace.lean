import PeatGateway.Storage.Open
import PeatGateway.Tenant.Manager

/-!
# Two calls on one token

`revoke_token` and `validate_and_consume_token` read the record of a token, decide, and
later write the whole record back.  Nothing ties the two steps together, so what another
call wrote in between is lost.

All calls here are on one token, at `(orgId, tokenId)`, in a store of either backend.

## Main definitions

* `AnyStore.token` — the token a lookup finds.
* `RevocationDurable` — what a revocation promises.
* `NoLateWrite` — the condition on the steps under which it lasts.

## Main results

* `step_consume`, `step_revoke`, `step_write` — what a step of a call does.
* `RaceInv.act` — what every move keeps.
* `revocation_durable_iff` — **a revocation lasts exactly if no call that had read the
  token before it writes the token after it**.
-/

namespace PeatGateway

open Effect TenantManager

/-! ### The stored token -/

/-- The token a lookup finds. -/
def AnyStore.token (st : AnyStore) (orgId tokenId : String) : Option EnrollmentToken :=
  match st with
  | .redb s => s.tokens[tokenKey orgId tokenId]?
  | .postgres s => s.tokens.select (orgId, tokenId)

theorem AnyStore.exec_getToken (st : AnyStore) (orgId tokenId : String) :
    AnyStore.exec (.getToken orgId tokenId) st = (.ok (st.token orgId tokenId), st) := by
  cases st <;> rfl

/-- A write of a token that is there is read back. -/
theorem AnyStore.exec_updateToken {st : AnyStore} {t : EnrollmentToken}
    (h : (st.token t.orgId t.tokenId).isSome = true) :
    (AnyStore.exec (.updateToken t) st).1 = .ok () ∧
      (AnyStore.exec (.updateToken t) st).2.token t.orgId t.tokenId = some t := by
  cases st with
  | redb s =>
    refine ⟨rfl, ?_⟩
    simp only [AnyStore.exec, Redb.exec, AnyStore.token, Table.get_insert, if_true]
  | postgres s =>
    refine ⟨rfl, ?_⟩
    simp only [AnyStore.exec, Postgres.exec, AnyStore.token, Rows.select_update, if_true]
    obtain ⟨t', ht'⟩ := Option.isSome_iff_exists.mp h
    rw [show s.tokens.select (t.orgId, t.tokenId) = some t' from ht', Option.map_some]

/-! ### The steps of a call -/

/-- The token with one more use. -/
def used (t : EnrollmentToken) : EnrollmentToken := { t with uses := t.uses + 1 }

/-- The token, revoked. -/
def revoked (t : EnrollmentToken) : EnrollmentToken := { t with revoked := true }

/-- The checks of `validate_and_consume_token`. -/
def Accepts (t : EnrollmentToken) (now : UInt64) (appId : String) : Prop :=
  t.appId = appId ∧ t.revoked = false ∧ expired t now = false ∧ exhausted t = false

/-- The last step of both calls. -/
def writeBack (t : EnrollmentToken) : StoreProg EnrollmentToken := do
  store (.updateToken t)
  return t

/-- How `validate_and_consume_token` goes on after its lookup. -/
theorem validateAndConsumeToken_eq (now : UInt64) (orgId appId tokenId : String) :
    ∃ k, validateAndConsumeToken now orgId appId tokenId = .call (.getToken orgId tokenId) k ∧
      ∀ t, (Accepts t now appId → k (.ok (some t)) = writeBack (used t)) ∧
        (¬ Accepts t now appId → ∃ e, k (.ok (some t)) = .done (.error e)) := by
  obtain ⟨f, hf, hft⟩ : ∃ f, validateAndConsumeToken now orgId appId tokenId =
      (getToken orgId tokenId >>= f) ∧
      ∀ t, (Accepts t now appId → f t = writeBack (used t)) ∧
        (¬ Accepts t now appId → ∃ e, f t = .done (.error e)) := by
    refine ⟨_, rfl, ?_⟩
    intro t
    simp only [Prog.ensure_bind, Bool.not_eq_true', Accepts]
    refine ⟨?_, ?_⟩
    · rintro ⟨h₁, h₂, h₃, h₄⟩
      rw [if_pos h₁, if_pos h₂, if_pos h₃, if_pos h₄]
      rfl
    · intro h
      split_ifs with h₁ h₂ h₃ h₄
      · exact absurd ⟨h₁, h₂, h₃, h₄⟩ h
      all_goals exact ⟨_, rfl⟩
  exact ⟨_, hf, hft⟩

/-- How `revoke_token` goes on after its lookup. -/
theorem revokeToken_eq (orgId tokenId : String) :
    ∃ k, revokeToken orgId tokenId = .call (.getToken orgId tokenId) k ∧
      ∀ t, (t.revoked = false → k (.ok (some t)) = writeBack (revoked t)) ∧
        (t.revoked = true → ∃ e, k (.ok (some t)) = .done (.error e)) := by
  obtain ⟨f, hf, hft⟩ : ∃ f, revokeToken orgId tokenId = (getToken orgId tokenId >>= f) ∧
      ∀ t, (t.revoked = false → f t = writeBack (revoked t)) ∧
        (t.revoked = true → ∃ e, f t = .done (.error e)) := by
    refine ⟨_, rfl, ?_⟩
    intro t
    simp only [Prog.ensure_bind, Bool.not_eq_true']
    refine ⟨?_, ?_⟩
    · intro h
      rw [if_pos h]
      rfl
    · intro h
      rw [if_neg (by simp [h])]
      exact ⟨_, rfl⟩
  exact ⟨_, hf, hft⟩

section Steps

variable {orgId tokenId : String} {P : Pool Storage Error AnyStore EnrollmentToken}
  {t : EnrollmentToken} (ht : P.store.token orgId tokenId = some t) {i : ℕ}

include ht

/-- The lookup of `validate_and_consume_token`: the call is about to write the token with
one more use, or has failed. -/
theorem step_consume {now : UInt64} {appId : String}
    (hi : P.threads[i]? = some (validateAndConsumeToken now orgId appId tokenId)) :
    (Accepts t now appId ∧
      P.act AnyStore.exec (.step i) = ⟨P.store, P.threads.set i (writeBack (used t))⟩) ∨
    (¬ Accepts t now appId ∧ ∃ e,
      P.act AnyStore.exec (.step i) = ⟨P.store, P.threads.set i (.done (.error e))⟩) := by
  obtain ⟨k, hk, hkt⟩ := validateAndConsumeToken_eq now orgId appId tokenId
  have hact := Pool.act_step_call (h := AnyStore.exec) (hk ▸ hi)
  rw [AnyStore.exec_getToken, ht] at hact
  by_cases hacc : Accepts t now appId
  · exact Or.inl ⟨hacc, hact.trans (by rw [(hkt t).1 hacc])⟩
  · obtain ⟨e, he⟩ := (hkt t).2 hacc
    exact Or.inr ⟨hacc, e, hact.trans (by rw [he])⟩

/-- The lookup of `revoke_token`. -/
theorem step_revoke (hi : P.threads[i]? = some (revokeToken orgId tokenId)) :
    (t.revoked = false ∧
      P.act AnyStore.exec (.step i) = ⟨P.store, P.threads.set i (writeBack (revoked t))⟩) ∨
    (t.revoked = true ∧ ∃ e,
      P.act AnyStore.exec (.step i) = ⟨P.store, P.threads.set i (.done (.error e))⟩) := by
  obtain ⟨k, hk, hkt⟩ := revokeToken_eq orgId tokenId
  have hact := Pool.act_step_call (h := AnyStore.exec) (hk ▸ hi)
  rw [AnyStore.exec_getToken, ht] at hact
  cases hrev : t.revoked with
  | false => exact Or.inl ⟨rfl, hact.trans (by rw [(hkt t).1 hrev])⟩
  | true =>
    obtain ⟨e, he⟩ := (hkt t).2 hrev
    exact Or.inr ⟨rfl, e, hact.trans (by rw [he])⟩

/-- The write: what the call has read before is stored, with its change, whatever the
store holds by now. -/
theorem step_write {t' : EnrollmentToken} (hids : t'.orgId = orgId ∧ t'.tokenId = tokenId)
    (hi : P.threads[i]? = some (writeBack t')) :
    ∃ st', st'.token orgId tokenId = some t' ∧
      P.act AnyStore.exec (.step i) = ⟨st', P.threads.set i (.done (.ok t'))⟩ := by
  obtain ⟨rfl, rfl⟩ := hids
  obtain ⟨hok, htok⟩ := AnyStore.exec_updateToken (Option.isSome_of_eq_some ht)
  have hact := Pool.act_step_call (h := AnyStore.exec) hi
  rw [hok] at hact
  exact ⟨_, htok, hact⟩

end Steps

/-- A call that has returned takes no step. -/
theorem step_done {P : Pool Storage Error AnyStore EnrollmentToken} {i : ℕ}
    {r : Except Error EnrollmentToken} (hi : P.threads[i]? = some (.done r)) :
    P.act AnyStore.exec (.step i) = P := by
  simp only [Pool.act, hi]

theorem step_none {P : Pool Storage Error AnyStore EnrollmentToken} {i : ℕ}
    (hi : P.threads[i]? = none) : P.act AnyStore.exec (.step i) = P := by
  simp only [Pool.act, hi]

/-! ### Revocation -/

section Revocation

variable {orgId tokenId : String}

/-- The first call of the pool, which revokes the token, has returned `Ok`. -/
def RevokeReturned (P : Pool Storage Error AnyStore EnrollmentToken) : Prop :=
  ∃ t, P.threads[0]? = some (.done (.ok t))

/-- The step is no write of a token after the revocation has returned. -/
def NoLateWrite (P : Pool Storage Error AnyStore EnrollmentToken)
    (a : Act Storage Error EnrollmentToken) : Prop :=
  RevokeReturned P → ∀ i t k, a = .step i → P.threads[i]? ≠ some (.call (.updateToken t) k)

/-- The stored token is revoked. -/
def StoredRevoked (orgId tokenId : String) (st : AnyStore) : Prop :=
  ∃ t, st.token orgId tokenId = some t ∧ t.revoked = true

/-- The programs a run starts consume the token. -/
def StartsConsume (orgId tokenId : String) (l : List (Act Storage Error EnrollmentToken)) : Prop :=
  ∀ p, Act.start p ∈ l → ∃ now appId, p = validateAndConsumeToken now orgId appId tokenId

/-- The revocation lasts: in every state after it has returned `Ok`, the stored token is
revoked, and a call that started after that has failed unless it has not begun. -/
def RevocationDurable (orgId tokenId : String) (P : Pool Storage Error AnyStore EnrollmentToken)
    (l : List (Act Storage Error EnrollmentToken)) : Prop :=
  ∀ l₁ l₂ l₃, l = l₁ ++ l₂ ++ l₃ → RevokeReturned (P.acts AnyStore.exec l₁) →
    StoredRevoked orgId tokenId (P.acts AnyStore.exec (l₁ ++ l₂)).store ∧
    ∀ i p, (P.acts AnyStore.exec l₁).threads.length ≤ i →
      (P.acts AnyStore.exec (l₁ ++ l₂)).threads[i]? = some p →
      (∃ now appId, p = validateAndConsumeToken now orgId appId tokenId) ∨ ∃ e, p = .done (.error e)

/-- A call of the pool: the first revokes, the others consume, and those about to write
have read an unrevoked token. -/
def RaceStage (orgId tokenId : String) (i : ℕ) (p : StoreProg EnrollmentToken) : Prop :=
  (∃ r, p = .done r) ∨ (i = 0 ∧ p = revokeToken orgId tokenId) ∨
  (i ≠ 0 ∧ ∃ now appId, p = validateAndConsumeToken now orgId appId tokenId) ∨
  ∃ t, p = writeBack t ∧ (t.orgId = orgId ∧ t.tokenId = tokenId) ∧ (t.revoked = true ↔ i = 0)

/-- What holds of every state of such a run. -/
structure RaceInv (orgId tokenId : String) (P : Pool Storage Error AnyStore EnrollmentToken) :
    Prop where
  ne_nil : P.threads ≠ []
  cell : ∃ t, P.store.token orgId tokenId = some t ∧ t.orgId = orgId ∧ t.tokenId = tokenId
  stages : ∀ i p, P.threads[i]? = some p → RaceStage orgId tokenId i p

/-- One thread moves on; the others stay where they are. -/
theorem RaceInv.set {P : Pool Storage Error AnyStore EnrollmentToken} (h : RaceInv orgId tokenId P)
    {st : AnyStore} {i : ℕ} {q : StoreProg EnrollmentToken} (hq : RaceStage orgId tokenId i q)
    (hcell : ∃ t, st.token orgId tokenId = some t ∧ t.orgId = orgId ∧ t.tokenId = tokenId) :
    RaceInv orgId tokenId ⟨st, P.threads.set i q⟩ := by
  refine ⟨by simpa using h.ne_nil, hcell, ?_⟩
  intro j p hj
  rw [List.getElem?_set] at hj
  split at hj
  · next heq =>
    split at hj
    · obtain rfl := Option.some.inj hj
      exact heq ▸ hq
    · cases hj
  · exact h.stages j p hj

/-- **Every move keeps the invariant**, whatever the order. -/
theorem RaceInv.act {P : Pool Storage Error AnyStore EnrollmentToken} (h : RaceInv orgId tokenId P)
    {a : Act Storage Error EnrollmentToken}
    (ha : ∀ p, a = .start p → ∃ now appId, p = validateAndConsumeToken now orgId appId tokenId) :
    RaceInv orgId tokenId (P.act AnyStore.exec a) := by
  cases a with
  | start p =>
    refine ⟨by simp, h.cell, ?_⟩
    intro i q hq
    rw [Pool.act_start, List.getElem?_append] at hq
    split at hq
    · exact h.stages i q hq
    · next hlt =>
      -- A new thread never gets the place of the revocation.
      have hi : i ≠ 0 := by
        rintro rfl
        exact hlt (List.length_pos_of_ne_nil h.ne_nil)
      rw [List.getElem?_singleton] at hq
      split at hq
      · obtain rfl := Option.some.inj hq
        exact Or.inr (Or.inr (Or.inl ⟨hi, ha p rfl⟩))
      · cases hq
  | step i =>
    obtain ⟨t, ht, hids⟩ := h.cell
    cases hi : P.threads[i]? with
    | none => rwa [step_none hi]
    | some p =>
      rcases h.stages i p hi with ⟨r, rfl⟩ | ⟨rfl, rfl⟩ | ⟨hne0, now, appId, rfl⟩ |
        ⟨t', rfl, hids', hrev⟩
      · rwa [step_done hi]
      · rcases step_revoke ht hi with ⟨-, heq⟩ | ⟨-, e, heq⟩
        · rw [heq]
          exact h.set (.inr (.inr (.inr ⟨_, rfl, hids, by simp [revoked]⟩))) ⟨t, ht, hids⟩
        · rw [heq]
          exact h.set (.inl ⟨_, rfl⟩) ⟨t, ht, hids⟩
      · rcases step_consume ht hi with ⟨hacc, heq⟩ | ⟨-, e, heq⟩
        · rw [heq]
          refine h.set (.inr (.inr (.inr ⟨_, rfl, hids, ?_⟩))) ⟨t, ht, hids⟩
          -- A consumer got here because it read a token that was not revoked.
          simp [used, hacc.2.1, hne0]
        · rw [heq]
          exact h.set (.inl ⟨_, rfl⟩) ⟨t, ht, hids⟩
      · obtain ⟨st', ht', heq⟩ := step_write ht hids' hi
        rw [heq]
        exact h.set (.inl ⟨_, rfl⟩) ⟨t', ht', hids'⟩

/-- Only the write of the first call ends the revocation. -/
theorem RaceInv.storedRevoked_of_act {P : Pool Storage Error AnyStore EnrollmentToken}
    (h : RaceInv orgId tokenId P) (hP : ¬ RevokeReturned P) {a : Act Storage Error EnrollmentToken}
    (ha : RevokeReturned (P.act AnyStore.exec a)) :
    StoredRevoked orgId tokenId (P.act AnyStore.exec a).store := by
  cases a with
  | start p =>
    obtain ⟨t, ht⟩ := ha
    rw [Pool.act_start, List.getElem?_append_left (List.length_pos_of_ne_nil h.ne_nil)] at ht
    exact absurd ⟨t, ht⟩ hP
  | step i =>
    obtain ⟨t, ht, hids⟩ := h.cell
    cases hi : P.threads[i]? with
    | none => exact absurd (step_none hi ▸ ha) hP
    | some p =>
      rcases h.stages i p hi with ⟨r, rfl⟩ | ⟨rfl, rfl⟩ | ⟨hne0, now, appId, rfl⟩ |
        ⟨t', rfl, hids', hrev⟩
      · exact absurd (step_done hi ▸ ha) hP
      · obtain ⟨t₀, ht₀⟩ := ha
        have hlt := (List.getElem?_eq_some_iff.mp hi).1
        rcases step_revoke ht hi with ⟨-, heq⟩ | ⟨-, e, heq⟩ <;>
          rw [heq, List.getElem?_set_self hlt] at ht₀ <;> cases ht₀
      · obtain ⟨t₀, ht₀⟩ := ha
        rcases step_consume ht hi with ⟨-, heq⟩ | ⟨-, e, heq⟩ <;>
          rw [heq, List.getElem?_set_ne hne0] at ht₀ <;> exact absurd ⟨t₀, ht₀⟩ hP
      -- The write of a consumer leaves the first thread as it was, so it was the revocation's.
      · obtain ⟨st', ht', heq⟩ := step_write ht hids' hi
        rw [heq] at ha ⊢
        refine ⟨t', ht', hrev.mpr ?_⟩
        by_contra hne0
        obtain ⟨t₀, ht₀⟩ := ha
        rw [List.getElem?_set_ne hne0] at ht₀
        exact hP ⟨t₀, ht₀⟩

/-- Once the revocation has returned and no token is written any more, a step does nothing
or ends a call with an error. -/
theorem RaceInv.late_step {P : Pool Storage Error AnyStore EnrollmentToken}
    (h : RaceInv orgId tokenId P) (hret : RevokeReturned P)
    (hst : StoredRevoked orgId tokenId P.store) {i : ℕ} (hi : NoLateWrite P (.step i)) :
    P.act AnyStore.exec (.step i) = P ∨ ∃ e, i ≠ 0 ∧
      P.act AnyStore.exec (.step i) = ⟨P.store, P.threads.set i (.done (.error e))⟩ := by
  obtain ⟨t, ht, hrev⟩ := hst
  obtain ⟨t₀, ht₀⟩ := hret
  cases hp : P.threads[i]? with
  | none => exact Or.inl (step_none hp)
  | some p =>
    rcases h.stages i p hp with ⟨r, rfl⟩ | ⟨rfl, rfl⟩ | ⟨hne0, now, appId, rfl⟩ | ⟨t', rfl, -, -⟩
    · exact Or.inl (step_done hp)
    · rw [ht₀] at hp
      cases hp
    · rcases step_consume ht hp with ⟨hacc, -⟩ | ⟨-, e, heq⟩
      · rw [hacc.2.1] at hrev
        cases hrev
      · exact Or.inr ⟨e, hne0, heq⟩
    · exact absurd hp (hi ⟨t₀, ht₀⟩ i t' _ rfl)

/-- What holds from the return of the revocation on: calls from position `n` on have failed,
or not begun. -/
structure AfterRevoke (orgId tokenId : String) (n : ℕ)
    (P : Pool Storage Error AnyStore EnrollmentToken) : Prop where
  inv : RaceInv orgId tokenId P
  returned : RevokeReturned P
  stored : StoredRevoked orgId tokenId P.store
  late : ∀ i p, n ≤ i → P.threads[i]? = some p →
    (∃ now appId, p = validateAndConsumeToken now orgId appId tokenId) ∨ ∃ e, p = .done (.error e)

/-- From the state in which the revocation returns. -/
theorem afterRevoke {P : Pool Storage Error AnyStore EnrollmentToken}
    (h : RaceInv orgId tokenId P) (hret : RevokeReturned P)
    (hst : StoredRevoked orgId tokenId P.store) :
    AfterRevoke orgId tokenId P.threads.length P := by
  refine ⟨h, hret, hst, ?_⟩
  intro i p hle hi
  rw [List.getElem?_eq_none hle] at hi
  cases hi

theorem AfterRevoke.act {n : ℕ} {P : Pool Storage Error AnyStore EnrollmentToken}
    (h : AfterRevoke orgId tokenId n P) {a : Act Storage Error EnrollmentToken}
    (ha : ∀ p, a = .start p → ∃ now appId, p = validateAndConsumeToken now orgId appId tokenId)
    (hcond : NoLateWrite P a) : AfterRevoke orgId tokenId n (P.act AnyStore.exec a) := by
  have hinv := h.inv.act ha
  cases a with
  | start p =>
    obtain ⟨t, ht⟩ := h.returned
    refine ⟨hinv, ⟨t, ?_⟩, h.stored, ?_⟩
    · rw [Pool.act_start, List.getElem?_append_left (List.length_pos_of_ne_nil h.inv.ne_nil)]
      exact ht
    · intro i q hn hq
      rw [Pool.act_start, List.getElem?_append] at hq
      split at hq
      · exact h.late i q hn hq
      · rw [List.getElem?_singleton] at hq
        split at hq
        · obtain rfl := Option.some.inj hq
          exact Or.inl (ha p rfl)
        · cases hq
  | step i =>
    -- The store stays as it is, so a call from now on reads a revoked token.
    rcases h.inv.late_step h.returned h.stored hcond with heq | ⟨e, hne0, heq⟩
    · rw [heq]
      exact h
    · obtain ⟨t, ht⟩ := h.returned
      rw [heq] at hinv ⊢
      refine ⟨hinv, ⟨t, (List.getElem?_set_ne hne0).trans ht⟩, h.stored, fun j q hn hq => ?_⟩
      rw [List.getElem?_set] at hq
      split at hq
      · split at hq
        · obtain rfl := Option.some.inj hq
          exact Or.inr ⟨e, rfl⟩
        · cases hq
      · exact h.late j q hn hq

/-- **A revocation lasts exactly if no token is written after it has returned.**  A call
that starts then never writes, so such a write is one of a call that had read the token
before the revocation wrote it. -/
theorem revocation_durable_iff {st : AnyStore} {t : EnrollmentToken}
    (ht : st.token t.orgId t.tokenId = some t) {l : List (Act Storage Error EnrollmentToken)}
    (hl : StartsConsume t.orgId t.tokenId l) :
    RevocationDurable t.orgId t.tokenId ⟨st, [revokeToken t.orgId t.tokenId]⟩ l ↔
      Pool.Always AnyStore.exec NoLateWrite ⟨st, [revokeToken t.orgId t.tokenId]⟩ l := by
  have hinit : RaceInv t.orgId t.tokenId ⟨st, [revokeToken t.orgId t.tokenId]⟩ := by
    refine ⟨List.cons_ne_nil _ _, ⟨t, ht, rfl, rfl⟩, ?_⟩
    intro i p hi
    rw [List.getElem?_singleton] at hi
    split at hi
    · next hi0 => exact Or.inr (Or.inl ⟨hi0, (Option.some.inj hi).symm⟩)
    · cases hi
  constructor
  · intro hdur
    apply Pool.always_of_append
    intro l₁ a l₂ heq hret i t' k ha hi
    subst ha
    have hinv : RaceInv t.orgId t.tokenId
        (Pool.acts AnyStore.exec ⟨st, [revokeToken t.orgId t.tokenId]⟩ l₁) := by
      refine Pool.acts_inv (fun P hP b hb => hP.act fun p hp => hl p ?_) hinit
      rw [heq, ← hp]
      exact List.mem_append_left _ hb
    -- the call that writes has read an unrevoked token, and stores it
    obtain ⟨hstored, -⟩ := hdur l₁ [.step i] l₂ (by simpa using heq) hret
    rw [Pool.acts_append] at hstored
    generalize Pool.acts AnyStore.exec ⟨st, [revokeToken t.orgId t.tokenId]⟩ l₁ = P at *
    obtain ⟨cur, hcur, -⟩ := hinv.cell
    obtain ⟨t₀, ht₀⟩ := hret
    rcases hinv.stages i _ hi with ⟨r, hr⟩ | ⟨rfl, -⟩ | ⟨-, now, appId, hc⟩ | ⟨t'', hw, hids, hrev⟩
    · cases hr
    · rw [ht₀] at hi
      cases hi
    · obtain ⟨k', hk', -⟩ := validateAndConsumeToken_eq now t.orgId appId t.tokenId
      rw [hk'] at hc
      cases hc
    · obtain ⟨st', hst', hact⟩ := step_write hcur hids (hw ▸ hi)
      obtain ⟨x, hx, hxrev⟩ := hstored
      rw [Pool.acts_cons, hact, Pool.acts_nil, hst'] at hx
      obtain rfl := Option.some.inj hx
      rw [hrev.mp hxrev, ht₀] at hi
      cases hi
  · intro halways l₁ l₂ l₃ heq hret
    subst heq
    rw [Pool.always_append, Pool.always_append] at halways
    obtain ⟨⟨h₁, h₂⟩, -⟩ := halways
    have hstarts : ∀ a ∈ l₁ ++ l₂, ∀ p, a = Act.start p →
        ∃ now appId, p = validateAndConsumeToken now t.orgId appId t.tokenId := by
      rintro a ha p rfl
      exact hl p (List.mem_append_left _ ha)
    have hfirst : RaceInv t.orgId t.tokenId
          (Pool.acts AnyStore.exec ⟨st, [revokeToken t.orgId t.tokenId]⟩ l₁) ∧
        (RevokeReturned (Pool.acts AnyStore.exec ⟨st, [revokeToken t.orgId t.tokenId]⟩ l₁) →
          StoredRevoked t.orgId t.tokenId
            (Pool.acts AnyStore.exec ⟨st, [revokeToken t.orgId t.tokenId]⟩ l₁).store) := by
      refine h₁.inv (J := fun P => RaceInv t.orgId t.tokenId P ∧
        (RevokeReturned P → StoredRevoked t.orgId t.tokenId P.store)) ?_ ⟨hinit, ?_⟩
      · rintro P a ha ⟨hinv, hst⟩ hcond
        have hp := hstarts a (List.mem_append_left _ ha)
        refine ⟨hinv.act hp, ?_⟩
        intro hret
        by_cases hP : RevokeReturned P
        · exact ((afterRevoke hinv hP (hst hP)).act hp hcond).stored
        · exact hinv.storedRevoked_of_act hP hret
      · rintro ⟨x, hx⟩
        obtain ⟨k, hk, -⟩ := revokeToken_eq t.orgId t.tokenId
        simp [hk] at hx
    obtain ⟨hinv, hst⟩ := hfirst
    have hafter := h₂.inv (J := AfterRevoke t.orgId t.tokenId
        (Pool.acts AnyStore.exec ⟨st, [revokeToken t.orgId t.tokenId]⟩ l₁).threads.length)
      (fun P a ha hP hcond => hP.act (hstarts a (List.mem_append_right _ ha)) hcond)
      (afterRevoke hinv hret (hst hret))
    rw [Pool.acts_append]
    exact ⟨hafter.stored, hafter.late⟩

/-- A token that may be used five times. -/
def fiveUses : EnrollmentToken := ⟨"k", "o", "f", "label", some 5, 0, none, 0, false⟩

/-- A store with that token. -/
def fiveUsesStore : AnyStore := (AnyStore.exec (.createToken fiveUses) (.redb .empty)).2

/-- A revocation, and a call that starts after it. -/
theorem revocation_durable_serial :
    RevocationDurable "o" "k" ⟨fiveUsesStore, [revokeToken "o" "k"]⟩
      [.step 0, .step 0, .start (validateAndConsumeToken 1 "o" "f" "k"), .step 1] := by
  refine (revocation_durable_iff (t := fiveUses) rfl ?_).mpr ?_
  · simp only [StartsConsume, Act.forall_start_start, Act.forall_start_step, Act.forall_start_nil]
    exact ⟨⟨1, "f", rfl⟩, trivial⟩
  · refine ⟨?_, ?_, ?_, ?_, trivial⟩
    · rintro ⟨t, ⟨⟩⟩
    · rintro ⟨t, ⟨⟩⟩
    · rintro - i t k ⟨⟩
    · rintro - i t k ⟨⟩ ⟨⟩

/-- **A revocation is lost** if a call that has read the token before writes it back
after. -/
theorem revocation_lost :
    ¬ ∀ (st : AnyStore) (t : EnrollmentToken) (l : List (Act Storage Error EnrollmentToken)),
      st.token t.orgId t.tokenId = some t → StartsConsume t.orgId t.tokenId l →
      RevocationDurable t.orgId t.tokenId ⟨st, [revokeToken t.orgId t.tokenId]⟩ l := by
  intro h
  have hstarts : StartsConsume "o" "k"
      [.start (validateAndConsumeToken 1 "o" "f" "k"), .step 1, .step 0, .step 0, .step 1] := by
    simp only [StartsConsume, Act.forall_start_start, Act.forall_start_step, Act.forall_start_nil]
    exact ⟨⟨1, "f", rfl⟩, trivial⟩
  -- the consumer reads, the revocation reads and writes, the consumer writes
  obtain ⟨⟨t, ht, hrev⟩, -⟩ := h fiveUsesStore fiveUses _ rfl hstarts
    [.start (validateAndConsumeToken 1 "o" "f" "k"), .step 1, .step 0, .step 0] [.step 1] [] rfl
    ⟨revoked fiveUses, rfl⟩
  have : some t = some (used fiveUses) := ht.symm.trans rfl
  obtain rfl := Option.some.inj this
  cases hrev

end Revocation

end PeatGateway
