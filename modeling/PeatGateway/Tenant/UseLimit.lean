import PeatGateway.Tenant.TokenRace

/-!
# How often a token is used

A token issued for a number of uses is checked when it is read and counted when it is
written back.  Two calls that overlap read the same count, both succeed and write the same
count, so a token is used more often than it says.

## Main definitions

* `okCount`, `Quiescent` — the calls that have succeeded, and states with no call in flight.
* `UseLimitHolds` — what the limit promises in one state.
* `CurrentWrite` — the condition on the steps under which it holds.
* `Tally` — the invariant that relates the stored uses to the calls that have succeeded.

## Main results

* `Tally.act` — what one move does to the tally.
* `useLimit_iff` — **the uses are counted right exactly if every write finds the record its
  call has read**.
-/

namespace PeatGateway

open Effect TenantManager

/-- The token after a number of uses. -/
def withUses (t : EnrollmentToken) (u : UInt32) : EnrollmentToken := { t with uses := u }

/-- The call has returned `Ok`. -/
def isOk : StoreProg EnrollmentToken → Bool
  | .done (.ok _) => true
  | _ => false

/-- How many calls have returned `Ok`. -/
def okCount (P : Pool Storage Error AnyStore EnrollmentToken) : ℕ := P.threads.countP isOk

/-- No call is in flight. -/
def Quiescent (P : Pool Storage Error AnyStore EnrollmentToken) : Prop :=
  ∀ p ∈ P.threads, ∃ r, p = .done r

/-- The step is no write of a token other than the stored one with one more use: what the
call has read is still what is stored. -/
def CurrentWrite (P : Pool Storage Error AnyStore EnrollmentToken)
    (a : Act Storage Error EnrollmentToken) : Prop :=
  ∀ i t k, a = .step i → P.threads[i]? = some (.call (.updateToken t) k) →
    ∃ t₀, P.store.token t.orgId t.tokenId = some t₀ ∧ t = used t₀

/-- The use limit in one state: at most `m` calls have returned `Ok`, and if none is in
flight the stored token counts them. -/
def UseLimitHolds (orgId tokenId : String) (m : UInt32)
    (P : Pool Storage Error AnyStore EnrollmentToken) : Prop :=
  okCount P ≤ m.toNat ∧
    (Quiescent P → ∃ t, P.store.token orgId tokenId = some t ∧ t.uses.toNat = okCount P)

/-- The tally of a run.  All records differ in their uses only.  With `d = 0` the stored
uses are the calls that returned `Ok`; with `d = 1` they have fallen behind, and no write
to come can catch up. -/
structure Tally (tok : EnrollmentToken) (m : UInt32) (d : ℕ)
    (P : Pool Storage Error AnyStore EnrollmentToken) : Prop where
  cell : ∃ u, P.store.token tok.orgId tok.tokenId = some (withUses tok u) ∧ u.toNat ≤ m.toNat ∧
    u.toNat + d ≤ okCount P ∧ (d = 0 → u.toNat = okCount P)
  stages : ∀ p ∈ P.threads, (∃ r, p = .done r) ∨
    (∃ now appId, p = validateAndConsumeToken now tok.orgId appId tok.tokenId) ∨
    ∃ v, p = writeBack (withUses tok (v + 1)) ∧ v.toNat < m.toNat ∧ v.toNat + d ≤ okCount P

theorem okCount_set {P : Pool Storage Error AnyStore EnrollmentToken} {st : AnyStore} {i : ℕ}
    {p q : StoreProg EnrollmentToken} (hi : P.threads[i]? = some p) (hp : isOk p = false) :
    okCount ⟨st, P.threads.set i q⟩ = okCount P + if isOk q then 1 else 0 := by
  obtain ⟨hlt, rfl⟩ := List.getElem?_eq_some_iff.mp hi
  rw [okCount, List.countP_set hlt, hp]
  rfl

/-- One call moves on without returning `Ok`, and the store stays. -/
theorem Tally.set {tok : EnrollmentToken} {m : UInt32} {d : ℕ}
    {P : Pool Storage Error AnyStore EnrollmentToken} (h : Tally tok m d P) {i : ℕ}
    {p q : StoreProg EnrollmentToken} (hi : P.threads[i]? = some p) (hp : isOk p = false)
    (hq : (∃ e, q = .done (.error e)) ∨
      ∃ v, q = writeBack (withUses tok (v + 1)) ∧ v.toNat < m.toNat ∧ v.toNat + d ≤ okCount P) :
    Tally tok m d ⟨P.store, P.threads.set i q⟩ := by
  have hcount : okCount ⟨P.store, P.threads.set i q⟩ = okCount P := by
    rw [okCount_set hi hp]
    rcases hq with ⟨e, rfl⟩ | ⟨v, rfl, -⟩ <;> rfl
  refine ⟨by rw [hcount]; exact h.cell, ?_⟩
  intro p' hp'
  rw [hcount]
  rcases List.mem_or_eq_of_mem_set hp' with hp' | rfl
  · exact h.stages p' hp'
  · rcases hq with ⟨e, rfl⟩ | hq
    · exact Or.inl ⟨_, rfl⟩
    · exact Or.inr (Or.inr hq)

theorem toNat_add_one {v m : UInt32} (h : v.toNat < m.toNat) : (v + 1).toNat = v.toNat + 1 := by
  have := m.toNat_lt
  rw [UInt32.toNat_add, UInt32.toNat_one, Nat.mod_eq_of_lt (by omega)]

/-- A write counts one use more; whether the stored uses keep up depends on what the call
had read. -/
theorem Tally.write {tok : EnrollmentToken} {m : UInt32} {d d' : ℕ}
    {P : Pool Storage Error AnyStore EnrollmentToken} (h : Tally tok m d P) {i : ℕ} {v : UInt32}
    (hi : P.threads[i]? = some (writeBack (withUses tok (v + 1)))) (hv : v.toNat < m.toNat)
    (hle : d' ≤ d + 1) (hbound : v.toNat + d' ≤ okCount P) (hzero : d' = 0 → v.toNat = okCount P) :
    Tally tok m d' (P.act AnyStore.exec (.step i)) := by
  obtain ⟨u, hu, -, -⟩ := h.cell
  have hids : (withUses tok (v + 1)).orgId = tok.orgId ∧
    (withUses tok (v + 1)).tokenId = tok.tokenId := ⟨rfl, rfl⟩
  obtain ⟨st', hst', heq⟩ := step_write hu hids hi
  have hcount : okCount ⟨st', P.threads.set i (.done (.ok (withUses tok (v + 1))))⟩ =
      okCount P + 1 := okCount_set hi rfl
  have hadd := toNat_add_one hv
  rw [heq]
  refine ⟨⟨v + 1, hst', by omega, by omega, ?_⟩, ?_⟩
  · intro hd
    have := hzero hd
    omega
  · intro p hp
    rcases List.mem_or_eq_of_mem_set hp with hp | rfl
    · rcases h.stages p hp with hr | hc | ⟨w, hw, hwm, hwd⟩
      · exact Or.inl hr
      · exact Or.inr (Or.inl hc)
      · exact Or.inr (Or.inr ⟨w, hw, hwm, by omega⟩)
    · exact Or.inl ⟨_, rfl⟩

/-- A call about to write has read one of the records of the run. -/
theorem Tally.of_write {tok : EnrollmentToken} {m : UInt32} {d : ℕ}
    {P : Pool Storage Error AnyStore EnrollmentToken} (h : Tally tok m d P) {i : ℕ}
    {t : EnrollmentToken} {k : Except Error Unit → StoreProg EnrollmentToken}
    (hi : P.threads[i]? = some (.call (.updateToken t) k)) :
    ∃ v, t = withUses tok (v + 1) ∧ P.threads[i]? = some (writeBack (withUses tok (v + 1))) ∧
      v.toNat < m.toNat ∧ v.toNat + d ≤ okCount P := by
  rcases h.stages _ (List.mem_of_getElem? hi) with ⟨r, hr⟩ | ⟨now, appId, hc⟩ | ⟨v, hv, hvm, hvd⟩
  · cases hr
  · obtain ⟨k', hk', -⟩ := validateAndConsumeToken_eq now tok.orgId appId tok.tokenId
    rw [hk'] at hc
    cases hc
  · refine ⟨v, ?_, hv ▸ hi, hvm, hvd⟩
    cases hv
    rfl

/-- A move that is no write keeps the tally. -/
theorem Tally.act_of_not_write {tok : EnrollmentToken} {m : UInt32} (hm : tok.maxUses = some m)
    {d : ℕ} {P : Pool Storage Error AnyStore EnrollmentToken} (h : Tally tok m d P)
    {a : Act Storage Error EnrollmentToken}
    (ha : ∀ p, a = .start p →
      ∃ now appId, p = validateAndConsumeToken now tok.orgId appId tok.tokenId)
    (hw : ∀ i t k, a = .step i → P.threads[i]? ≠ some (.call (.updateToken t) k)) :
    Tally tok m d (P.act AnyStore.exec a) := by
  cases a with
  | start p =>
    obtain ⟨now, appId, rfl⟩ := ha p rfl
    have hcount : okCount ⟨P.store, P.threads ++ [validateAndConsumeToken now tok.orgId appId
        tok.tokenId]⟩ = okCount P := List.countP_append
    refine ⟨by rw [Pool.act_start, hcount]; exact h.cell, ?_⟩
    intro q hq
    rw [Pool.act_start, hcount]
    rcases List.mem_append.mp hq with hq | hq
    · exact h.stages q hq
    · exact Or.inr (Or.inl ⟨now, appId, List.mem_singleton.mp hq⟩)
  | step i =>
    obtain ⟨u, hu, hum, hud, -⟩ := h.cell
    cases hi : P.threads[i]? with
    | none => rwa [step_none hi]
    | some p =>
      rcases h.stages p (List.mem_of_getElem? hi) with ⟨r, rfl⟩ | ⟨now, appId, rfl⟩ | ⟨v, rfl, -⟩
      · rwa [step_done hi]
      · rcases step_consume hu hi with ⟨hacc, heq⟩ | ⟨-, e, heq⟩
        · rw [heq]
          refine h.set hi rfl (Or.inr ⟨u, rfl, ?_, hud⟩)
          -- the token the call has read is not used up
          have := hacc.2.2.2
          rw [← UInt32.lt_iff_toNat_lt]
          simpa [exhausted, withUses, hm] using this
        · rw [heq]
          exact h.set hi rfl (Or.inl ⟨e, rfl⟩)
      · exact absurd hi (hw i _ _ rfl)

/-- **One move**: if it is current the stored uses keep up, and if not they fall behind. -/
theorem Tally.act {tok : EnrollmentToken} {m : UInt32} (hm : tok.maxUses = some m)
    {P : Pool Storage Error AnyStore EnrollmentToken} (h : Tally tok m 0 P)
    {a : Act Storage Error EnrollmentToken}
    (ha : ∀ p, a = .start p →
      ∃ now appId, p = validateAndConsumeToken now tok.orgId appId tok.tokenId) :
    (CurrentWrite P a ∧ Tally tok m 0 (P.act AnyStore.exec a)) ∨
      (¬ CurrentWrite P a ∧ Tally tok m 1 (P.act AnyStore.exec a)) := by
  obtain ⟨u, hu, hum, -, huc⟩ := h.cell
  by_cases hw : ∃ i t k, a = .step i ∧ P.threads[i]? = some (.call (.updateToken t) k)
  · obtain ⟨i, t, k, rfl, hi⟩ := hw
    obtain ⟨v, rfl, hi', hvm, hvc⟩ := h.of_write hi
    -- The write is current if the call has read the uses that are stored now.
    by_cases heq : v = u
    · subst heq
      refine Or.inl ⟨?_, h.write hi' hvm (by omega) hvc huc⟩
      intro j t k' hj hjt
      rw [← Act.step.inj hj, hi] at hjt
      cases hjt
      exact ⟨withUses tok v, hu, rfl⟩
    -- A stale call has read fewer uses than are stored, and puts back one more than it read.
    · have hne : v.toNat ≠ u.toNat := fun hn => heq (UInt32.toNat_inj.mp hn)
      have huc := huc rfl
      refine Or.inr ⟨?_, h.write hi' hvm (by omega) (by omega) (by omega)⟩
      intro hcur
      obtain ⟨t₀, ht₀, hused⟩ := hcur i _ _ rfl hi
      obtain rfl := Option.some.inj (hu.symm.trans ht₀)
      exact heq ((UInt32.add_left_inj 1).mp (congrArg EnrollmentToken.uses hused))
  · have hw' : ∀ i t k, a = .step i → P.threads[i]? ≠ some (.call (.updateToken t) k) :=
      fun i t k hai hi => hw ⟨i, t, k, hai, hi⟩
    exact Or.inl ⟨fun i t k hai hi => absurd hi (hw' i t k hai), h.act_of_not_write hm ha hw'⟩

/-- Once behind, the stored uses stay behind. -/
theorem Tally.act_behind {tok : EnrollmentToken} {m : UInt32} (hm : tok.maxUses = some m)
    {P : Pool Storage Error AnyStore EnrollmentToken} (h : Tally tok m 1 P)
    {a : Act Storage Error EnrollmentToken}
    (ha : ∀ p, a = .start p →
      ∃ now appId, p = validateAndConsumeToken now tok.orgId appId tok.tokenId) :
    Tally tok m 1 (P.act AnyStore.exec a) := by
  by_cases hw : ∃ i t k, a = .step i ∧ P.threads[i]? = some (.call (.updateToken t) k)
  · obtain ⟨i, t, k, rfl, hi⟩ := hw
    obtain ⟨v, -, hi', hvm, hvc⟩ := h.of_write hi
    exact h.write hi' hvm (by omega) hvc (by omega)
  · exact h.act_of_not_write hm ha fun i t k hai hi => hw ⟨i, t, k, hai, hi⟩

/-- From a right tally, either every move is current or the stored uses end up behind. -/
theorem Tally.acts {tok : EnrollmentToken} {m : UInt32} (hm : tok.maxUses = some m)
    {l : List (Act Storage Error EnrollmentToken)} (hl : StartsConsume tok.orgId tok.tokenId l)
    {P : Pool Storage Error AnyStore EnrollmentToken} (h : Tally tok m 0 P) :
    Pool.Always AnyStore.exec CurrentWrite P l ∨ Tally tok m 1 (P.acts AnyStore.exec l) := by
  induction l generalizing P with
  | nil => exact Or.inl trivial
  | cons a l ih =>
    have hl' : StartsConsume tok.orgId tok.tokenId l := fun p hp => hl p (List.mem_cons_of_mem _ hp)
    rcases h.act hm (a := a) fun p hp => hl p (hp ▸ List.mem_cons_self) with ⟨hcur, h'⟩ | ⟨-, h'⟩
    · rcases ih hl' h' with hall | hend
      · exact Or.inl ⟨hcur, hall⟩
      · exact Or.inr hend
    · refine Or.inr ?_
      rw [Pool.acts_cons]
      exact Pool.acts_inv (fun P hP b hb => hP.act_behind hm fun p hp => hl' p (hp ▸ hb)) h'

/-- **The use limit holds exactly if every write finds the record its call has read.**  In
every run all of whose writes are current, it holds in every state; and a run that ends
with no call in flight satisfies it in every state only if all its writes are current. -/
theorem useLimit_iff {st : AnyStore} {tok : EnrollmentToken} {m : UInt32}
    (hm : tok.maxUses = some m) (h0 : tok.uses = 0)
    (ht : st.token tok.orgId tok.tokenId = some tok)
    {l : List (Act Storage Error EnrollmentToken)} (hl : StartsConsume tok.orgId tok.tokenId l) :
    (Pool.Always AnyStore.exec CurrentWrite ⟨st, []⟩ l → ∀ l₁ l₂, l = l₁ ++ l₂ →
      UseLimitHolds tok.orgId tok.tokenId m (Pool.acts AnyStore.exec ⟨st, []⟩ l₁)) ∧
    (Quiescent (Pool.acts AnyStore.exec ⟨st, []⟩ l) →
      (∀ l₁ l₂, l = l₁ ++ l₂ →
        UseLimitHolds tok.orgId tok.tokenId m (Pool.acts AnyStore.exec ⟨st, []⟩ l₁)) →
      Pool.Always AnyStore.exec CurrentWrite ⟨st, []⟩ l) := by
  have hinit : Tally tok m 0 ⟨st, []⟩ := by
    refine ⟨⟨0, ?_, Nat.zero_le _, le_refl 0, fun _ => rfl⟩, fun p hp => absurd hp List.not_mem_nil⟩
    rw [ht, withUses, ← h0]
  constructor
  · rintro hall l₁ l₂ rfl
    have hall₁ := (Pool.always_append.mp hall).1
    have htally : Tally tok m 0 (Pool.acts AnyStore.exec ⟨st, []⟩ l₁) := by
      refine hall₁.inv ?_ hinit
      intro P a ha hP hcur
      rcases hP.act hm (a := a) fun p hp => hl p (hp ▸ List.mem_append_left _ ha) with
        ⟨-, h'⟩ | ⟨hn, -⟩
      · exact h'
      · exact absurd hcur hn
    obtain ⟨u, hu, hum, -, huc⟩ := htally.cell
    exact ⟨huc rfl ▸ hum, fun _ => ⟨_, hu, huc rfl⟩⟩
  -- At the end nothing is in flight, so stored uses that are behind break the limit's last part.
  · intro hq hholds
    rcases hinit.acts hm hl with hall | hend
    · exact hall
    · obtain ⟨u, hu, -, hlt, -⟩ := hend.cell
      obtain ⟨t, ht', huses⟩ := (hholds l [] (List.append_nil l).symm).2 hq
      rw [hu] at ht'
      obtain rfl := Option.some.inj ht'
      change u.toNat = _ at huses
      omega

/-- A token that may be used once. -/
def oneUse : EnrollmentToken := ⟨"k", "o", "f", "label", some 1, 0, none, 0, false⟩

/-- A store with that token. -/
def oneUseStore : AnyStore := (AnyStore.exec (.createToken oneUse) (.redb .empty)).2

/-- One call after the other: the second is refused, and one use is counted. -/
theorem useLimit_serial :
    UseLimitHolds "o" "k" 1 (Pool.acts AnyStore.exec ⟨oneUseStore, []⟩
      [.start (validateAndConsumeToken 1 "o" "f" "k"), .step 0, .step 0,
        .start (validateAndConsumeToken 2 "o" "f" "k"), .step 1]) := by
  have hstarts : StartsConsume "o" "k" [.start (validateAndConsumeToken 1 "o" "f" "k"), .step 0,
      .step 0, .start (validateAndConsumeToken 2 "o" "f" "k"), .step 1] := by
    simp only [StartsConsume, Act.forall_start_start, Act.forall_start_step, Act.forall_start_nil]
    exact ⟨⟨1, "f", rfl⟩, ⟨2, "f", rfl⟩, trivial⟩
  have hmax : oneUse.maxUses = some 1 := rfl
  have hstored : oneUseStore.token oneUse.orgId oneUse.tokenId = some oneUse := rfl
  refine (useLimit_iff hmax rfl hstored hstarts).1 ?_ _ [] (List.append_nil _).symm
  refine ⟨?_, ?_, ?_, ?_, ?_, trivial⟩
  · rintro i t k ⟨⟩
  · rintro i t k ⟨⟩ ⟨⟩
  · rintro i t k ⟨⟩ ⟨⟩
    exact ⟨oneUse, rfl, rfl⟩
  · rintro i t k ⟨⟩
  · rintro i t k ⟨⟩ ⟨⟩

/-- **A token for one use is used twice** if two calls read it before either writes. -/
theorem useLimit_exceeded :
    ¬ ∀ (st : AnyStore) (tok : EnrollmentToken) (m : UInt32)
        (l : List (Act Storage Error EnrollmentToken)), tok.maxUses = some m → tok.uses = 0 →
      st.token tok.orgId tok.tokenId = some tok → StartsConsume tok.orgId tok.tokenId l →
      UseLimitHolds tok.orgId tok.tokenId m (Pool.acts AnyStore.exec ⟨st, []⟩ l) := by
  intro h
  have hstarts : StartsConsume "o" "k" [.start (validateAndConsumeToken 1 "o" "f" "k"),
      .start (validateAndConsumeToken 2 "o" "f" "k"), .step 0, .step 1, .step 0, .step 1] := by
    simp only [StartsConsume, Act.forall_start_start, Act.forall_start_step, Act.forall_start_nil]
    exact ⟨⟨1, "f", rfl⟩, ⟨2, "f", rfl⟩, trivial⟩
  have hle := (h oneUseStore oneUse 1 _ rfl rfl rfl hstarts).1
  exact absurd hle (by decide)

end PeatGateway
