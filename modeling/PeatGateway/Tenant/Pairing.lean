import PeatGateway.Tenant.Core

/-!
# Creating and deleting one formation at once

A formation and its genesis are two rows.  `create_formation` looks, writes the formation and
then stores the genesis; `delete_formation` removes the formation and then the genesis.  Each
write is a transaction of its own, so other calls on the same formation may come between the
two.

All calls here are on one formation, at `(o, a)`, in a store of either backend.

## Main definitions

* `AnyStore.pair` — the two rows.
* `Agrees`, `PairsUp` — the rows belong together, and do so whenever no call is in flight.
* `InOrder` — the condition on the steps under which they do.

## Main results

* `pairStep` — what a step of a call can do.
* `PairInv.act`, `PairInv.acts` — what every move, and every run, in order keeps.
* `pairsUp_of_inOrder` — **a formation and its genesis agree if the writes of the calls keep
  their order**.
-/

namespace PeatGateway

open Effect TenantManager

/-! ### The programs -/

section Programs

variable {G : Type} (mgr : TenantManager G) (o a : String)

/-- The last step of a creation: its genesis is stored. -/
def storing (f : FormationConfig) (b : Bytes) : StoreProg (Outcome G) := do
  store (.storeGenesis o a b)
  return .formation f

/-- The two writes of a creation. -/
def writing (f : FormationConfig) (b : Bytes) : StoreProg (Outcome G) := do
  store (.createFormation o f)
  storing o a f b

/-- The last step of a deletion: the genesis is removed. -/
def clearing : StoreProg (Outcome G) := do
  let _ ← Prog.attempt (S := Storage) (.deleteGenesis o a)
  return .unit

/-- The stored bytes are read as a genesis with the formation's mesh id. -/
def HasMesh (f : FormationConfig) (b : Bytes) : Prop :=
  ∀ w, ∃ g, mgr.unprotect w b = .ok g ∧ mgr.api.meshId g = f.meshId

/-- A call has failed, or is about to write a formation and the genesis made for it. -/
def Looked (p : StoreProg (Outcome G)) : Prop :=
  (∃ e, p = .done (.error e)) ∨ ∃ f b, p = writing o a f b ∧ f.appId = a ∧ HasMesh mgr f b

/-- A call has written nothing so far. -/
def Looking (p : StoreProg (Outcome G)) : Prop :=
  p.Until (fun c : StorageCall => c.isRead = true) (Looked mgr o a)

/-- A creation or a deletion of the formation. -/
def IsPairCall (p : StoreProg (Outcome G)) : Prop :=
  (∃ draw policy, p = (ManagerOp.createFormation draw o a policy).prog mgr) ∨
    p = (ManagerOp.deleteFormation o a).prog mgr

end Programs

/-- What is assumed of the crates: decryption inverts encryption, the provider unwraps what
it has wrapped, and decoding inverts encoding. -/
structure TenantManager.Lawful {G : Type} (mgr : TenantManager G) : Prop where
  aead : mgr.aead.Lawful
  keyProvider : mgr.keyProvider.Inverts
  codec : ∀ g, mgr.api.decode (mgr.api.encode g) = .ok g

section Looking

variable {G : Type} {mgr : TenantManager G} {o a : String}

/-- What is stored for a genesis is read as it. -/
theorem TenantManager.Lawful.unprotect_protect (h : mgr.Lawful) {d : SealDraw} {g : G} {b : Bytes}
    (hb : mgr.protect d (mgr.api.encode g) = .ok b) (w : Bytes) : mgr.unprotect w b = .ok g := by
  have hdecode : ∀ (msg : Error → Error),
      (mgr.api.decode (mgr.api.encode g)).mapError msg = .ok g := by
    intro msg
    rw [h.codec]
    rfl
  unfold TenantManager.protect at hb
  unfold TenantManager.unprotect
  by_cases henc : mgr.encryptEnabled = true
  · rw [if_pos henc] at hb ⊢
    rw [openEnvelope_sealEnvelope h.aead h.keyProvider hb w]
    exact hdecode _
  · rw [if_neg henc] at hb ⊢
    obtain rfl := Except.ok.inj hb
    exact hdecode _

/-- A creation looks before it writes, and what it is about to write belongs together. -/
theorem looking_createFormation (h : mgr.Lawful) (draw : FormationDraw)
    (policy : EnrollmentPolicy) :
    Looking mgr o a ((ManagerOp.createFormation draw o a policy).prog mgr) := by
  have hfail : ∀ e, Looked mgr o a (.done (.error e)) := fun e => Or.inl ⟨e, rfl⟩
  unfold Looking
  simp only [ManagerOp.prog, Prog.map, TenantManager.createFormation, TenantManager.getOrg,
    Prog.bind_assoc]
  apply Prog.until_ofExcept_bind hfail
  intro _ _
  refine Prog.until_perform_bind hfail rfl ?_
  intro found
  apply Prog.until_okOrElse_bind hfail
  intro org _
  refine Prog.until_perform_bind hfail rfl ?_
  intro existing
  apply Prog.until_ensure_bind hfail
  intro _
  refine Prog.until_perform_bind hfail rfl ?_
  intro taken
  apply Prog.until_ensure_bind hfail
  intro _
  apply Prog.until_ofExcept_bind hfail
  intro b hb
  exact .here (Or.inr ⟨_, b, rfl, rfl, fun w => ⟨_, h.unprotect_protect hb w, rfl⟩⟩)

/-- A call that has written nothing is not about to store a genesis, and has returned nothing
but an error. -/
theorem Looking.ne {p : StoreProg (Outcome G)} (h : Looking mgr o a p) :
    (∀ f b, p ≠ storing o a f b) ∧ ∀ x, p ≠ .done (.ok x) := by
  cases h with
  | here hlooked =>
    obtain ⟨e, rfl⟩ | ⟨f, b, rfl, -, -⟩ := hlooked
    · exact ⟨nofun, nofun⟩
    · exact ⟨nofun, nofun⟩
  | call hc hk =>
    refine ⟨?_, nofun⟩
    intro f b heq
    cases heq
    cases hc

end Looking

/-! ### The pair of rows -/

namespace AnyStore

variable {st : AnyStore} {o a : String}

/-- The formation under two ids and the bytes of its genesis. -/
def pair (st : AnyStore) (o a : String) : Option FormationConfig × Option Bytes :=
  (st.core.formation o a, st.core.genesis o a)

/-- A genesis of the organization can be stored: on Postgres its row refers to the row of the
organization. -/
def Admits (st : AnyStore) (o : String) : Prop := st.isRedb = true ∨ (st.core.org o).isSome = true

instance (st : AnyStore) (o : String) : Decidable (st.Admits o) :=
  inferInstanceAs (Decidable (_ ∨ _))

/-- The write of a formation is refused, or made; Postgres refuses it if there is a formation
already. -/
theorem pair_createFormation (st : AnyStore) {f : FormationConfig} (hf : f.appId = a) :
    (∃ e, exec (.createFormation o f) st = (.error e, st)) ∨
      ∃ st', exec (.createFormation o f) st = (.ok (), st') ∧
        st'.pair o a = (some f, (st.pair o a).2) ∧ st'.Admits o ∧
        (st.isRedb = true ∨ (st.pair o a).1 = none) := by
  subst hf
  cases st with
  | redb s =>
    refine Or.inr ⟨_, rfl, ?_, Or.inl rfl, Or.inl rfl⟩
    exact Prod.ext ((Table.get_insert _ _ _ _).trans (if_pos rfl)) rfl
  | postgres s =>
    cases hi : s.insertChild "formations" s.formations o (o, f.appId) f with
    | error e =>
      refine Or.inl ⟨e, ?_⟩
      simp only [exec, Postgres.exec, hi, Postgres.commit]
    | ok t =>
      obtain ⟨hins, horg⟩ := Postgres.insertChild_eq_ok hi
      refine Or.inr ⟨.postgres { s with formations := t }, ?_, ?_, Or.inr horg, Or.inr ?_⟩
      · simp only [exec, Postgres.exec, hi, Postgres.commit]
      · exact Prod.ext ((Rows.select_insert hins _).trans (if_pos rfl)) rfl
      · exact Rows.select_of_insert hins

theorem pair_storeGenesis (h : st.Admits o) (a : String) (b : Bytes) :
    ∃ st', exec (.storeGenesis o a b) st = (.ok (), st') ∧
      st'.pair o a = ((st.pair o a).1, some b) ∧ st'.Admits o := by
  cases st with
  | redb s =>
    refine ⟨_, rfl, ?_, Or.inl rfl⟩
    exact Prod.ext rfl ((Table.get_insert _ _ _ _).trans (if_pos rfl))
  | postgres s =>
    obtain hredb | horg := h
    · cases hredb
    · refine ⟨.postgres { s with genesis := s.genesis.upsert (o, a) b }, ?_, ?_, Or.inr horg⟩
      · simp only [exec, Postgres.exec, Postgres.upsertChild,
          show (s.orgs.select o).isSome = true from horg, Bool.or_true, if_true, Postgres.commit]
      · exact Prod.ext rfl ((Rows.select_upsert _ _ _ _).trans (if_pos rfl))

theorem pair_deleteFormation (st : AnyStore) (o a : String) :
    ∃ st', exec (.deleteFormation o a) st = (.ok (st.pair o a).1.isSome, st') ∧
      st'.pair o a = (none, (st.pair o a).2) ∧ (st.Admits o → st'.Admits o) := by
  cases st with
  | redb s =>
    refine ⟨_, rfl, ?_, fun _ => Or.inl rfl⟩
    exact Prod.ext ((Table.get_erase _ _ _).trans (if_pos rfl)) rfl
  | postgres s =>
    refine ⟨_, rfl, ?_, id⟩
    exact Prod.ext ((Rows.select_delete _ _ _).trans (if_pos rfl)) rfl

theorem pair_deleteGenesis (st : AnyStore) (o a : String) :
    ∃ st', exec (.deleteGenesis o a) st = (.ok (st.pair o a).2.isSome, st') ∧
      st'.pair o a = ((st.pair o a).1, none) ∧ (st.Admits o → st'.Admits o) := by
  cases st with
  | redb s =>
    refine ⟨_, rfl, ?_, fun _ => Or.inl rfl⟩
    exact Prod.ext rfl ((Table.get_erase _ _ _).trans (if_pos rfl))
  | postgres s =>
    refine ⟨_, rfl, ?_, id⟩
    exact Prod.ext rfl ((Rows.select_delete _ _ _).trans (if_pos rfl))

end AnyStore

/-! ### The steps of a call -/

section

variable {G : Type} (mgr : TenantManager G) (o a : String)

/-- Where a call on the formation can stand. -/
inductive PairStage : StoreProg (Outcome G) → Prop
  /-- It has written nothing, and may have failed. -/
  | looking {p : StoreProg (Outcome G)} (h : Looking mgr o a p) : PairStage p
  /-- It has written the formation. -/
  | storing {f : FormationConfig} {b : Bytes} (h : HasMesh mgr f b) : PairStage (storing o a f b)
  | deleting : PairStage ((ManagerOp.deleteFormation o a).prog mgr)
  /-- It has removed the formation. -/
  | clearing : PairStage (clearing o a)
  | returned (x : Outcome G) : PairStage (.done (.ok x))

/-- What a step of the call at position `i` can do. -/
inductive PairStep (P : Pool Storage Error AnyStore (Outcome G)) (i : ℕ) :
    Pool Storage Error AnyStore (Outcome G) → Prop
  | idle : PairStep P i P
  /-- The rows stay as they are, and the call has written nothing. -/
  | look {p q : StoreProg (Outcome G)} {st : AnyStore} (hi : P.threads[i]? = some p)
      (hstore : ∀ f b, p ≠ storing o a f b) (hclear : p ≠ clearing o a) (hq : Looking mgr o a q)
      (hpair : st.pair o a = P.store.pair o a) (hadm : P.store.Admits o → st.Admits o) :
      PairStep P i ⟨st, P.threads.set i q⟩
  /-- A creation writes its formation. -/
  | write {f : FormationConfig} {b : Bytes} {st : AnyStore}
      (hi : P.threads[i]? = some (writing o a f b)) (hb : HasMesh mgr f b)
      (hpair : st.pair o a = (some f, (P.store.pair o a).2)) (hadm : st.Admits o)
      (hnew : P.store.isRedb = true ∨ (P.store.pair o a).1 = none) :
      PairStep P i ⟨st, P.threads.set i (storing o a f b)⟩
  /-- A creation stores its genesis. -/
  | store {f : FormationConfig} {b : Bytes} {st : AnyStore}
      (hi : P.threads[i]? = some (storing o a f b)) (hb : HasMesh mgr f b)
      (hpair : st.pair o a = ((P.store.pair o a).1, some b)) (hadm : st.Admits o) :
      PairStep P i ⟨st, P.threads.set i (.done (.ok (.formation f)))⟩
  /-- A deletion removes the formation. -/
  | remove {st : AnyStore}
      (hi : P.threads[i]? = some ((ManagerOp.deleteFormation o a).prog mgr))
      (hpair : st.pair o a = (none, (P.store.pair o a).2)) (hadm : P.store.Admits o → st.Admits o) :
      PairStep P i ⟨st, P.threads.set i (clearing o a)⟩
  /-- A deletion removes the genesis. -/
  | clear {st : AnyStore} (hi : P.threads[i]? = some (clearing o a))
      (hpair : st.pair o a = ((P.store.pair o a).1, none)) (hadm : P.store.Admits o → st.Admits o) :
      PairStep P i ⟨st, P.threads.set i (.done (.ok .unit))⟩

end

section Moves

variable {G : Type} {mgr : TenantManager G} {o a : String}
  {P : Pool Storage Error AnyStore (Outcome G)}

/-- **What a step can do**, whatever the stage of the call. -/
theorem pairStep {i : ℕ} {p : StoreProg (Outcome G)} (hi : P.threads[i]? = some p)
    (hp : PairStage mgr o a p) (hadm : ∀ f b, p = storing o a f b → P.store.Admits o) :
    PairStep mgr o a P i (P.act AnyStore.exec (.step i)) := by
  cases hp with
  | returned x =>
    rw [show P.act AnyStore.exec (.step i) = P by simp only [Pool.act, hi]]
    exact .idle
  | looking h =>
    cases h with
    | call hc hk =>
      rw [Pool.act_step_call hi, AnyStore.exec_of_isRead hc]
      refine .look hi ?_ ?_ (hk _) rfl id
      · intro f b heq
        cases heq
        cases hc
      · intro heq
        cases heq
        cases hc
    | here hR =>
      obtain ⟨e, rfl⟩ | ⟨f, b, rfl, hf, hb⟩ := hR
      · rw [show P.act AnyStore.exec (.step i) = P by simp only [Pool.act, hi]]
        exact .idle
      · rw [Pool.act_step_call hi]
        obtain ⟨e, hexec⟩ | ⟨st, hexec, hpair, hadm', hnew⟩ :=
          P.store.pair_createFormation (o := o) hf
        · -- Postgres has refused the write
          rw [hexec]
          exact .look hi (by rintro _ _ ⟨⟩) (by rintro ⟨⟩) (.here (Or.inl ⟨e, rfl⟩)) rfl id
        · rw [hexec]
          exact .write hi hb hpair hadm' hnew
  | @storing f b hb =>
    obtain ⟨st, hexec, hpair, hadm'⟩ := AnyStore.pair_storeGenesis (hadm f b rfl) a b
    rw [Pool.act_step_call hi, hexec]
    exact .store hi hb hpair hadm'
  | deleting =>
    obtain ⟨st, hexec, hpair, hadm'⟩ := P.store.pair_deleteFormation o a
    rw [Pool.act_step_call hi, hexec]
    cases hrow : (P.store.pair o a).1 with
    | some f => exact .remove hi hpair hadm'
    | none =>
      -- there was nothing to remove, and the call fails
      refine .look hi (by rintro _ _ ⟨⟩) (by rintro ⟨⟩) (.here (Or.inl ⟨_, rfl⟩)) ?_ hadm'
      rw [hpair]
      exact Prod.ext hrow.symm rfl
  | clearing =>
    obtain ⟨st, hexec, hpair, hadm'⟩ := P.store.pair_deleteGenesis o a
    rw [Pool.act_step_call hi, hexec]
    exact .clear hi hpair hadm'

end Moves

/-! ### What the calls keep -/

section

variable {G : Type} (mgr : TenantManager G) (o a : String)

/-- The genesis is that of the formation, or a call is still to make it so. -/
def Matched (P : Pool Storage Error AnyStore (Outcome G)) : Prop :=
  match P.store.pair o a with
  | (none, b) => b = none ∨ clearing o a ∈ P.threads
  | (some f, b) => (∃ b', b = some b' ∧ HasMesh mgr f b') ∨ ∃ b', storing o a f b' ∈ P.threads

/-- What holds of every state of a run in order. -/
structure PairInv (P : Pool Storage Error AnyStore (Outcome G)) : Prop where
  stages : ∀ p ∈ P.threads, PairStage mgr o a p
  admits : ∀ f b, storing o a f b ∈ P.threads → P.store.Admits o
  matched : Matched mgr o a P

/-- The move keeps the order of the writes: a formation is not overwritten, a genesis is
stored while the formation is that of its creation, and removed while there is none, or only
one whose genesis is still to be stored. -/
structure InOrder (P : Pool Storage Error AnyStore (Outcome G))
    (m : Act Storage Error (Outcome G)) : Prop where
  write : ∀ i f b, m = .step i → P.threads[i]? = some (writing o a f b) →
    P.store.isRedb = true → P.store.core.formation o a = none
  store : ∀ i f b, m = .step i → P.threads[i]? = some (storing o a f b) →
    P.store.core.formation o a = some f
  clear : ∀ i, m = .step i → P.threads[i]? = some (clearing o a) →
    P.store.core.formation o a = none ∨
      ∃ f b, P.store.core.formation o a = some f ∧ storing o a f b ∈ P.threads

/-- There is a formation if and only if there is a genesis, and it has the formation's mesh
id. -/
structure Agrees (st : AnyStore) : Prop where
  both : (st.core.formation o a).isSome = (st.core.genesis o a).isSome
  mesh : ∀ f b, st.core.formation o a = some f → st.core.genesis o a = some b → HasMesh mgr f b

/-- The move is the one with which the call at position `i` returns `r`. -/
def Returns (P : Pool Storage Error AnyStore (Outcome G)) (m : Act Storage Error (Outcome G))
    (i : ℕ) (r : Except Error (Outcome G)) : Prop :=
  P.threads[i]? ≠ some (.done r) ∧ (P.act AnyStore.exec m).threads[i]? = some (.done r)

/-- Whenever no call is in flight, the rows agree, and a creation that has returned `Ok`, with
no step of a deletion after it, has its mesh id in both. -/
def PairsUp (st : AnyStore) (l : Schedule G) : Prop :=
  ∀ l₁ l₂, l = l₁ ++ l₂ → (Pool.acts AnyStore.exec ⟨st, []⟩ l₁).AllReturned →
    Agrees mgr o a (Pool.acts AnyStore.exec ⟨st, []⟩ l₁).store ∧
    ∀ l₀ m l' i f, l₁ = l₀ ++ m :: l' →
      Returns (Pool.acts AnyStore.exec ⟨st, []⟩ l₀) m i (.ok (.formation f)) →
      Pool.Always AnyStore.exec (Pool.Makes fun c _ => c ≠ .deleteFormation o a)
        ((Pool.acts AnyStore.exec ⟨st, []⟩ l₀).act AnyStore.exec m) l' →
      ((Pool.acts AnyStore.exec ⟨st, []⟩ l₁).store.core.formation o a).map (·.meshId) =
          some f.meshId ∧
        ∃ b, (Pool.acts AnyStore.exec ⟨st, []⟩ l₁).store.core.genesis o a = some b ∧
          HasMesh mgr f b

end

section Keeps

variable {G : Type} {mgr : TenantManager G} {o a : String}
  {P P' : Pool Storage Error AnyStore (Outcome G)}

/-- **A step in order keeps the rows matched.** -/
theorem PairStep.inv {i : ℕ} (h : PairStep mgr o a P i P') (hinv : PairInv mgr o a P)
    (hord : InOrder o a P (.step i)) : PairInv mgr o a P' := by
  have hset : ∀ {q}, PairStage mgr o a q → ∀ p ∈ P.threads.set i q, PairStage mgr o a p := by
    intro q hq p hp
    rcases List.mem_or_eq_of_mem_set hp with hp | rfl
    · exact hinv.stages p hp
    · exact hq
  have hadmits : ∀ {q : StoreProg (Outcome G)}, (∀ f b, q ≠ storing o a f b) → ∀ f b,
      storing o a f b ∈ P.threads.set i q → P.store.Admits o := by
    intro q hq f b hmem
    rcases List.mem_or_eq_of_mem_set hmem with hmem | heq
    · exact hinv.admits f b hmem
    · exact absurd heq.symm (hq f b)
  have hmatched := hinv.matched
  unfold Matched at hmatched
  cases h with
  | idle => exact hinv
  | @look p q st hi hstore hclear hq hpair hadm =>
    -- the call was not one that others wait for
    refine ⟨hset (.looking hq), fun f b hmem => hadm (hadmits (Looking.ne hq).1 f b hmem), ?_⟩
    unfold Matched
    rw [hpair]
    generalize P.store.pair o a = c at hmatched ⊢
    obtain ⟨_ | f, b⟩ := c
    · exact hmatched.imp_right fun hmem => Pool.mem_set_of_ne hmem hi hclear.symm
    · apply hmatched.imp_right
      rintro ⟨b', hmem⟩
      exact ⟨b', Pool.mem_set_of_ne hmem hi (hstore f b').symm⟩
  | @write f b st hi hb hpair hadm hnew =>
    -- whatever the genesis is, this call is still to store its own
    refine ⟨hset (.storing hb), fun _ _ _ => hadm, ?_⟩
    unfold Matched
    rw [hpair]
    exact Or.inr ⟨b, List.mem_set (List.getElem?_eq_some_iff.mp hi).1 _⟩
  | @store f b st hi hb hpair hadm =>
    refine ⟨hset (.returned _), fun _ _ _ => hadm, ?_⟩
    have hrow := hord.store i f b rfl hi
    unfold Matched
    rw [hpair, show (P.store.pair o a).1 = some f from hrow]
    exact Or.inl ⟨b, rfl, hb⟩
  | @remove st hi hpair hadm =>
    -- this call is still to remove the genesis
    refine ⟨hset .clearing, fun f b hmem => hadm (hadmits (q := clearing o a) nofun f b hmem), ?_⟩
    unfold Matched
    rw [hpair]
    exact Or.inr (List.mem_set (List.getElem?_eq_some_iff.mp hi).1 _)
  | @clear st hi hpair hadm =>
    have hdone : ∀ f b, (.done (.ok .unit) : StoreProg (Outcome G)) ≠ storing o a f b := nofun
    refine ⟨hset (.returned _), fun f b hmem => hadm (hadmits hdone f b hmem), ?_⟩
    unfold Matched
    rw [hpair]
    rcases hord.clear i rfl hi with hrow | ⟨f, b, hrow, hmem⟩
    · rw [show (P.store.pair o a).1 = none from hrow]
      exact Or.inl rfl
    · rw [show (P.store.pair o a).1 = some f from hrow]
      exact Or.inr ⟨b, Pool.mem_set_of_ne hmem hi nofun⟩

/-- What a step can do, from any state of a run in order. -/
theorem PairInv.step (hinv : PairInv mgr o a P) (i : ℕ) :
    PairStep mgr o a P i (P.act AnyStore.exec (.step i)) := by
  cases hi : P.threads[i]? with
  | none =>
    rw [show P.act AnyStore.exec (.step i) = P by simp only [Pool.act, hi]]
    exact .idle
  | some p =>
    have hmem := List.mem_of_getElem? hi
    apply pairStep hi (hinv.stages p hmem)
    rintro f b rfl
    exact hinv.admits f b hmem

/-- A call that starts has written nothing. -/
theorem PairInv.start (hinv : PairInv mgr o a P) {p : StoreProg (Outcome G)}
    (hp : PairStage mgr o a p) (hstore : ∀ f b, p ≠ storing o a f b) :
    PairInv mgr o a (P.act AnyStore.exec (.start p)) := by
  refine ⟨?_, ?_, ?_⟩
  · intro q hq
    rcases List.mem_append.mp hq with hq | hq
    · exact hinv.stages q hq
    · rw [List.mem_singleton.mp hq]
      exact hp
  · intro f b hmem
    rcases List.mem_append.mp hmem with hmem | hmem
    · exact hinv.admits f b hmem
    · exact absurd (List.mem_singleton.mp hmem).symm (hstore f b)
  · have hmatched := hinv.matched
    unfold Matched at hmatched ⊢
    rw [show (P.act AnyStore.exec (.start p)).store = P.store from rfl]
    generalize P.store.pair o a = c at hmatched ⊢
    obtain ⟨_ | f, b⟩ := c
    · exact hmatched.imp_right fun hmem => List.mem_append_left _ hmem
    · exact hmatched.imp_right fun ⟨b', hmem⟩ => ⟨b', List.mem_append_left _ hmem⟩

/-- The formation stays as it is if no deletion steps in. -/
theorem PairStep.formation_eq {i : ℕ} {f : FormationConfig} (h : PairStep mgr o a P i P')
    (hord : InOrder o a P (.step i)) (hrow : P.store.core.formation o a = some f)
    (hdel : Pool.Makes (fun c _ => c ≠ StorageCall.deleteFormation o a) P (.step i)) :
    P'.store.core.formation o a = some f := by
  cases h with
  | idle => exact hrow
  | look _ _ _ _ hpair _ => exact (congrArg Prod.fst hpair).trans hrow
  | @write f' b st hi _ hpair _ hnew =>
    -- there is a formation, so the write is not one in order
    have hnone : P.store.core.formation o a = none := hnew.elim (hord.write i f' b rfl hi) id
    rw [hnone] at hrow
    cases hrow
  | store _ _ hpair _ => exact (congrArg Prod.fst hpair).trans hrow
  | remove hi _ _ => exact absurd rfl (hdel i _ _ rfl hi)
  | clear _ hpair _ => exact (congrArg Prod.fst hpair).trans hrow

/-- **A creation returns `Ok` where the formation is its own.** -/
theorem PairStep.formation_of_returns {i j : ℕ} {f : FormationConfig} (h : PairStep mgr o a P i P')
    (hord : InOrder o a P (.step i)) (hbefore : P.threads[j]? ≠ some (.done (.ok (.formation f))))
    (hafter : P'.threads[j]? = some (.done (.ok (.formation f)))) :
    P'.store.core.formation o a = some f := by
  have hother : ∀ {q : StoreProg (Outcome G)}, q ≠ .done (.ok (.formation f)) →
      (P.threads.set i q)[j]? ≠ some (.done (.ok (.formation f))) := by
    intro q hq heq
    rw [List.getElem?_set] at heq
    split at heq
    · split at heq
      · exact hq (Option.some.inj heq)
      · cases heq
    · exact hbefore heq
  -- of all steps only the last one of a creation returns a formation
  cases h with
  | idle => exact absurd hafter hbefore
  | look _ _ _ hq _ _ => exact absurd hafter (hother ((Looking.ne hq).2 _))
  | write => exact absurd hafter (hother nofun)
  | @store f' b st hi _ hpair _ =>
    by_cases hf : f' = f
    · subst hf
      exact (congrArg Prod.fst hpair).trans (hord.store i f' b rfl hi)
    · refine absurd hafter (hother ?_)
      rintro ⟨⟩
      exact hf rfl
  | remove => exact absurd hafter (hother nofun)
  | clear => exact absurd hafter (hother nofun)

/-- **Every move in order keeps the rows matched.** -/
theorem PairInv.act (hmgr : mgr.Lawful) (hinv : PairInv mgr o a P)
    {m : Act Storage Error (Outcome G)} (hord : InOrder o a P m)
    (hm : ∀ p, m = .start p → IsPairCall mgr o a p) :
    PairInv mgr o a (P.act AnyStore.exec m) := by
  cases m with
  | start p =>
    obtain ⟨draw, policy, rfl⟩ | rfl := hm p rfl
    · have hlook := looking_createFormation (o := o) (a := a) hmgr draw policy
      exact hinv.start (.looking hlook) hlook.ne.1
    · exact hinv.start .deleting nofun
  | step i => exact (hinv.step i).inv hinv hord

/-- A move with which a creation returns `Ok`. -/
theorem PairInv.formation_of_returns (hmgr : mgr.Lawful) (hinv : PairInv mgr o a P)
    {m : Act Storage Error (Outcome G)} (hord : InOrder o a P m)
    (hm : ∀ p, m = .start p → IsPairCall mgr o a p) {i : ℕ} {f : FormationConfig}
    (hret : Returns P m i (.ok (.formation f))) :
    (P.act AnyStore.exec m).store.core.formation o a = some f := by
  cases m with
  | start p =>
    -- no call has returned `Ok` when it starts
    exfalso
    obtain ⟨hbefore, hafter⟩ := hret
    rw [Pool.act_start, List.getElem?_append] at hafter
    split at hafter
    · exact hbefore hafter
    · rw [List.getElem?_singleton] at hafter
      split at hafter
      · obtain ⟨draw, policy, rfl⟩ | rfl := hm p rfl
        · exact (looking_createFormation hmgr draw policy).ne.2 _ (Option.some.inj hafter)
        · cases hafter
      · cases hafter
  | step j => exact (hinv.step j).formation_of_returns hord hret.1 hret.2

/-- Rows that agree are matched before any call has started. -/
theorem Agrees.pairInv {st : AnyStore} (h : Agrees mgr o a st) : PairInv mgr o a ⟨st, []⟩ := by
  refine ⟨nofun, nofun, ?_⟩
  have hpair : st.pair o a = (st.core.formation o a, st.core.genesis o a) := rfl
  have hboth := h.both
  unfold Matched
  rw [hpair]
  cases hrow : st.core.formation o a with
  | none =>
    rw [hrow] at hboth
    exact Or.inl (by simpa using hboth.symm)
  | some f =>
    rw [hrow] at hboth
    obtain ⟨b, hb⟩ := Option.isSome_iff_exists.mp hboth.symm
    exact Or.inl ⟨b, hb, h.mesh f b hrow hb⟩

/-- Where no call is in flight, matched rows agree. -/
theorem PairInv.agrees (hinv : PairInv mgr o a P) (hdone : P.AllReturned) :
    Agrees mgr o a P.store := by
  -- nobody is left to make the rows match, so they do
  have hno : ∀ p ∈ P.threads, ∀ c k, p ≠ .call c k := by
    rintro _ hp c k rfl
    cases hdone _ hp
  have hmatched := hinv.matched
  have hpair : P.store.pair o a = (P.store.core.formation o a, P.store.core.genesis o a) := rfl
  unfold Matched at hmatched
  rw [hpair] at hmatched
  cases hrow : P.store.core.formation o a with
  | none =>
    rw [hrow] at hmatched
    obtain hnone | hmem := hmatched
    · refine ⟨by rw [hrow, hnone]; rfl, ?_⟩
      intro f b hf
      rw [hrow] at hf
      cases hf
    · exact absurd rfl (hno _ hmem _ _)
  | some f =>
    rw [hrow] at hmatched
    obtain ⟨b, hb, hmesh⟩ | ⟨b, hmem⟩ := hmatched
    · refine ⟨by rw [hrow, hb]; rfl, ?_⟩
      intro f' b' hf' hb'
      obtain rfl : f = f' := Option.some.inj (hrow.symm.trans hf')
      obtain rfl : b = b' := Option.some.inj (hb.symm.trans hb')
      exact hmesh
    · exact absurd rfl (hno _ hmem _ _)

section Acts

variable {l : Schedule G} (hmgr : mgr.Lawful) (hinv : PairInv mgr o a P)
  (hl : ∀ m ∈ l, ∀ p, m = .start p → IsPairCall mgr o a p)
  (hord : Pool.Always AnyStore.exec (InOrder o a) P l)

include hmgr hinv hl hord

/-- **A run in order keeps the rows matched.** -/
theorem PairInv.acts : PairInv mgr o a (P.acts AnyStore.exec l) := by
  refine hord.inv ?_ hinv
  intro P m hm hP hordm
  exact hP.act hmgr hordm (hl m hm)

/-- **The formation lasts as long as no deletion steps in.** -/
theorem PairInv.formation_acts {f : FormationConfig} (hrow : P.store.core.formation o a = some f)
    (hdel : Pool.Always AnyStore.exec
      (Pool.Makes fun c _ => c ≠ StorageCall.deleteFormation o a) P l) :
    (P.acts AnyStore.exec l).store.core.formation o a = some f := by
  have hboth := (hord.and hdel).inv
    (J := fun P => PairInv mgr o a P ∧ P.store.core.formation o a = some f) ?_ ⟨hinv, hrow⟩
  · exact hboth.2
  · intro P m hm hP hcond
    refine ⟨hP.1.act hmgr hcond.1 (hl m hm), ?_⟩
    cases m with
    | start p => exact hP.2
    | step i => exact (hP.1.step i).formation_eq hcond.1 hP.2 hcond.2

end Acts

end Keeps

/-- **Where the writes of the calls keep their order, a formation and its genesis agree**
whenever no call is in flight, and what a creation returned is what is stored, until a
deletion. -/
theorem pairsUp_of_inOrder {G : Type} {mgr : TenantManager G} (hmgr : mgr.Lawful) {o a : String}
    {st : AnyStore} (hst : Agrees mgr o a st) {l : Schedule G}
    (hl : ∀ p, Act.start p ∈ l → IsPairCall mgr o a p)
    (hord : Pool.Always AnyStore.exec (InOrder o a) ⟨st, []⟩ l) : PairsUp mgr o a st l := by
  have hstarts : ∀ m ∈ l, ∀ p, m = .start p → IsPairCall mgr o a p := by
    rintro m hm p rfl
    exact hl p hm
  intro l₁ l₂ heq hdone
  subst heq
  have hord₁ := (Pool.always_append.mp hord).1
  have hstarts₁ := fun m hm => hstarts m (List.mem_append_left l₂ hm)
  have hagrees := (hst.pairInv.acts hmgr hstarts₁ hord₁).agrees hdone
  refine ⟨hagrees, ?_⟩
  intro l₀ m l' i f heq hret hdel
  subst heq
  obtain ⟨hord₀, hordm, hord'⟩ := Pool.always_append.mp hord₁
  have hstarts' : ∀ m' ∈ m :: l', ∀ p, m' = .start p → IsPairCall mgr o a p :=
    fun m' hm' => hstarts₁ m' (List.mem_append_right _ hm')
  -- the formation is that of the creation when it returns, and stays so
  have hrow : (Pool.acts AnyStore.exec ⟨st, []⟩ (l₀ ++ m :: l')).store.core.formation o a =
      some f := by
    have hinv₀ := hst.pairInv.acts hmgr
      (fun m' hm' => hstarts₁ m' (List.mem_append_left _ hm')) hord₀
    rw [Pool.acts_append, Pool.acts_cons]
    generalize Pool.acts AnyStore.exec ⟨st, []⟩ l₀ = P₀ at *
    have hm := hstarts' m List.mem_cons_self
    exact (hinv₀.act hmgr hordm hm).formation_acts hmgr
      (fun m' hm' => hstarts' m' (List.mem_cons_of_mem _ hm')) hord'
      (hinv₀.formation_of_returns hmgr hordm hm hret) hdel
  have hboth := hagrees.both
  rw [hrow] at hboth
  obtain ⟨b, hb⟩ := Option.isSome_iff_exists.mp hboth.symm
  refine ⟨?_, b, hb, hagrees.mesh f b hrow hb⟩
  rw [hrow]
  rfl

/-! ### Runs -/

/-- An embedded store with one organization. -/
def redbWithOrg : AnyStore := (AnyStore.exec (.createOrg ⟨"a", "A", .default, 0⟩) (.redb .empty)).2

/-- The same on Postgres. -/
def postgresWithOrg : AnyStore :=
  (AnyStore.exec (.createOrg ⟨"a", "A", .default, 0⟩) (.postgres .empty)).2

/-- The creation of a formation, by what it draws. -/
def creation (seed : UInt8) : StoreProg (Outcome Bytes) :=
  (ManagerOp.createFormation ⟨[seed], ⟨.replicate 32 0, .replicate 12 0, []⟩⟩ "a" "x" .open).prog
    seedManager

/-- The deletion of the formation. -/
def deletion : StoreProg (Outcome Bytes) := (ManagerOp.deleteFormation "a" "x").prog seedManager

theorem seedManager_lawful : seedManager.Lawful where
  aead := counterAead_lawful
  keyProvider := by
    rintro w dek wrapped - ⟨⟩
  codec _ := rfl

section Order

variable {G : Type} {o a : String} {P : Pool Storage Error AnyStore (Outcome G)} {i : ℕ}

theorem inOrder_start (p : StoreProg (Outcome G)) : InOrder o a P (.start p) := by
  refine ⟨?_, ?_, ?_⟩
  · rintro _ f b ⟨⟩
  · rintro _ f b ⟨⟩
  · rintro _ ⟨⟩

/-- The order of a step, by the call it makes.  A program that stores a genesis is known by
what it returns if it is left alone. -/
theorem inOrder_step {c : StorageCall} (hc : P.threads[i]?.bind Prog.nextCall = some c)
    (hwrite : ∀ f, c = .createFormation o f → P.store.isRedb = true →
      P.store.core.formation o a = none)
    (hstore : ∀ b, c = .storeGenesis o a b → P.store.Admits o ∧
      P.threads[i]?.map (fun p => (p.run AnyStore.exec P.store).1) =
        (P.store.core.formation o a).map fun f => .ok (.formation f))
    (hclear : c = .deleteGenesis o a → P.store.core.formation o a = none) :
    InOrder o a P (.step i) := by
  refine ⟨?_, ?_, ?_⟩
  · rintro _ f b ⟨⟩ hp
    rw [hp] at hc
    exact hwrite f (Option.some.inj hc).symm
  · rintro _ f b ⟨⟩ hp
    rw [hp] at hc
    obtain ⟨hadm, hrun⟩ := hstore b (Option.some.inj hc).symm
    obtain ⟨st, hexec, -, -⟩ := AnyStore.pair_storeGenesis hadm a b
    have hret : ((storing o a f b).run AnyStore.exec P.store).1 =
        (.ok (.formation f) : Except Error (Outcome G)) := by
      change (Prog.run AnyStore.exec _ (AnyStore.exec (.storeGenesis o a b) P.store).2).1 = _
      rw [hexec]
      rfl
    rw [hp, Option.map_some, hret] at hrun
    obtain ⟨f', hrow, hf'⟩ := Option.map_eq_some_iff.mp hrun.symm
    cases hf'
    exact hrow
  · rintro _ ⟨⟩ hp
    rw [hp] at hc
    exact Or.inl (hclear (Option.some.inj hc).symm)

end Order

/-- A formation is created and deleted, and nothing comes between. -/
theorem pairsUp_serial :
    PairsUp seedManager "a" "x" postgresWithOrg
      [.start (creation 1), .step 0, .step 0, .step 0, .step 0, .step 0, .start deletion, .step 1,
        .step 1] := by
  have hst : Agrees seedManager "a" "x" postgresWithOrg := by
    refine ⟨rfl, ?_⟩
    rintro f b ⟨⟩
  refine pairsUp_of_inOrder seedManager_lawful hst ?_ ?_
  · simp only [Act.forall_start_start, Act.forall_start_step, Act.forall_start_nil]
    exact ⟨Or.inl ⟨_, _, rfl⟩, Or.inr rfl, trivial⟩
  · refine ⟨inOrder_start _, ?_, ?_, ?_, ?_, ?_, inOrder_start _, ?_, ?_, trivial⟩
    · exact inOrder_step (c := .getOrg "a") (by decide +kernel) nofun nofun nofun
    · exact inOrder_step (c := .listFormations "a") (by decide +kernel) nofun nofun nofun
    · exact inOrder_step (c := .getFormation "a" "x") (by decide +kernel) nofun nofun nofun
    · exact inOrder_step (c := .createFormation "a" ⟨"x", "01", .open⟩) (by decide +kernel) nofun
        nofun nofun
    · refine inOrder_step (c := .storeGenesis "a" "x" [1, 1]) (by decide +kernel) nofun ?_ nofun
      intro b _
      exact ⟨by decide +kernel, by decide +kernel⟩
    · exact inOrder_step (c := .deleteFormation "a" "x") (by decide +kernel) nofun nofun nofun
    · exact inOrder_step (c := .deleteGenesis "a" "x") (by decide +kernel) nofun nofun
        fun _ => by decide +kernel

/-- **On redb two creations that overlap leave the formation of one with the genesis of the
other; on Postgres a deletion between the two writes of a creation leaves a genesis without
formation.** -/
theorem pairsUp_broken :
    (¬ ∀ (st : AnyStore) (l : Schedule Bytes), st.isRedb = true →
      Agrees seedManager "a" "x" st → (∀ p, Act.start p ∈ l → IsPairCall seedManager "a" "x" p) →
      PairsUp seedManager "a" "x" st l) ∧
    ¬ ∀ (st : AnyStore) (l : Schedule Bytes), st.isRedb = false →
      Agrees seedManager "a" "x" st → (∀ p, Act.start p ∈ l → IsPairCall seedManager "a" "x" p) →
      PairsUp seedManager "a" "x" st l := by
  refine ⟨?_, ?_⟩
  · intro h
    have hst : Agrees seedManager "a" "x" redbWithOrg := by
      refine ⟨by decide +kernel, ?_⟩
      intro f b hf
      rw [show redbWithOrg.core.formation "a" "x" = none by decide +kernel] at hf
      cases hf
    -- both look, both write the formation, and their genesis in the opposite order
    have hpairs := h redbWithOrg
      [.start (creation 1), .start (creation 2), .step 0, .step 0, .step 0, .step 1, .step 1,
        .step 1, .step 0, .step 1, .step 1, .step 0] rfl hst ?_
    · obtain ⟨hagrees, -⟩ := hpairs _ [] (List.append_nil _).symm (by decide +kernel)
      obtain ⟨g, hg, hmesh⟩ := hagrees.mesh ⟨"x", "02", .open⟩ [1, 1] (by decide +kernel)
        (by decide +kernel) []
      obtain rfl : [1] = g := Except.ok.inj hg
      revert hmesh
      decide +kernel
    · simp only [Act.forall_start_start, Act.forall_start_step, Act.forall_start_nil]
      exact ⟨Or.inl ⟨_, _, rfl⟩, Or.inl ⟨_, _, rfl⟩, trivial⟩
  · intro h
    have hst : Agrees seedManager "a" "x" postgresWithOrg := by
      refine ⟨rfl, ?_⟩
      rintro f b ⟨⟩
    -- the formation is written and removed again before its genesis is stored
    have hpairs := h postgresWithOrg
      [.start (creation 1), .step 0, .step 0, .step 0, .step 0, .start deletion, .step 1, .step 1,
        .step 0] rfl hst ?_
    · obtain ⟨hagrees, -⟩ := hpairs _ [] (List.append_nil _).symm (by decide +kernel)
      have hboth := hagrees.both
      revert hboth
      decide +kernel
    · simp only [Act.forall_start_start, Act.forall_start_step, Act.forall_start_nil]
      exact ⟨Or.inl ⟨_, _, rfl⟩, Or.inr rfl, trivial⟩

end PeatGateway
