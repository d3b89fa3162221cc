import PeatGateway.Tenant.Core

/-!
# Formations while a call fails

A formation is two rows, its record and its genesis, written by two calls one after the other.
A creation writes the record first and passes on the error of the second call; a deletion
removes the record first and does not look at the second call.  So one call that fails can
leave half of a formation behind.

## Main definitions

* `TenantManager.Admits` — a creation gets as far as to write.
* `TenantManager.CreateAtomic`, `DeleteAtomic` — the operation is done or not done.

## Main results

* `createFormation_atomic_iff`, `deleteFormation_atomic_iff` — **which call must not fail**.
* `formation_atomic_iff` — both.
* `formation_not_atomic` — half of a formation, created or left.
-/

namespace PeatGateway

open Effect

/-! ### The two calls that write -/

namespace AnyStore

variable {st : AnyStore} {o a : String}

/-- The record of a formation is written, whatever else there is in the store. -/
theorem exec_createFormation_row {f : FormationConfig} (horg : ∃ x, st.core.org o = some x)
    (hnone : st.core.formation o f.appId = none) :
    ∃ st', exec (.createFormation o f) st = (.ok (), st') ∧ st'.core.org = st.core.org ∧
      st'.core.formation o f.appId = some f := by
  obtain ⟨x, hx⟩ := horg
  cases st with
  | redb s =>
    refine ⟨_, rfl, rfl, ?_⟩
    exact (Table.get_insert _ _ _ _).trans (if_pos rfl)
  | postgres s =>
    obtain ⟨t, ht, hsel⟩ := Postgres.insertChild_ok "formations" (v := f) hnone
      (Option.isSome_of_eq_some (show s.orgs.select o = some x from hx))
    refine ⟨.postgres { s with formations := t }, ?_, rfl, (hsel _).trans (if_pos rfl)⟩
    simp only [exec, Postgres.exec, ht, Postgres.commit]

/-- The genesis of an organization that exists is written. -/
theorem exec_storeGenesis_ok (horg : ∃ x, st.core.org o = some x) (b : Bytes) :
    ∃ st', exec (.storeGenesis o a b) st = (.ok (), st') := by
  obtain ⟨x, hx⟩ := horg
  cases st with
  | redb s => exact ⟨_, rfl⟩
  | postgres s =>
    refine ⟨.postgres { s with genesis := s.genesis.upsert (o, a) b }, ?_⟩
    simp only [exec, Postgres.exec, Postgres.upsertChild,
      show s.orgs.select o = some x from hx, Option.isSome_some, Bool.or_true, if_true,
      Postgres.commit]

/-- A new formation is written in two calls, the first of which changes the store. -/
theorem exec_createFormation_new {f : FormationConfig} (horg : ∃ x, st.core.org o = some x)
    (hnone : st.core.formation o f.appId = none) :
    ∃ st', exec (.createFormation o f) st = (.ok (), st') ∧ st' ≠ st ∧
      ∀ b, ∃ st'', exec (.storeGenesis o f.appId b) st' = (.ok (), st'') := by
  obtain ⟨st', hexec, horg', hform⟩ := exec_createFormation_row horg hnone
  refine ⟨st', hexec, ?_, exec_storeGenesis_ok (by rw [horg']; exact horg)⟩
  rintro rfl
  rw [hnone] at hform
  cases hform

/-- Removing the record of a formation leaves the genesis.  If there is no record, the store
stays as it is. -/
theorem exec_deleteFormation_row (st : AnyStore) (o a : String) :
    ∃ st', exec (.deleteFormation o a) st = (.ok (st.core.formation o a).isSome, st') ∧
      st'.core.formation o a = none ∧ st'.core.genesis = st.core.genesis ∧
      (st.core.formation o a = none → st' = st) := by
  cases st with
  | redb s =>
    refine ⟨_, rfl, (Table.get_erase _ _ _).trans (if_pos rfl), rfl, ?_⟩
    intro hnone
    rw [Redb.exec, Table.erase_of_unused (Option.isSome_eq_false_iff.mpr
      (Option.isNone_iff_eq_none.mpr hnone))]
  | postgres s =>
    refine ⟨_, rfl, (Rows.select_delete _ _ _).trans (if_pos rfl), rfl, ?_⟩
    intro hnone
    rw [Postgres.exec, Rows.delete_of_unused hnone]

theorem exec_deleteGenesis_row (st : AnyStore) (o a : String) :
    ∃ r st', exec (.deleteGenesis o a) st = (.ok r, st') ∧
      st'.core.formation = st.core.formation ∧ st'.core.genesis o a = none := by
  cases st with
  | redb s => exact ⟨_, _, rfl, rfl, (Table.get_erase _ _ _).trans (if_pos rfl)⟩
  | postgres s => exact ⟨_, _, rfl, rfl, (Rows.select_delete _ _ _).trans (if_pos rfl)⟩

end AnyStore

/-! ### Done or not done -/

namespace TenantManager

section Create

variable {G : Type} (mgr : TenantManager G) (draw : FormationDraw) (orgId appId : String)
  (policy : EnrollmentPolicy) (st : AnyStore)

/-- `create_formation` gets as far as to write: its tests pass and the genesis is sealed. -/
structure Admits : Prop where
  valid : validateIdentifier appId "app_id" = .ok ()
  quota : ∃ org, st.core.org orgId = some org ∧
    ¬ UInt32.ofNat (st.formationList orgId).length ≥ org.quotas.maxFormations
  new : st.core.formation orgId appId = none
  sealed : ∃ b, mgr.protect draw.envelope
    (mgr.api.encode (mgr.api.create appId policy.toMembership draw.genesis)) = .ok b

/-- If `create_formation` fails, the store is as it was. -/
def CreateAtomic (f : Faults Error) : Prop :=
  let run := (mgr.createFormation draw orgId appId policy).run (faulty AnyStore.exec f) (st, 0)
  ∀ msg, run.1 = .error msg → run.2.1 = st

end Create

/-- If `delete_formation` succeeds, neither row remains; if it fails, the store is as it was. -/
def DeleteAtomic (orgId appId : String) (st : AnyStore) (f : Faults Error) : Prop :=
  let run := (deleteFormation orgId appId).run (faulty AnyStore.exec f) (st, 0)
  (run.1 = .ok () →
    run.2.1.core.formation orgId appId = none ∧ run.2.1.core.genesis orgId appId = none) ∧
  ∀ msg, run.1 = .error msg → run.2.1 = st

end TenantManager

open TenantManager

section Atomic

variable {G : Type} {mgr : TenantManager G} {draw : FormationDraw} {orgId appId : String}
  {policy : EnrollmentPolicy} {st : AnyStore}

/-- **A creation is atomic unless it has written the record and cannot write the genesis.** -/
theorem createFormation_atomic_iff (i : ℕ) (e : Error) :
    mgr.CreateAtomic draw orgId appId policy st (failsAt i e) ↔
      ¬ (i = 4 ∧ mgr.Admits draw orgId appId policy st) := by
  have hwp : mgr.CreateAtomic draw orgId appId policy st (failsAt i e) ↔
      (mgr.createFormation draw orgId appId policy).Wp (faulty AnyStore.exec (failsAt i e))
        (st, 0) (fun _ _ => True) fun s => s.1 = st := by
    simp only [CreateAtomic, Prog.wp_iff, implies_true, true_and]
  rw [hwp]
  simp only [TenantManager.createFormation, TenantManager.getOrg, Prog.wp_bind, Prog.wp_ofExcept,
    Prog.wp_okOrElse, Prog.wp_ensure, Prog.wp_pure, wp_store_failsAt, AnyStore.exec_getOrg,
    AnyStore.exec_getFormation, AnyStore.exec_listFormations, Prog.post_ok, implies_true, and_true,
    Nat.zero_add, Nat.reduceAdd]
  constructor
  · rintro hwp ⟨rfl, hvalid, ⟨x, hx, hquota⟩, hnone, b, hb⟩
    obtain ⟨st', hexec, hne, -⟩ := AnyStore.exec_createFormation_new (f := ⟨appId, _, policy⟩)
      ⟨x, hx⟩ hnone
    have hlast := hwp () hvalid
    rw [if_neg (by decide)] at hlast
    have hlast := hlast x hx
    rw [if_neg (by decide)] at hlast
    have hlast := hlast hquota
    rw [if_neg (by decide)] at hlast
    have hlast := hlast (by rw [hnone]; rfl) b hb
    rw [if_neg (by decide), hexec, Prog.post_ok, if_pos rfl] at hlast
    exact hne hlast
  · intro hnot _ hvalid
    split
    · trivial
    intro x hx
    split
    · trivial
    intro hquota
    split
    · trivial
    intro hnone b hb
    split
    · trivial
    have hnone : st.core.formation orgId appId = none := by simpa using hnone
    obtain ⟨st', hexec, -, hstore⟩ := AnyStore.exec_createFormation_new (f := ⟨appId, _, policy⟩)
      ⟨x, hx⟩ hnone
    obtain ⟨st'', hexec'⟩ := hstore b
    -- the record is written, so the genesis must be
    have hi : ¬ 4 = i := fun hi => hnot ⟨hi.symm, hvalid, ⟨x, hx, hquota⟩, hnone, b, hb⟩
    rw [hexec, Prog.post_ok, if_neg hi, hexec', Prog.post_ok]
    trivial

/-- **A deletion is atomic unless it has removed the record and cannot remove the genesis.** -/
theorem deleteFormation_atomic_iff (i : ℕ) (e : Error) :
    DeleteAtomic orgId appId st (failsAt i e) ↔
      ¬ (i = 1 ∧ (st.core.formation orgId appId).isSome = true ∧
        (st.core.genesis orgId appId).isSome = true) := by
  have hwp : DeleteAtomic orgId appId st (failsAt i e) ↔
      (deleteFormation orgId appId).Wp (faulty AnyStore.exec (failsAt i e)) (st, 0)
        (fun _ s => s.1.core.formation orgId appId = none ∧ s.1.core.genesis orgId appId = none)
        fun s => s.1 = st := by
    simp only [DeleteAtomic, Prog.wp_iff]
    exact and_congr_left fun _ => ⟨fun h _ => h, fun h => h ()⟩
  obtain ⟨st₁, hexec₁, hform₁, hgen₁, hsame⟩ := AnyStore.exec_deleteFormation_row st orgId appId
  obtain ⟨r, st₂, hexec₂, hform₂, hgen₂⟩ := AnyStore.exec_deleteGenesis_row st₁ orgId appId
  rw [hwp]
  simp only [TenantManager.deleteFormation, Prog.wp_bind, Prog.wp_ensure, Prog.wp_attempt,
    Prog.wp_pure, wp_store_failsAt, hexec₁, Prog.post_ok]
  have hcall : (faulty AnyStore.exec (failsAt i e) (.deleteGenesis orgId appId) (st₁, 0 + 1)).2.1 =
      if 1 = i then st₁ else st₂ := by
    rw [faulty_failsAt (S := Storage), hexec₂]
    split <;> rfl
  rw [hcall]
  cases hf : st.core.formation orgId appId with
  | none => simp [hsame hf]
  | some f =>
    by_cases hi : i = 1
    · subst hi
      simp [hform₁, hgen₁]
    · simp [hi, Ne.symm hi, hform₂, hform₁, hgen₂]

/-- **A formation is created and deleted as a whole, unless the call fails that would write or
remove its genesis.**  Whatever the store, and whichever one call fails: a creation that fails
leaves the store as it was, except when it was admitted and could not store the genesis, its
fifth call; a deletion removes both rows or leaves the store as it was, except when it has
removed the record and cannot remove the genesis, by its second call. -/
theorem formation_atomic_iff {G : Type} (mgr : TenantManager G) (st : AnyStore) (i : ℕ)
    (e : Error) (orgId appId : String) :
    (∀ draw policy, mgr.CreateAtomic draw orgId appId policy st (failsAt i e) ↔
      ¬ (i = 4 ∧ mgr.Admits draw orgId appId policy st)) ∧
    (DeleteAtomic orgId appId st (failsAt i e) ↔
      ¬ (i = 1 ∧ (st.core.formation orgId appId).isSome = true ∧
        (st.core.genesis orgId appId).isSome = true)) :=
  ⟨fun _ _ => createFormation_atomic_iff i e, deleteFormation_atomic_iff i e⟩

end Atomic

/-! ### Half of a formation -/

/-- What is drawn for a formation. -/
def opsDraw : FormationDraw := ⟨[42], (sampleDraws 0).envelope⟩

/-- A store with one organization. -/
def oneOrgStore : AnyStore :=
  (((ManagerOp.createOrg 0 "acme" "Acme").prog seedManager).run AnyStore.exec (.redb .empty)).2

/-- A store with one formation. -/
def oneFormationStore : AnyStore :=
  (((ManagerOp.createFormation opsDraw "acme" "ops" .open).prog seedManager).run AnyStore.exec
    oneOrgStore).2

/-- The genesis of a new formation cannot be stored, and its record stays; the genesis of a
deleted formation cannot be removed, and stays. -/
theorem formation_not_atomic :
    ¬ seedManager.CreateAtomic opsDraw "acme" "ops" .open oneOrgStore (failsAt 4 "disk full") ∧
    ¬ DeleteAtomic "acme" "ops" oneFormationStore (failsAt 1 "disk full") := by
  rw [createFormation_atomic_iff, deleteFormation_atomic_iff, not_not, not_not]
  have hquota : ∃ org, oneOrgStore.core.org "acme" = some org ∧
      ¬ UInt32.ofNat (oneOrgStore.formationList "acme").length ≥ org.quotas.maxFormations :=
    ⟨⟨"acme", "Acme", .default, 0⟩, by decide +kernel, by decide +kernel⟩
  have hadmits : seedManager.Admits opsDraw "acme" "ops" .open oneOrgStore :=
    ⟨by decide +kernel, hquota, by decide +kernel, _, rfl⟩
  exact ⟨⟨rfl, hadmits⟩, rfl, by decide +kernel, by decide +kernel⟩

end PeatGateway
