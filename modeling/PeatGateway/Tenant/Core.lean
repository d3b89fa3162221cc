import PeatGateway.Storage.Open
import PeatGateway.Tenant.Keyed

/-!
# Organizations, formations and their genesis

What the two backends have in common, as far as the root keys of formations are concerned:
which organizations there are, which formations each has, and which bytes are kept as the
genesis of each.  A formation belongs to an organization and a genesis to a formation; with
one operation at a time nothing is ever left behind without its owner.

## Main definitions

* `Core`, `Core.putOrg`, `Core.dropOrg`, … — the abstract store and its transitions.
* `Core.Closed` — every formation has its organization, every genesis its formation.
* `AnyStore.core` — the abstract store a store stands for.
* `OpEffect` — what an operation may do to the abstract store.
* `Served` — the stores that operations lead to, one after the other.

## Main results

* `OpEffect.closed` — every transition keeps the abstract store closed.
* `op_effect` — **every operation of the manager is one transition of the abstract store**,
  on either backend.
* `Served.sound` — **a store that operations lead to is closed**.
-/

namespace PeatGateway

open Effect Text

/-! ### The abstract store -/

/-- Organizations, their formations, and the bytes of each genesis. -/
@[ext] structure Core where
  org : String → Option Organization
  formation : String → String → Option FormationConfig
  genesis : String → String → Option Bytes

namespace Core

/-- Write an organization. -/
def putOrg (c : Core) (org : Organization) : Core :=
  { c with org := fun o => if org.orgId = o then some org else c.org o }

/-- Remove an organization and all it owns. -/
def dropOrg (c : Core) (orgId : String) : Core where
  org o := if orgId = o then none else c.org o
  formation o a := if orgId = o then none else c.formation o a
  genesis o a := if orgId = o then none else c.genesis o a

/-- Write a formation. -/
def putFormation (c : Core) (orgId : String) (f : FormationConfig) : Core :=
  { c with formation := fun o a => if orgId = o ∧ f.appId = a then some f else c.formation o a }

/-- Remove a formation. -/
def dropFormation (c : Core) (orgId appId : String) : Core :=
  { c with formation := fun o a => if orgId = o ∧ appId = a then none else c.formation o a }

/-- Write a genesis. -/
def putGenesis (c : Core) (orgId appId : String) (b : Bytes) : Core :=
  { c with genesis := fun o a => if orgId = o ∧ appId = a then some b else c.genesis o a }

/-- Remove a genesis. -/
def dropGenesis (c : Core) (orgId appId : String) : Core :=
  { c with genesis := fun o a => if orgId = o ∧ appId = a then none else c.genesis o a }

/-- Records carry the ids they are found under; every formation has its organization and
every genesis its formation. -/
structure Closed (c : Core) : Prop where
  orgId : ∀ {o x}, c.org o = some x → x.orgId = o
  appId : ∀ {o a f}, c.formation o a = some f → f.appId = a
  formation_org : ∀ {o a f}, c.formation o a = some f → ∃ x, c.org o = some x
  genesis_formation : ∀ {o a b}, c.genesis o a = some b → ∃ f, c.formation o a = some f

theorem Closed.putOrg {c : Core} (h : c.Closed) (org : Organization) : (c.putOrg org).Closed where
  orgId := by
    intro o x hx
    simp only [Core.putOrg] at hx
    split at hx
    · next heq => rw [← Option.some.inj hx, heq]
    · exact h.orgId hx
  appId := h.appId
  formation_org := by
    intro o a f hf
    obtain ⟨x, hx⟩ := h.formation_org hf
    simp only [Core.putOrg]
    split
    · exact ⟨_, rfl⟩
    · exact ⟨x, hx⟩
  genesis_formation := h.genesis_formation

theorem Closed.dropOrg {c : Core} (h : c.Closed) (orgId : String) : (c.dropOrg orgId).Closed where
  orgId := by
    intro o x hx
    simp only [Core.dropOrg] at hx
    split at hx
    · cases hx
    · exact h.orgId hx
  appId := by
    intro o a f hf
    simp only [Core.dropOrg] at hf
    split at hf
    · cases hf
    · exact h.appId hf
  formation_org := by
    intro o a f hf
    simp only [Core.dropOrg] at hf ⊢
    split at hf
    · cases hf
    · next hne => rw [if_neg hne]; exact h.formation_org hf
  genesis_formation := by
    intro o a b hb
    simp only [Core.dropOrg] at hb ⊢
    split at hb
    · cases hb
    · next hne => rw [if_neg hne]; exact h.genesis_formation hb

/-- A formation is added with its genesis. -/
theorem Closed.add {c : Core} (h : c.Closed) {orgId : String} {f : FormationConfig} {b : Bytes}
    (ho : ∃ x, c.org orgId = some x) :
    ((c.putFormation orgId f).putGenesis orgId f.appId b).Closed where
  orgId := h.orgId
  appId := by
    intro o a f' hf
    simp only [Core.putFormation, Core.putGenesis] at hf
    split at hf
    · next heq => rw [← Option.some.inj hf, heq.2]
    · exact h.appId hf
  formation_org := by
    intro o a f' hf
    simp only [Core.putFormation, Core.putGenesis] at hf
    split at hf
    · next heq => exact heq.1 ▸ ho
    · exact h.formation_org hf
  genesis_formation := by
    intro o a b' hb
    simp only [Core.putFormation, Core.putGenesis] at hb ⊢
    split at hb
    · next heq => rw [if_pos heq]; exact ⟨f, rfl⟩
    · next hne => rw [if_neg hne]; exact h.genesis_formation hb

/-- A formation is removed with its genesis. -/
theorem Closed.remove {c : Core} (h : c.Closed) (orgId appId : String) :
    ((c.dropFormation orgId appId).dropGenesis orgId appId).Closed where
  orgId := h.orgId
  appId := by
    intro o a f hf
    simp only [Core.dropFormation, Core.dropGenesis] at hf
    split at hf
    · cases hf
    · exact h.appId hf
  formation_org := by
    intro o a f hf
    simp only [Core.dropFormation, Core.dropGenesis] at hf
    split at hf
    · cases hf
    · exact h.formation_org hf
  genesis_formation := by
    intro o a b hb
    simp only [Core.dropFormation, Core.dropGenesis] at hb ⊢
    split at hb
    · cases hb
    · next hne => rw [if_neg hne]; exact h.genesis_formation hb

end Core

/-! ### The store as an abstract one -/

namespace AnyStore

/-- The abstract store a store stands for. -/
def core : AnyStore → Core
  | .redb s =>
    { org := fun o => s.orgs[o]?
      formation := fun o a => s.formations[formationKey o a]?
      genesis := fun o a => s.genesis[formationKey o a]? }
  | .postgres s =>
    { org := s.orgs.select
      formation := fun o a => s.formations.select (o, a)
      genesis := fun o a => s.genesis.select (o, a) }

/-- The keys of an embedded store can be read back.  Postgres needs no such condition: its
keys are columns. -/
def Tidy : AnyStore → Prop
  | .redb s => s.Keyed
  | .postgres _ => True

/-- A tidy store that stands for a closed one. -/
structure Sound (st : AnyStore) : Prop where
  tidy : st.Tidy
  closed : st.core.Closed

end AnyStore

/-- The key of a formation determines the formation, even beside keys of any strings. -/
theorem formationKey_inj {o a o' a' : String} (ho : IsIdentifier o) (ha : IsIdentifier a)
    (h : formationKey o a = formationKey o' a') : o = o' ∧ a = a' :=
  glue_inj_of_free ho.nulFree ha.nulFree h

/-! ### Reading composite keys back -/

section Keys

variable {V : Type} {t : Table String V} {o a o' a' : String}

/-- What is found under two strings has identifiers as its ids. -/
def ReadBack (t : Table String V) : Prop :=
  ∀ {o a v}, t[formationKey o a]? = some v → IsIdentifier o ∧ IsIdentifier a

theorem get_insert_key (ho : IsIdentifier o) (ha : IsIdentifier a) (v : V) :
    (t.insert (formationKey o a) v)[formationKey o' a']? =
      if o = o' ∧ a = a' then some v else t[formationKey o' a']? := by
  rw [Table.get_insert]
  refine if_congr ⟨formationKey_inj ho ha, ?_⟩ rfl rfl
  rintro ⟨rfl, rfl⟩
  rfl

/-- The strings are those of a request, so their key may be one of none. -/
theorem get_erase_key (ht : ReadBack t) :
    (t.erase (formationKey o a))[formationKey o' a']? =
      if o = o' ∧ a = a' then none else t[formationKey o' a']? := by
  rw [Table.get_erase]
  by_cases hk : formationKey o a = formationKey o' a'
  · rw [if_pos hk]
    split
    · rfl
    · next hne =>
      cases hv : t[formationKey o' a']? with
      | none => rfl
      | some v =>
        obtain ⟨ho', ha'⟩ := ht hv
        obtain ⟨rfl, rfl⟩ := formationKey_inj ho' ha' hk.symm
        exact absurd ⟨rfl, rfl⟩ hne
  · rw [if_neg hk, if_neg]
    rintro ⟨rfl, rfl⟩
    exact hk rfl

theorem get_removeAll_key (ht : ReadBack t) :
    (t.removeAll (belongsTo o))[formationKey o' a']? =
      if o = o' then none else t[formationKey o' a']? := by
  rw [Table.get_removeAll]
  by_cases hk : belongsTo o (formationKey o' a') = true
  · rw [if_pos hk]
    split
    · rfl
    · next hne =>
      cases hv : t[formationKey o' a']? with
      | none => rfl
      | some v =>
        obtain ⟨ho', ha'⟩ := ht hv
        obtain ⟨x, hx⟩ := belongsTo_iff.mp hk
        exact absurd (glue_inj_of_free ho'.nulFree ha'.nulFree hx).1.symm hne
  · rw [if_neg hk, if_neg]
    rintro rfl
    exact hk (belongsTo_nulKey o a')

end Keys

namespace Redb.Keyed

variable {s : Redb} (hs : s.Keyed)

include hs

theorem formation_ids {o a : String} {f : FormationConfig}
    (h : s.formations[formationKey o a]? = some f) :
    IsIdentifier o ∧ IsIdentifier a ∧ f.appId = a := by
  obtain ⟨happ, o', ho', hk⟩ := hs.formations _ _ h
  obtain ⟨rfl, rfl⟩ := formationKey_inj ho' happ hk.symm
  exact ⟨ho', happ, rfl⟩

theorem readBack_formations : ReadBack s.formations :=
  fun h => ⟨(hs.formation_ids h).1, (hs.formation_ids h).2.1⟩

theorem readBack_genesis : ReadBack s.genesis := by
  intro o a b h
  obtain ⟨o', a', ho', ha', hk⟩ := hs.genesis _ _ h
  obtain ⟨rfl, rfl⟩ := formationKey_inj ho' ha' hk.symm
  exact ⟨ho', ha'⟩

end Redb.Keyed

/-! ### The calls -/

namespace AnyStore

variable {st : AnyStore} {o a : String}

@[simp] theorem exec_getOrg (st : AnyStore) (o : String) :
    exec (.getOrg o) st = (.ok (st.core.org o), st) := by
  cases st <;> rfl

@[simp] theorem exec_getFormation (st : AnyStore) (o a : String) :
    exec (.getFormation o a) st = (.ok (st.core.formation o a), st) := by
  cases st <;> rfl

@[simp] theorem exec_getGenesis (st : AnyStore) (o a : String) :
    exec (.getGenesis o a) st = (.ok (st.core.genesis o a), st) := by
  cases st <;> rfl

/-- The organizations, as they are listed. -/
def orgList : AnyStore → List Organization
  | .redb s => s.orgs.toList.map Prod.snd
  | .postgres s => s.orgs.orderBy (fun _ => true) id

/-- The formations of an organization, as they are listed. -/
def formationList : AnyStore → String → List FormationConfig
  | .redb s, o => s.formations.scan (belongsTo o)
  | .postgres s, o => s.formations.orderBy (·.1 == o) Prod.snd

@[simp] theorem exec_listOrgs (st : AnyStore) : exec .listOrgs st = (.ok st.orgList, st) := by
  cases st <;> rfl

@[simp] theorem exec_listFormations (st : AnyStore) (o : String) :
    exec (.listFormations o) st = (.ok (st.formationList o), st) := by
  cases st <;> rfl

theorem exec_createOrg (st : AnyStore) (org : Organization) (h : st.core.org org.orgId = none) :
    ∃ st', exec (.createOrg org) st = (.ok (), st') ∧ st'.core = st.core.putOrg org := by
  cases st with
  | redb s =>
    refine ⟨_, rfl, Core.ext (funext ?_) rfl rfl⟩
    intro o
    exact Table.get_insert _ _ _ _
  | postgres s =>
    cases hi : s.orgs.insert org.orgId org with
    | none =>
      rw [Rows.insert_eq_none] at hi
      simp [show s.orgs.select org.orgId = none from h] at hi
    | some t =>
      refine ⟨.postgres { s with orgs := t }, ?_, Core.ext (funext ?_) rfl rfl⟩
      · simp only [exec, Postgres.exec, hi, Postgres.commit]
      · intro o
        exact Rows.select_insert hi o

theorem exec_updateOrg (st : AnyStore) (org : Organization)
    (h : ∃ x, st.core.org org.orgId = some x) :
    ∃ st', exec (.updateOrg org) st = (.ok (), st') ∧ st'.core = st.core.putOrg org := by
  obtain ⟨x, hx⟩ := h
  cases st with
  | redb s =>
    refine ⟨_, rfl, Core.ext (funext ?_) rfl rfl⟩
    intro o
    exact Table.get_insert _ _ _ _
  | postgres s =>
    refine ⟨_, rfl, Core.ext (funext ?_) rfl rfl⟩
    intro o
    apply (Rows.select_update _ _ _ _).trans
    simp only [Core.putOrg]
    split
    · next heq =>
      subst heq
      rw [show s.orgs.select org.orgId = some x from hx]
      rfl
    · rfl

theorem exec_deleteOrg (h : st.Sound) (o : String) :
    ∃ st', exec (.deleteOrg o) st = (.ok (st.core.org o).isSome, st') ∧
      st'.core = st.core.dropOrg o := by
  cases st with
  | redb s =>
    refine ⟨_, rfl, Core.ext (funext ?_) (funext fun o' => funext ?_)
      (funext fun o' => funext ?_)⟩
    · intro o'
      exact Table.get_erase _ _ _
    · intro a
      exact get_removeAll_key (Redb.Keyed.readBack_formations h.tidy)
    · intro a
      exact get_removeAll_key (Redb.Keyed.readBack_genesis h.tidy)
  | postgres s =>
    have hexec : exec (.deleteOrg o) (.postgres s) = (.ok (s.orgs.select o).isSome,
      .postgres (if (s.orgs.select o).isSome then s.deleteOrg o else s)) := rfl
    refine ⟨_, hexec, ?_⟩
    by_cases hsome : (s.orgs.select o).isSome = true
    · rw [if_pos hsome]
      refine Core.ext (funext ?_) (funext fun o' => funext ?_)
        (funext fun o' => funext ?_)
      · intro o'
        exact Rows.select_delete _ _ _
      · intro a
        refine (Rows.select_deleteWhere _ _ _).trans (if_congr ?_ rfl rfl)
        exact beq_iff_eq.trans eq_comm
      · intro a
        refine (Rows.select_deleteWhere _ _ _).trans (if_congr ?_ rfl rfl)
        exact beq_iff_eq.trans eq_comm
    · -- nothing refers to an organization that is not there
      rw [if_neg hsome]
      have hnone : s.orgs.select o = none := by simpa using hsome
      have hform : ∀ a, s.formations.select (o, a) = none := by
        intro a
        by_contra hne
        obtain ⟨f, hf⟩ := Option.ne_none_iff_exists'.mp hne
        obtain ⟨x, hx⟩ := h.closed.formation_org (o := o) (a := a) hf
        exact absurd (hnone.symm.trans hx) (by simp)
      have hgen : ∀ a, s.genesis.select (o, a) = none := by
        intro a
        by_contra hne
        obtain ⟨b, hb⟩ := Option.ne_none_iff_exists'.mp hne
        obtain ⟨f, hf⟩ := h.closed.genesis_formation (o := o) (a := a) hb
        exact absurd ((hform a).symm.trans hf) (by simp)
      refine Core.ext (funext fun o' => ?_) (funext fun o' => funext fun a => ?_)
        (funext fun o' => funext fun a => ?_)
      all_goals
        simp only [core, Core.dropOrg]
        split
        · next heq => subst heq; simp [hnone, hform, hgen]
        · rfl

theorem exec_createFormation {f : FormationConfig} (h : st.Tidy) (ha : IsIdentifier f.appId)
    (horg : ∃ x, st.core.org o = some x) (hnone : st.core.formation o f.appId = none) :
    ∃ st', exec (.createFormation o f) st = (.ok (), st') ∧
      st'.core = st.core.putFormation o f ∧ st'.Tidy := by
  obtain ⟨x, hx⟩ := horg
  cases st with
  | redb s =>
    have ho := (Redb.Keyed.orgs h _ _ hx).1
    refine ⟨_, rfl, Core.ext rfl (funext fun o' => funext ?_) rfl, ?_⟩
    · intro a
      exact get_insert_key ho ha f
    · exact (callSpec_sound (fun _ => True) (.createFormation o f) s h ⟨ho, ha, trivial⟩).1
  | postgres s =>
    obtain ⟨t, ht, hsel⟩ := Postgres.insertChild_ok "formations" (v := f) hnone
      (Option.isSome_of_eq_some (show s.orgs.select o = some x from hx))
    refine ⟨.postgres { s with formations := t }, ?_,
      Core.ext rfl (funext fun o' => funext ?_) rfl, trivial⟩
    · simp only [exec, Postgres.exec, ht, Postgres.commit]
    · intro a
      refine (hsel (o', a)).trans (if_congr ?_ rfl rfl)
      exact Prod.mk.injEq _ _ _ _ ▸ Iff.rfl

theorem exec_storeGenesis (h : st.Tidy) (ha : IsIdentifier a)
    (horg : ∃ x, st.core.org o = some x) (b : Bytes) :
    ∃ st', exec (.storeGenesis o a b) st = (.ok (), st') ∧
      st'.core = st.core.putGenesis o a b := by
  obtain ⟨x, hx⟩ := horg
  cases st with
  | redb s =>
    refine ⟨_, rfl, Core.ext rfl rfl (funext fun o' => funext ?_)⟩
    intro a
    exact get_insert_key (Redb.Keyed.orgs h _ _ hx).1 ha b
  | postgres s =>
    refine ⟨.postgres { s with genesis := s.genesis.upsert (o, a) b }, ?_,
      Core.ext rfl rfl (funext fun o' => funext ?_)⟩
    · simp only [exec, Postgres.exec, Postgres.upsertChild,
        show s.orgs.select o = some x from hx, Option.isSome_some, Bool.or_true, if_true,
        Postgres.commit]
    · intro a'
      refine (Rows.select_upsert _ _ (o', a') _).trans (if_congr ?_ rfl rfl)
      exact Prod.mk.injEq _ _ _ _ ▸ Iff.rfl

theorem exec_deleteFormation (h : st.Tidy) (o a : String) :
    ∃ st', exec (.deleteFormation o a) st = (.ok (st.core.formation o a).isSome, st') ∧
      st'.core = st.core.dropFormation o a ∧ st'.Tidy := by
  cases st with
  | redb s =>
    refine ⟨_, rfl, Core.ext rfl (funext fun o' => funext ?_) rfl, ?_⟩
    · intro a'
      exact get_erase_key (Redb.Keyed.readBack_formations h)
    · exact (callSpec_sound (fun _ => True) (.deleteFormation o a) s h trivial).1
  | postgres s =>
    refine ⟨_, rfl, Core.ext rfl (funext fun o' => funext ?_) rfl, trivial⟩
    intro a'
    refine (Rows.select_delete _ _ (o', a')).trans (if_congr ?_ rfl rfl)
    exact Prod.mk.injEq _ _ _ _ ▸ Iff.rfl

theorem exec_deleteGenesis (h : st.Tidy) (o a : String) :
    ∃ st', exec (.deleteGenesis o a) st = (.ok (st.core.genesis o a).isSome, st') ∧
      st'.core = st.core.dropGenesis o a := by
  cases st with
  | redb s =>
    refine ⟨_, rfl, Core.ext rfl rfl (funext fun o' => funext ?_)⟩
    intro a'
    exact get_erase_key (Redb.Keyed.readBack_genesis h)
  | postgres s =>
    refine ⟨_, rfl, Core.ext rfl rfl (funext fun o' => funext ?_)⟩
    intro a'
    refine (Rows.select_delete _ _ (o', a')).trans (if_congr ?_ rfl rfl)
    exact Prod.mk.injEq _ _ _ _ ▸ Iff.rfl

end AnyStore

/-! ### Listings -/

section Listings

variable {st : AnyStore} (h : st.Sound) {o : String}

include h

/-- The listing of an organization holds its formations. -/
theorem AnyStore.Sound.mem_formationList {f : FormationConfig} :
    f ∈ st.formationList o ↔ st.core.formation o f.appId = some f := by
  cases st with
  | redb s =>
    refine Table.mem_scan.trans ⟨?_, fun hf => ⟨_, belongsTo_nulKey o f.appId, hf⟩⟩
    rintro ⟨k, hk, hf⟩
    obtain ⟨x, rfl⟩ := belongsTo_iff.mp hk
    obtain ⟨-, -, rfl⟩ := Redb.Keyed.formation_ids h.tidy hf
    exact hf
  | postgres s =>
    rw [AnyStore.formationList, Rows.mem_orderBy]
    refine ⟨?_, fun hf => ⟨(o, f.appId), beq_self_eq_true o, hf⟩⟩
    rintro ⟨⟨o', a⟩, hk, hf⟩
    obtain rfl := eq_of_beq hk
    obtain rfl := h.closed.appId hf
    exact hf

/-- The listing of the organizations holds them all. -/
theorem AnyStore.Sound.mem_orgList {x : Organization} :
    x ∈ st.orgList ↔ st.core.org x.orgId = some x := by
  have hid : (∃ k, st.core.org k = some x) ↔ st.core.org x.orgId = some x := by
    refine ⟨?_, fun hx => ⟨_, hx⟩⟩
    rintro ⟨k, hk⟩
    rw [h.closed.orgId hk]
    exact hk
  rw [← hid]
  cases st with
  | redb s =>
    simp only [AnyStore.orgList, AnyStore.core, List.mem_map, Prod.exists, exists_eq_right,
      Std.ExtTreeMap.mem_toList_iff_getElem?_eq_some]
  | postgres s =>
    rw [AnyStore.orgList, Rows.mem_orderBy]
    simp only [true_and]
    rfl

/-- No organization is listed twice. -/
theorem AnyStore.Sound.nodup_orgList : (st.orgList.map Organization.orgId).Nodup := by
  cases st with
  | redb s =>
    have hscan : AnyStore.orgList (.redb s) = s.orgs.scan fun _ => true := by
      simp [AnyStore.orgList, Table.scan]
    rw [hscan]
    exact Table.nodup_map_scan (e := id) fun k x _ hx => h.closed.orgId hx
  | postgres s =>
    rw [AnyStore.orgList]
    exact Rows.nodup_map_orderBy (e := id) fun k x _ hx => h.closed.orgId hx

/-- No formation of an organization is listed twice. -/
theorem AnyStore.Sound.nodup_formationList :
    ((st.formationList o).map FormationConfig.appId).Nodup := by
  cases st with
  | redb s =>
    apply Table.nodup_map_scan (e := formationKey o)
    intro k f hk hf
    obtain ⟨x, rfl⟩ := belongsTo_iff.mp hk
    rw [(Redb.Keyed.formation_ids h.tidy hf).2.2]
    rfl
  | postgres s =>
    rw [AnyStore.formationList]
    refine Rows.nodup_map_orderBy (e := fun a => (o, a)) ?_
    rintro ⟨o', a⟩ f hk hf
    obtain rfl := eq_of_beq hk
    rw [h.closed.appId hf]

end Listings

/-! ### The operations -/

/-- The genesis an operation makes if it succeeds, and the formation it is made for. -/
def ManagerOp.newborn {G : Type} (mgr : TenantManager G) : ManagerOp → Option (String × String × G)
  | createFormation draw o a policy =>
    some (o, a, mgr.api.create a policy.toMembership draw.genesis)
  | _ => none

/-- What an operation may do to the abstract store, given its outcome.  Only a successful
`create_formation` makes a genesis. -/
inductive OpEffect {G : Type} (mgr : TenantManager G) (c : Core) :
    ManagerOp → Except Error (Outcome G) → Core → Prop
  | stay {op r} (h : op.newborn mgr = none ∨ ∃ e, r = .error e) : OpEffect mgr c op r c
  | putOrg {op r} (h : op.newborn mgr = none) (org : Organization) :
      OpEffect mgr c op r (c.putOrg org)
  | dropOrg {op r} (h : op.newborn mgr = none) (o : String) : OpEffect mgr c op r (c.dropOrg o)
  | add {draw : TenantManager.FormationDraw} {o a policy g b x}
      (hg : g = mgr.api.create a policy.toMembership draw.genesis)
      (horg : ∃ x, c.org o = some x) (hnone : c.formation o a = none)
      (hb : mgr.protect draw.envelope (mgr.api.encode g) = .ok b) :
      OpEffect mgr c (.createFormation draw o a policy) (.ok x)
        ((c.putFormation o ⟨a, mgr.api.meshId g, policy⟩).putGenesis o a b)
  | remove {op r} (h : op.newborn mgr = none) (o a : String) :
      OpEffect mgr c op r ((c.dropFormation o a).dropGenesis o a)

/-- Every transition keeps the abstract store closed. -/
theorem OpEffect.closed {G : Type} {mgr : TenantManager G} {c c' : Core} {op : ManagerOp}
    {r : Except Error (Outcome G)} (h : OpEffect mgr c op r c') (hc : c.Closed) : c'.Closed := by
  cases h with
  | stay => exact hc
  | putOrg _ org => exact hc.putOrg org
  | dropOrg _ o => exact hc.dropOrg o
  | add _ horg => exact hc.add horg
  | remove _ o a => exact hc.remove o a

/-- The calls that touch neither organizations nor formations nor genesis. -/
def quiet : StorageCall → Prop
  | .createOrg _ | .updateOrg _ | .deleteOrg _ | .createFormation _ _ | .deleteFormation _ _
  | .storeGenesis _ _ _ | .deleteGenesis _ _ => False
  | _ => True

/-- The specification of programs that touch none of them. -/
def quietSpec : Spec Storage := ⟨quiet, fun _ _ => True⟩

theorem core_commit {T : Type} {s : Postgres} {r : Except Error T} {f : T → Postgres}
    (hf : ∀ t, (AnyStore.postgres (f t)).core = (AnyStore.postgres s).core) :
    (AnyStore.postgres (Postgres.commit s r f).2).core = (AnyStore.postgres s).core := by
  unfold Postgres.commit
  split
  · exact hf _
  · rfl

theorem quietSpec_sound (c₀ : Core) : quietSpec.Sound AnyStore.exec fun st => st.core = c₀ := by
  rintro c st rfl hpre
  refine ⟨?_, fun _ _ => trivial⟩
  cases st with
  | redb s =>
    cases c
    all_goals first
      | exact False.elim hpre
      | rfl
  | postgres s =>
    cases c
    all_goals first
      | exact False.elim hpre
      | rfl
      | exact core_commit fun _ => rfl

section Ops

variable {G : Type} (mgr : TenantManager G) {st : AnyStore}

/-- An operation that makes only quiet calls leaves the abstract store alone. -/
theorem effect_of_quiet {op : ManagerOp} (h : op.newborn mgr = none)
    (hq : (op.prog mgr).Meets quietSpec fun _ => True) :
    OpEffect mgr st.core op ((op.prog mgr).run AnyStore.exec st).1
      ((op.prog mgr).run AnyStore.exec st).2.core := by
  rw [(Prog.run_meets (quietSpec_sound st.core) hq rfl).1]
  exact .stay (Or.inl h)

/-- What an operation ends in, as a pair of postconditions. -/
def EffectWp (st : AnyStore) (op : ManagerOp) : Prop :=
  (op.prog mgr).Wp AnyStore.exec st (fun x st' => OpEffect mgr st.core op (.ok x) st'.core)
    fun st' => ∀ e, OpEffect mgr st.core op (.error e) st'.core

theorem wp_createOrg (now : UInt64) (o name : String) :
    EffectWp mgr st (.createOrg now o name) := by
  have hstay : ∀ e, OpEffect mgr st.core (.createOrg now o name) (.error e) st.core :=
    fun _ => .stay (Or.inl rfl)
  simp only [EffectWp, ManagerOp.prog, TenantManager.createOrg, Prog.wp_map, Prog.wp_bind,
    Prog.wp_ofExcept, Prog.wp_ensure, Prog.wp_pure, wp_store, AnyStore.exec_getOrg, Prog.post_ok]
  refine ⟨fun _ _ => ⟨fun _ _ => ⟨?_, fun _ => hstay⟩, fun _ _ => hstay⟩,
    fun _ _ => hstay⟩
  intro hnone
  obtain ⟨st', hexec, hcore⟩ := AnyStore.exec_createOrg st ⟨o, name, .default, now⟩
    (by simpa using hnone)
  rw [hexec, Prog.post_ok, hcore]
  exact .putOrg rfl _

theorem wp_updateOrg (h : st.Sound) (o : String) (name : Option String)
    (quotas : Option OrgQuotas) : EffectWp mgr st (.updateOrg o name quotas) := by
  simp only [EffectWp, ManagerOp.prog, TenantManager.updateOrg, TenantManager.getOrg, Prog.wp_map,
    Prog.wp_bind, Prog.wp_okOrElse, Prog.wp_pure, wp_store, AnyStore.exec_getOrg, Prog.post_ok]
  refine ⟨?_, fun _ _ => .stay (Or.inl rfl)⟩
  intro x hx
  -- the record that is written back carries the id it was found under
  have hid := h.closed.orgId hx
  obtain ⟨st', hexec, hcore⟩ := AnyStore.exec_updateOrg st
    { x with displayName := name.getD x.displayName, quotas := quotas.getD x.quotas }
    ⟨x, by rw [hid]; exact hx⟩
  rw [hexec, Prog.post_ok, hcore]
  exact .putOrg rfl _

theorem wp_deleteOrg (h : st.Sound) (o : String) : EffectWp mgr st (.deleteOrg o) := by
  obtain ⟨st', hexec, hcore⟩ := AnyStore.exec_deleteOrg h o
  simp only [EffectWp, ManagerOp.prog, TenantManager.deleteOrg, Prog.wp_map, Prog.wp_bind,
    Prog.wp_ensure, wp_store, hexec, Prog.post_ok, hcore]
  exact ⟨fun _ => .dropOrg rfl o, fun _ _ => .dropOrg rfl o⟩

theorem wp_createFormation (h : st.Sound) (draw : TenantManager.FormationDraw) (o a : String)
    (policy : EnrollmentPolicy) : EffectWp mgr st (.createFormation draw o a policy) := by
  have hstay : ∀ e, OpEffect mgr st.core (.createFormation draw o a policy) (.error e) st.core :=
    fun e => .stay (Or.inr ⟨e, rfl⟩)
  simp only [EffectWp, ManagerOp.prog, TenantManager.createFormation, TenantManager.getOrg,
    Prog.wp_map, Prog.wp_bind, Prog.wp_ofExcept, Prog.wp_okOrElse, Prog.wp_ensure, Prog.wp_pure,
    wp_store, AnyStore.exec_getOrg, AnyStore.exec_getFormation, AnyStore.exec_listFormations,
    Prog.post_ok]
  refine ⟨fun _ hval => ⟨fun x hx => ⟨fun _ => ⟨fun hnone => ⟨?_, fun _ _ => hstay⟩,
    fun _ => hstay⟩, fun _ => hstay⟩, fun _ => hstay⟩, fun _ _ => hstay⟩
  intro b hb
  have ha := isIdentifier_of_validate hval
  have hnone : st.core.formation o a = none := by simpa using hnone
  obtain ⟨st₁, hexec₁, hcore₁, htidy₁⟩ := AnyStore.exec_createFormation (o := o)
    (f := ⟨a, mgr.api.meshId (mgr.api.create a policy.toMembership draw.genesis), policy⟩)
    h.tidy ha ⟨x, hx⟩ hnone
  obtain ⟨st₂, hexec₂, hcore₂⟩ := AnyStore.exec_storeGenesis htidy₁ ha
    (o := o) ⟨x, by rw [hcore₁]; exact hx⟩ b
  rw [hexec₁, Prog.post_ok, hexec₂, Prog.post_ok, hcore₂, hcore₁]
  exact .add rfl ⟨x, hx⟩ hnone hb

theorem wp_deleteFormation (h : st.Sound) (o a : String) :
    EffectWp mgr st (.deleteFormation o a) := by
  obtain ⟨st₁, hexec₁, hcore₁, htidy₁⟩ := AnyStore.exec_deleteFormation h.tidy o a
  obtain ⟨st₂, hexec₂, hcore₂⟩ := AnyStore.exec_deleteGenesis htidy₁ o a
  simp only [EffectWp, ManagerOp.prog, TenantManager.deleteFormation, Prog.wp_map, Prog.wp_bind,
    Prog.wp_ensure, Prog.wp_attempt, Prog.wp_pure, wp_store, hexec₁, hexec₂, Prog.post_ok]
  refine ⟨?_, ?_⟩
  · intro _
    rw [hcore₂, hcore₁]
    exact .remove rfl o a
  · intro hnone e
    -- the formation was not there, so removing it has changed nothing
    have hnone : st.core.formation o a = none := by simpa using hnone
    have hcore : st₁.core = st.core := by
      rw [hcore₁]
      refine Core.ext rfl (funext fun o' => funext ?_) rfl
      intro a'
      simp only [Core.dropFormation]
      split
      · next heq => rw [← heq.1, ← heq.2, hnone]
      · rfl
    rw [hcore]
    exact .stay (Or.inl rfl)

/-- **Every operation of the manager is one transition of the abstract store**, on either
backend. -/
theorem op_effect (h : st.Sound) (op : ManagerOp) :
    OpEffect mgr st.core op ((op.prog mgr).run AnyStore.exec st).1
      ((op.prog mgr).run AnyStore.exec st).2.core := by
  have hwp : EffectWp mgr st op → OpEffect mgr st.core op ((op.prog mgr).run AnyStore.exec st).1
      ((op.prog mgr).run AnyStore.exec st).2.core :=
    fun hp => Prog.Wp.elim hp (C := fun r st' => OpEffect mgr st.core op r st'.core)
      (fun _ _ hx => hx) (fun e _ hx => hx e)
  cases op
  case createOrg => exact hwp (wp_createOrg mgr _ _ _)
  case updateOrg => exact hwp (wp_updateOrg mgr h _ _ _)
  case deleteOrg => exact hwp (wp_deleteOrg mgr h _)
  case createFormation => exact hwp (wp_createFormation mgr h _ _ _ _)
  case deleteFormation => exact hwp (wp_deleteFormation mgr h _ _)
  -- the others make no call that touches the three tables
  all_goals
    apply effect_of_quiet mgr rfl
    apply ManagerOp.meets_of_needs
    simp [ManagerOp.Needs, Spec.Finds, quietSpec, quiet]

end Ops

/-! ### Runs -/

theorem AnyStore.Tidy.op {G : Type} {st : AnyStore} (h : st.Tidy) (mgr : TenantManager G)
    (op : ManagerOp) : ((op.prog mgr).run AnyStore.exec st).2.Tidy := by
  cases st with
  | redb s =>
    rw [AnyStore.run_redb]
    exact (Prog.run_meets (callSpec_sound fun _ => True) (op.meets mgr fun _ _ _ _ => trivial) h).1
  | postgres s =>
    rw [AnyStore.run_postgres]
    trivial

theorem AnyStore.Sound.op {G : Type} {st : AnyStore} (h : st.Sound) (mgr : TenantManager G)
    (op : ManagerOp) : ((op.prog mgr).run AnyStore.exec st).2.Sound :=
  ⟨h.tidy.op mgr op, (op_effect mgr h op).closed h.closed⟩

/-- A store without rows. -/
inductive AnyStore.IsEmpty : AnyStore → Prop
  | redb : IsEmpty (.redb .empty)
  | postgres : IsEmpty (.postgres .empty)

theorem AnyStore.IsEmpty.sound {st : AnyStore} (h : st.IsEmpty) : st.Sound := by
  cases h with
  | redb =>
    exact ⟨Redb.keyed_empty, ⟨fun h => by simp [core, Redb.empty] at h,
      fun h => by simp [core, Redb.empty] at h, fun h => by simp [core, Redb.empty] at h,
      fun h => by simp [core, Redb.empty] at h⟩⟩
  | postgres => exact ⟨trivial, ⟨nofun, nofun, nofun, nofun⟩⟩

/-- The stores that operations of managers lead to from an empty one, each run to its end
before the next. -/
inductive Served (G : Type) : AnyStore → Prop
  | empty {st : AnyStore} (h : st.IsEmpty) : Served G st
  | op {st : AnyStore} (h : Served G st) (mgr : TenantManager G) (op : ManagerOp) :
      Served G ((op.prog mgr).run AnyStore.exec st).2

/-- **A store that operations lead to is closed.** -/
theorem Served.sound {G : Type} {st : AnyStore} (h : Served G st) : st.Sound := by
  induction h with
  | empty h => exact h.sound
  | op _ mgr op ih => exact ih.op mgr op

end PeatGateway
