import PeatGateway.Tenant.Core

/-!
# Quotas

A formation or a sink is created after its kind has been counted, in a transaction of its own
some steps later.  Whoever creates one in between is not counted.

## Main definitions

* `Resource` — the two kinds an organization has a quota of.
* `AnyStore.count`, `AnyStore.WithinQuotas` — the rows of an organization, and that they are not
  more than its quotas.
* `AnyStore.adds` — the kind a call adds a row of.
* `AnyStore.Fits` — there is room for the row a call adds.

## Main results

* `count_exec` — what a call does to the number of rows.
* `quotas_iff` — **in all states of a run an organization is within its quotas, exactly if there
  is room whenever a row is added**; an operation that nothing comes between sees to that.
-/

namespace PeatGateway

open Effect

/-- What an organization has a quota of. -/
inductive Resource
  | formations
  | sinks
  deriving DecidableEq, Repr

/-- The quota. -/
def OrgQuotas.limit (q : OrgQuotas) : Resource → UInt32
  | .formations => q.maxFormations
  | .sinks => q.maxCdcSinks

namespace AnyStore

/-- The number of rows of the organization. -/
def count (A : String) : Resource → AnyStore → ℕ
  | .formations, .redb s => (s.formations.scan (belongsTo A)).length
  | .sinks, .redb s => (s.sinks.scan (belongsTo A)).length
  | .formations, .postgres s => s.formations.count (·.1 == A)
  | .sinks, .postgres s => s.sinks.count (·.1 == A)

/-- The kind the call adds a row of to those of the organization: on redb whatever is written
under a key that was not in use, on Postgres an insert that is not rejected. -/
def adds (A : String) : StorageCall → AnyStore → Option Resource
  | .createFormation orgId f, .redb s =>
    if belongsTo A (formationKey orgId f.appId) ∧ s.formations[formationKey orgId f.appId]? = none
    then some .formations else none
  | .createSink k, .redb s | .updateSink k, .redb s =>
    if belongsTo A (sinkKey k.orgId k.sinkId) ∧ s.sinks[sinkKey k.orgId k.sinkId]? = none
    then some .sinks else none
  | .createFormation orgId f, .postgres s =>
    if orgId = A ∧ s.formations.select (orgId, f.appId) = none ∧ (s.orgs.select orgId).isSome
    then some .formations else none
  | .createSink k, .postgres s =>
    if k.orgId = A ∧ s.sinks.select (k.orgId, k.sinkId) = none ∧ (s.orgs.select k.orgId).isSome
    then some .sinks else none
  | _, _ => none

/-- The organization is within the quotas. -/
def WithinQuotas (A : String) (q : OrgQuotas) (st : AnyStore) : Prop :=
  ∀ R, st.count A R ≤ (q.limit R).toNat

/-- There is room for the row the call adds. -/
def Fits (A : String) (q : OrgQuotas) (c : StorageCall) (st : AnyStore) : Prop :=
  ∀ R, adds A c st = some R → st.count A R < (q.limit R).toNat

end AnyStore

/-! ### What a call does to the number of rows -/

section Redb

variable {V : Type} {t : Table String V} {k : String} {v : V} {p : String → Bool}

/-- Writing over a row, or a row of others, adds none. -/
theorem length_scan_insert_le (h : ¬ (p k = true ∧ t[k]? = none)) :
    (Table.scan (t.insert k v) p).length ≤ (t.scan p).length := by
  apply Table.length_scan_le
  intro k' hp hu
  rw [Table.get_insert] at hu
  split at hu
  · next heq =>
    subst heq
    exact Option.isSome_iff_ne_none.mpr fun hnone => h ⟨hp, hnone⟩
  · exact hu

theorem length_scan_erase_le : (Table.scan (t.erase k) p).length ≤ (t.scan p).length := by
  apply Table.length_scan_le
  intro k' _ hu
  rw [Table.get_erase] at hu
  split at hu
  · cases hu
  · exact hu

theorem length_scan_removeAll_le {q : String → Bool} :
    ((t.removeAll q).scan p).length ≤ (t.scan p).length := by
  apply Table.length_scan_le
  intro k' _ hu
  rw [Table.get_removeAll] at hu
  split at hu
  · cases hu
  · exact hu

end Redb

/-- What a statement leaves that may be rejected. -/
theorem count_commit {T : Type} {s : Postgres} {r : Except Error T} {f : T → Postgres} {A : String}
    {R : Resource} {n : ℕ} (hs : AnyStore.count A R (.postgres s) ≤ n)
    (hf : ∀ t, r = .ok t → AnyStore.count A R (.postgres (f t)) ≤ n) :
    AnyStore.count A R (.postgres (Postgres.commit s r f).2) ≤ n := by
  cases r with
  | ok t => exact hf t rfl
  | error e => exact hs

section Exec

variable {A : String} {c : StorageCall} {R : Resource} {st : AnyStore}

/-- A call that adds a row adds one. -/
theorem count_of_adds (h : AnyStore.adds A c st = some R) :
    (AnyStore.exec c st).2.count A R = st.count A R + 1 := by
  cases st with
  | redb s =>
    cases c
    case createFormation orgId f =>
      obtain ⟨⟨hp, hnone⟩, hR⟩ := Option.ite_none_right_eq_some.mp h
      obtain rfl := Option.some.inj hR
      exact (Table.length_scan_insert hnone f _).trans (by rw [if_pos hp]; rfl)
    -- On redb an update is an insert, so it can add a row too.
    case createSink k | updateSink k =>
      obtain ⟨⟨hp, hnone⟩, hR⟩ := Option.ite_none_right_eq_some.mp h
      obtain rfl := Option.some.inj hR
      exact (Table.length_scan_insert hnone k _).trans (by rw [if_pos hp]; rfl)
    all_goals cases h
  | postgres s =>
    cases c
    case createFormation orgId f =>
      obtain ⟨⟨rfl, hnone, horg⟩, hR⟩ := Option.ite_none_right_eq_some.mp h
      obtain rfl := Option.some.inj hR
      -- The key is free and the organization is there: the insert goes through.
      obtain ⟨t, ht, -⟩ := Postgres.insertChild_ok "formations" (v := f) hnone horg
      simp only [AnyStore.exec, Postgres.exec, Postgres.commit, ht]
      change t.count (·.1 == orgId) = s.formations.count (·.1 == orgId) + 1
      rw [Rows.count_insert (Postgres.insertChild_eq_ok ht).1, if_pos (beq_self_eq_true _)]
    case createSink k =>
      obtain ⟨⟨rfl, hnone, horg⟩, hR⟩ := Option.ite_none_right_eq_some.mp h
      obtain rfl := Option.some.inj hR
      obtain ⟨t, ht, -⟩ := Postgres.insertChild_ok "cdc_sinks" (v := k) hnone horg
      simp only [AnyStore.exec, Postgres.exec, Postgres.commit, ht]
      change t.count (·.1 == k.orgId) = s.sinks.count (·.1 == k.orgId) + 1
      rw [Rows.count_insert (Postgres.insertChild_eq_ok ht).1, if_pos (beq_self_eq_true _)]
    all_goals cases h

/-- Any other call leaves at most as many rows. -/
theorem count_of_not_adds (h : AnyStore.adds A c st ≠ some R) :
    (AnyStore.exec c st).2.count A R ≤ st.count A R := by
  cases st with
  | redb s =>
    cases c
    case createFormation | createSink | updateSink =>
      cases R
      all_goals first
        | exact le_rfl
        | exact length_scan_insert_le fun hadds => h (if_pos hadds)
    case deleteFormation | deleteSink =>
      cases R
      all_goals first
        | exact le_rfl
        | exact length_scan_erase_le
    case deleteOrg =>
      cases R
      all_goals exact length_scan_removeAll_le
    all_goals cases R <;> exact le_rfl
  | postgres s =>
    cases c
    case createFormation orgId f =>
      simp only [AnyStore.exec, Postgres.exec]
      apply count_commit le_rfl
      intro t ht
      cases R with
      | sinks => exact le_rfl
      | formations =>
        -- An insert that went through added a row, so it was of another organization.
        obtain ⟨hins, horg⟩ := Postgres.insertChild_eq_ok ht
        change t.count (·.1 == A) ≤ s.formations.count (·.1 == A)
        rw [Rows.count_insert hins, if_neg, Nat.add_zero]
        intro hA
        exact h (if_pos ⟨beq_iff_eq.mp hA, Rows.select_of_insert hins, horg⟩)
    case createSink k =>
      simp only [AnyStore.exec, Postgres.exec]
      apply count_commit le_rfl
      intro t ht
      cases R with
      | formations => exact le_rfl
      | sinks =>
        obtain ⟨hins, horg⟩ := Postgres.insertChild_eq_ok ht
        change t.count (·.1 == A) ≤ s.sinks.count (·.1 == A)
        rw [Rows.count_insert hins, if_neg, Nat.add_zero]
        intro hA
        exact h (if_pos ⟨beq_iff_eq.mp hA, Rows.select_of_insert hins, horg⟩)
    -- Here an update replaces what is there and never adds.
    case updateSink k =>
      cases R with
      | formations => exact le_rfl
      | sinks => exact (Rows.count_update s.sinks (k.orgId, k.sinkId) k fun key => key.1 == A).le
    case deleteFormation | deleteSink =>
      cases R
      all_goals first
        | exact le_rfl
        | exact Rows.count_deleteWhere_le s.formations _ fun key => key.1 == A
        | exact Rows.count_deleteWhere_le s.sinks _ fun key => key.1 == A
    case deleteOrg orgId =>
      simp only [AnyStore.exec, Postgres.exec]
      split
      · cases R with
        | formations => exact Rows.count_deleteWhere_le s.formations _ fun key => key.1 == A
        | sinks => exact Rows.count_deleteWhere_le s.sinks _ fun key => key.1 == A
      · exact le_rfl
    case createOrg | createToken | createIdp | createPolicyRule | appendAudit | storeGenesis |
        setCursor =>
      simp only [AnyStore.exec, Postgres.exec]
      apply count_commit le_rfl
      intro t ht
      cases R <;> exact le_rfl
    all_goals cases R <;> exact le_rfl

/-- **A call keeps an organization within its quotas exactly if there is room for the row it
adds.** -/
theorem AnyStore.WithinQuotas.exec_iff {q : OrgQuotas} (hst : st.WithinQuotas A q) :
    (AnyStore.exec c st).2.WithinQuotas A q ↔ AnyStore.Fits A q c st := by
  constructor
  · intro hafter R hadds
    have hcount := hafter R
    rw [count_of_adds hadds] at hcount
    exact hcount
  · intro hfits R
    by_cases hadds : AnyStore.adds A c st = some R
    · rw [count_of_adds hadds]
      exact hfits R hadds
    · exact le_trans (count_of_not_adds hadds) (hst R)

end Exec

/-! ### The operations -/

/-- The operations that count, and those that make room. -/
def ManagerOp.IsCounted (A : String) : ManagerOp → Prop
  | .createFormation _ orgId _ _ | .deleteFormation orgId _ | .createSink _ _ orgId _
  | .deleteSink orgId _ => orgId = A
  | _ => False

/-- Listing a kind counts it. -/
theorem length_formationList (st : AnyStore) (A : String) :
    (st.formationList A).length = st.count A .formations := by
  cases st with
  | redb s => rfl
  | postgres s => exact Rows.length_orderBy s.formations (·.1 == A) Prod.snd

theorem exec_listSinks (st : AnyStore) (A : String) :
    ∃ l, AnyStore.exec (.listSinks A) st = (.ok l, st) ∧ l.length = st.count A .sinks := by
  cases st with
  | redb s => exact ⟨_, rfl, rfl⟩
  | postgres s => exact ⟨_, rfl, Rows.length_orderBy _ _ _⟩

/-- A call that adds no row fits. -/
theorem fits_of_adds_none {A : String} {q : OrgQuotas} {c : StorageCall} {st : AnyStore}
    (h : AnyStore.adds A c st = none) : AnyStore.Fits A q c st := by
  intro R hR
  rw [h] at hR
  cases hR

/-- A creation fits if what it has counted leaves room. -/
theorem fits_createFormation {A appId : String} {q : OrgQuotas} {f : FormationConfig}
    {st : AnyStore} (h : st.count A .formations < q.maxFormations.toNat) :
    AnyStore.Fits A q (.createFormation appId f) st := by
  intro R hR
  have hkind : R = .formations := by
    cases st
    all_goals exact (Option.some.inj (Option.ite_none_right_eq_some.mp hR).2).symm
  rw [hkind]
  exact h

theorem fits_createSink {A : String} {q : OrgQuotas} {k : CdcSinkConfig} {st : AnyStore}
    (h : st.count A .sinks < q.maxCdcSinks.toNat) : AnyStore.Fits A q (.createSink k) st := by
  intro R hR
  have hkind : R = .sinks := by
    cases st
    all_goals exact (Option.some.inj (Option.ite_none_right_eq_some.mp hR).2).symm
  rw [hkind]
  exact h

/-- **An operation that nothing comes between adds a row only where there is room.** -/
theorem ManagerOp.along_fits {G : Type} (mgr : TenantManager G) {A : String} {op : ManagerOp}
    (hop : op.IsCounted A) {st : AnyStore} {org : Organization}
    (horg : (AnyStore.exec (.getOrg A) st).1 = .ok (some org))
    (hst : st.WithinQuotas A org.quotas) :
    (op.prog mgr).Along AnyStore.exec (AnyStore.Fits A org.quotas) st := by
  have hread : ∀ {c : StorageCall} (st : AnyStore), c.isRead = true →
      AnyStore.Fits A org.quotas c st := by
    intro c st hc
    apply fits_of_adds_none
    cases st <;> cases c <;> first | rfl | cases hc
  have hget : (AnyStore.exec (.getOrg A) st).2 = st := AnyStore.exec_of_isRead rfl st
  cases op
  case createFormation draw orgId appId policy =>
    obtain rfl : orgId = A := hop
    simp only [ManagerOp.prog, Prog.map, TenantManager.createFormation, TenantManager.getOrg,
      Prog.bind_assoc, Prog.along_ofExcept_bind, along_store_bind, Prog.along_okOrElse_bind,
      Prog.along_ensure_bind]
    refine fun _ _ => ⟨hread _ rfl, ?_⟩
    intro found hfound org' horg'
    obtain rfl := Except.ok.inj (horg.symm.trans hfound)
    obtain rfl := Option.some.inj horg'
    rw [hget]
    refine ⟨hread _ rfl, ?_⟩
    have hlen := length_formationList st orgId
    rw [AnyStore.exec_listFormations]
    rintro _ ⟨⟩ hquota
    -- the count is below the limit, and so small enough for the cast
    have hsmall : (st.formationList orgId).length < 2 ^ 32 := by
      rw [hlen]
      exact lt_of_le_of_lt (hst .formations) (UInt32.toNat_lt _)
    have hroom := lt_of_not_ofNat_ge hsmall hquota
    rw [hlen] at hroom
    refine ⟨hread _ rfl, ?_⟩
    intro taken _ _ stored _
    rw [AnyStore.exec_of_isRead rfl]
    refine ⟨fits_createFormation hroom, fun _ _ => ⟨?_, fun _ _ => Prog.along_done _ _⟩⟩
    apply fits_of_adds_none
    generalize (AnyStore.exec _ st).2 = st'
    cases st' <;> rfl
  case createSink draw now orgId sinkType =>
    obtain rfl : orgId = A := hop
    simp only [ManagerOp.prog, Prog.map, TenantManager.createSink, TenantManager.getOrg,
      Prog.bind_assoc, Prog.along_ofExcept_bind, along_store_bind, Prog.along_okOrElse_bind,
      Prog.along_ensure_bind]
    refine fun _ _ => ⟨hread _ rfl, ?_⟩
    intro found hfound org' horg'
    obtain rfl := Except.ok.inj (horg.symm.trans hfound)
    obtain rfl := Option.some.inj horg'
    rw [hget]
    refine ⟨hread _ rfl, ?_⟩
    obtain ⟨l, hlist, hlen⟩ := exec_listSinks st orgId
    rw [hlist]
    rintro _ ⟨⟩ hquota
    have hsmall : l.length < 2 ^ 32 := by
      rw [hlen]
      exact lt_of_le_of_lt (hst .sinks) (UInt32.toNat_lt _)
    have hroom := lt_of_not_ofNat_ge hsmall hquota
    rw [hlen] at hroom
    exact ⟨fits_createSink hroom, fun _ _ => Prog.along_done _ _⟩
  case deleteFormation orgId appId =>
    simp only [ManagerOp.prog, Prog.map, TenantManager.deleteFormation, Prog.bind_assoc,
      along_store_bind, Prog.along_ensure_bind, Prog.along_attempt_bind]
    refine ⟨fits_of_adds_none ?_, fun _ _ _ => ⟨fits_of_adds_none ?_, Prog.along_done _ _⟩⟩
    · cases st <;> rfl
    · generalize (AnyStore.exec _ st).2 = st'
      cases st' <;> rfl
  case deleteSink orgId sinkId =>
    simp only [ManagerOp.prog, Prog.map, TenantManager.deleteSink, Prog.bind_assoc,
      along_store_bind, Prog.along_ensure_bind]
    refine ⟨fits_of_adds_none ?_, fun _ _ _ => Prog.along_done _ _⟩
    cases st <;> rfl
  all_goals exact hop.elim

/-! ### Runs -/

/-- **In all states of a run an organization is within its quotas, exactly if there is room
whenever a row is added.**  An operation that nothing comes between adds a row only where
there is room. -/
theorem quotas_iff {G : Type} {st : AnyStore} {A : String} {org : Organization}
    (horg : (AnyStore.exec (.getOrg A) st).1 = .ok (some org))
    (hst : st.WithinQuotas A org.quotas) :
    (∀ l : Schedule G, (∀ l₁ l₂, l = l₁ ++ l₂ →
        (Pool.acts AnyStore.exec ⟨st, []⟩ l₁).store.WithinQuotas A org.quotas) ↔
      Pool.Always AnyStore.exec (Pool.Makes (AnyStore.Fits A org.quotas)) ⟨st, []⟩ l) ∧
    ∀ (mgr : TenantManager G) (op : ManagerOp), op.IsCounted A →
      (op.prog mgr).Along AnyStore.exec (AnyStore.Fits A org.quotas) st := by
  refine ⟨?_, fun mgr op hop => op.along_fits mgr hop horg hst⟩
  intro l
  exact Pool.forall_store_iff_makes (I := AnyStore.WithinQuotas A org.quotas)
    (fun c st hst => hst.exec_iff) hst

/-- An organization that may have one formation and one sink, and has none. -/
def oneEach : Organization :=
  ⟨"a", "A", { OrgQuotas.default with maxFormations := 1, maxCdcSinks := 1 }, 0⟩

/-- A store with this organization alone. -/
def oneEachStore : AnyStore := .redb { Redb.empty with orgs := (∅ : Table _ _).insert "a" oneEach }

/-- The creation of a sink. -/
def sinkOp (id : UInt8) : ManagerOp :=
  .createSink (.replicate 8 id) 1 "a" (.webhook "https://hooks.example")

theorem oneEachStore_within : oneEachStore.WithinQuotas "a" oneEach.quotas := by
  intro R
  cases R <;> decide +kernel

/-- A sink is created, and nothing comes between. -/
theorem quotas_iff_serial :
    (Pool.acts AnyStore.exec ⟨oneEachStore, []⟩
      [.start ((sinkOp 1).prog seedManager), .step 0, .step 0, .step 0]).store.WithinQuotas "a"
      oneEach.quotas := by
  have horg : (AnyStore.exec (.getOrg "a") oneEachStore).1 = .ok (some oneEach) := rfl
  obtain ⟨hiff, -⟩ := quotas_iff (G := Bytes) horg oneEachStore_within
  refine (hiff [.start ((sinkOp 1).prog seedManager), .step 0, .step 0, .step 0]).mpr ?_ _ []
    (List.append_nil _).symm
  refine ⟨?_, ?_, ?_, ?_, trivial⟩
  · rintro i c k ⟨⟩
  · rintro i c k ⟨⟩ ⟨⟩ R ⟨⟩
  · rintro i c k ⟨⟩ ⟨⟩ R ⟨⟩
  · rintro i c k ⟨⟩ ⟨⟩ R hR
    revert hR
    cases R <;> decide +kernel

/-- **Two creations that both count before either writes leave one sink too many.** -/
theorem quotas_exceeded :
    ¬ ∀ (st : AnyStore) (org : Organization) (l : Schedule Bytes),
      (AnyStore.exec (.getOrg "a") st).1 = .ok (some org) →
      (∀ R, st.count "a" R = 0) → l.Starts (ManagerOp.IsCounted "a") →
      (Pool.acts AnyStore.exec ⟨st, []⟩ l).store.WithinQuotas "a" org.quotas := by
  intro h
  have hwithin := h oneEachStore oneEach
    [.start ((sinkOp 1).prog seedManager), .start ((sinkOp 2).prog seedManager), .step 0, .step 0,
      .step 1, .step 1, .step 0, .step 1] rfl ?_ ?_ .sinks
  · revert hwithin
    decide +kernel
  · intro R
    cases R <;> decide +kernel
  · simp only [Schedule.Starts, Act.forall_start_start, Act.forall_start_step, Act.forall_start_nil]
    exact ⟨⟨seedManager, sinkOp 1, rfl, rfl⟩, ⟨seedManager, sinkOp 2, rfl, rfl⟩, trivial⟩

end PeatGateway
