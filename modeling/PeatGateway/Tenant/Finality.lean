import PeatGateway.Tenant.Owners

/-!
# Deletions are final

Five operations read a record, change it and write it back.  On redb writing back is an
insert: a record that has been deleted in the meantime is there again.

## Main definitions

* `RecordId` — the records that are written back, with the operations that delete and get
  them.
* `StorageCall.UpdatesStored` — a record that is written back is still there.
* `DeletionFinal` — what is deleted stays deleted until it is created again.

## Main results

* `deletion_final` — **deletions are final in every run in which only records are written back
  that are still there**.
* `deletion_undone` — a sink that is toggled while it is deleted comes back.
-/

namespace PeatGateway

open Effect

/-- A record that is changed in place. -/
inductive RecordId
  | org (orgId : String)
  | token (orgId tokenId : String)
  | sink (orgId sinkId : String)
  | idp (orgId idpId : String)

namespace RecordId

/-- The table of the record. -/
def table : RecordId → TableName
  | org _ => .orgs
  | token _ _ => .tokens
  | sink _ _ => .sinks
  | idp _ _ => .idps

/-- The key of the record. -/
def key : RecordId → String
  | org orgId => orgId
  | token orgId tokenId => tokenKey orgId tokenId
  | sink orgId sinkId => sinkKey orgId sinkId
  | idp orgId idpId => idpKey orgId idpId

/-- The operation that deletes it. -/
def deleteOp : RecordId → ManagerOp
  | org orgId => .deleteOrg orgId
  | token orgId tokenId => .deleteToken orgId tokenId
  | sink orgId sinkId => .deleteSink orgId sinkId
  | idp orgId idpId => .deleteIdp orgId idpId

/-- The operation that gets it. -/
def getOp : RecordId → ManagerOp
  | org orgId => .getOrg orgId
  | token orgId tokenId => .getToken orgId tokenId
  | sink orgId sinkId => .getSink orgId sinkId
  | idp orgId idpId => .getIdp orgId idpId

/-- What is reported if it is not there. -/
def notFound : RecordId → Error
  | org orgId => s!"Organization '{orgId}' not found"
  | token orgId tokenId => s!"Token '{tokenId}' not found in org '{orgId}'"
  | sink orgId sinkId => s!"Sink '{sinkId}' not found in org '{orgId}'"
  | idp orgId idpId => s!"IdP '{idpId}' not found in org '{orgId}'"

end RecordId

/-- The calls that write a record back. -/
def StorageCall.isUpdate : StorageCall → Bool
  | .updateOrg _ | .updateToken _ | .updateSink _ | .updateIdp _ => true
  | _ => false

/-- The call creates the record. -/
def StorageCall.Creates (r : RecordId) (c : StorageCall) : Prop :=
  c.isUpdate = false ∧ c.writes = some (r.table, r.key)

/-- A record that is written back is still there. -/
def StorageCall.UpdatesStored (c : StorageCall) (s : Redb) : Prop :=
  c.isUpdate = true → ∀ T key, c.writes = some (T, key) → s.uses key T = true

/-- Once a deletion has returned `Ok`, and as long as the record is not created again, the
record is not found. -/
def DeletionFinal {G : Type} (P : Pool Storage Error Redb (Outcome G)) (l : Schedule G) : Prop :=
  ∀ (r : RecordId) (mgr : TenantManager G) i l₁ l₂ l₃, l = l₁ ++ .step i :: (l₂ ++ l₃) →
    (P.acts Redb.exec l₁).threads[i]? = some (r.deleteOp.prog mgr) →
    (P.acts Redb.exec (l₁ ++ [.step i])).threads[i]? = some (.done (.ok .unit)) →
    Pool.Always Redb.exec (Pool.Makes fun c _ => ¬ c.Creates r) (P.acts Redb.exec (l₁ ++ [.step i]))
      l₂ →
    ((r.getOp.prog mgr).run Redb.exec (P.acts Redb.exec (l₁ ++ .step i :: l₂)).store).1 =
      .error r.notFound

namespace RecordId

/-- The deletion is one call, after which the record is gone. -/
theorem delete_step {G : Type} (r : RecordId) (mgr : TenantManager G)
    {P : Pool Storage Error Redb (Outcome G)} {i : ℕ}
    (hi : P.threads[i]? = some (r.deleteOp.prog mgr)) :
    (P.act Redb.exec (.step i)).store.uses r.key r.table = false := by
  have hgone : ∀ {V : Type} (t : Table String V) k, (t.erase k)[k]?.isSome = false := by
    intro V t k
    rw [Table.get_erase, if_pos rfl]
    rfl
  cases r
  all_goals
    rw [Pool.act_step_call hi]
    exact hgone _ _

/-- A record that is not there is not found. -/
theorem get_notFound {G : Type} (r : RecordId) (mgr : TenantManager G) {s : Redb}
    (h : s.uses r.key r.table = false) :
    ((r.getOp.prog mgr).run Redb.exec s).1 = .error r.notFound := by
  cases r
  all_goals
    have hnone := Option.isSome_eq_false_iff.mp h
    simp only [Option.isNone_iff_eq_none, key] at hnone
    simp only [getOp, ManagerOp.prog, TenantManager.getOrg, TenantManager.getToken,
      TenantManager.getSink, TenantManager.getIdp, Prog.map, Prog.bind_assoc, run_store_bind,
      Redb.exec, hnone, Prog.next_ok, Prog.run_okOrElse_bind, Option.elim_none]
    rfl

/-- A record that is not there stays away, unless it is created or written back. -/
theorem uses_act {G : Type} {r : RecordId} {P : Pool Storage Error Redb (Outcome G)}
    {a : Act Storage Error (Outcome G)} (h : P.store.uses r.key r.table = false)
    (hup : Pool.Makes StorageCall.UpdatesStored P a)
    (hnew : Pool.Makes (fun (c : StorageCall) _ => ¬ c.Creates r) P a) :
    (P.act Redb.exec a).store.uses r.key r.table = false := by
  rcases Pool.act_store_cases Redb.exec P a with ⟨hstore, -⟩ | ⟨c, hstore, hmakes⟩
  · rwa [hstore]
  · rw [hstore, Bool.eq_false_iff]
    intro hu
    have hup := (hmakes _).mp hup
    have hnew := (hmakes _).mp hnew
    rcases uses_exec hu with hu | hw
    · rw [h] at hu
      cases hu
    · cases hc : c.isUpdate with
      | true =>
        rw [hup hc _ _ hw] at h
        cases h
      | false => exact hnew ⟨hc, hw⟩

end RecordId

/-- **Deletions are final in every run in which only records are written back that are still
there.** -/
theorem deletion_final {G : Type} {P : Pool Storage Error Redb (Outcome G)} {l : Schedule G}
    (h : Pool.Always Redb.exec (Pool.Makes StorageCall.UpdatesStored) P l) :
    DeletionFinal P l := by
  intro r mgr i l₁ l₂ l₃ heq hi _ hnew
  subst heq
  rw [show l₁ ++ Act.step i :: (l₂ ++ l₃) = (l₁ ++ [.step i]) ++ (l₂ ++ l₃) by simp] at h
  have hup := (Pool.always_append.mp (Pool.always_append.mp h).2).1
  have hgone : (P.acts Redb.exec (l₁ ++ [.step i])).store.uses r.key r.table = false := by
    rw [Pool.acts_append]
    exact r.delete_step mgr hi
  have hstays : (P.acts Redb.exec (l₁ ++ .step i :: l₂)).store.uses r.key r.table = false := by
    rw [show l₁ ++ Act.step i :: l₂ = (l₁ ++ [.step i]) ++ l₂ by simp, Pool.acts_append]
    refine (hup.and hnew).inv (J := fun P => P.store.uses r.key r.table = false) ?_ hgone
    exact fun P a _ hJ hcond => RecordId.uses_act hJ hcond.1 hcond.2
  exact r.get_notFound mgr hstays

/-- A store with one organization and one sink. -/
def oneSinkStore : Redb :=
  let made := (TenantManager.createOrg 1 "acme" "Acme").run Redb.exec .empty
  ((TenantManager.createSink (.replicate 8 7) 2 "acme" (.webhook "https://hooks.example")).run
    Redb.exec made.2).2

/-- A sink that is deleted, and toggled after that. -/
theorem deletion_final_serial :
    (((ManagerOp.getSink "acme" "0707070707070707").prog seedManager).run Redb.exec
      (Pool.acts Redb.exec ⟨oneSinkStore, []⟩
        [.start ((ManagerOp.deleteSink "acme" "0707070707070707").prog seedManager), .step 0,
          .start ((ManagerOp.toggleSink "acme" "0707070707070707" false).prog seedManager),
          .step 1]).store).1 =
      .error "Sink '0707070707070707' not found in org 'acme'" := by
  refine deletion_final (l := [.start _, .step 0, .start _, .step 1]) ?_
    (.sink "acme" "0707070707070707") seedManager 0 [.start _] [.start _, .step 1] [] rfl rfl rfl ?_
  · refine ⟨?_, ?_, ?_, ?_, trivial⟩
    · rintro i c k ⟨⟩
    · rintro i c k ⟨⟩ ⟨⟩ ⟨⟩
    · rintro i c k ⟨⟩
    · rintro i c k ⟨⟩ ⟨⟩ ⟨⟩
  · refine ⟨?_, ?_, trivial⟩
    · rintro i c k ⟨⟩
    · rintro i c k ⟨⟩ ⟨⟩ ⟨-, ⟨⟩⟩

/-- **A deleted sink comes back** if it was read before, to be toggled. -/
theorem deletion_undone :
    ¬ ∀ l : Schedule Bytes, (∀ p, Act.start p ∈ l → IsGatewayProgram Bytes p) →
      DeletionFinal ⟨oneSinkStore, []⟩ l := by
  intro h
  have hfound := h
    [.start ((ManagerOp.toggleSink "acme" "0707070707070707" false).prog seedManager), .step 0,
      .start ((ManagerOp.deleteSink "acme" "0707070707070707").prog seedManager), .step 1,
      .step 0] ?_ (.sink "acme" "0707070707070707") seedManager 1 [.start _, .step 0, .start _]
    [.step 0] [] rfl rfl rfl ⟨?_, trivial⟩
  · revert hfound
    decide +kernel
  · simp only [Act.forall_start_start, Act.forall_start_step, Act.forall_start_nil]
    exact ⟨.program (.op _ _), .program (.op _ _), trivial⟩
  · rintro i c k ⟨⟩ ⟨⟩ ⟨⟨⟩, -⟩

end PeatGateway
