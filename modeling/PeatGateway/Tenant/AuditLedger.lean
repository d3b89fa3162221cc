import PeatGateway.Lib.Ledger
import PeatGateway.Storage.AuditLog
import PeatGateway.Storage.Open
import PeatGateway.Tenant.Validate

/-!
# The log as a ledger

On either backend an entry gets into the log by being appended and in no other way, a listing is
of entries in the log, no entry is listed twice, and all that are listed for an organization are
its own.

## Main definitions

* `auditLedger` — the log, with the call that adds to it and the one that lists it.
* `AnyStore.LogInOrder` — organizations and entries lie under their own keys.
* `logSpec` — the calls that keep the log in order, and what is found in it.

## Main results

* `logSpec_sound` — **the log stays in order**.
* `auditLedger_sound` — **the log is a ledger**.
-/

namespace PeatGateway

open Effect Text

/-! ### The log -/

/-- The log holds the entry. -/
def AnyStore.HasEntry : AnyStore → EnrollmentAuditEntry → Prop
  | .redb s, e => Table.Has s.audit e
  | .postgres s, e => ∃ row, Rows.Has s.audit row ∧ row.data = e

/-- The log as a ledger. -/
def auditLedger : Ledger Storage AnyStore EnrollmentAuditEntry where
  holds := AnyStore.HasEntry
  adds
    | .appendAudit e => some e
    | _ => none
  lists
    | .listAudit _ _ _, entries => entries
    | _, _ => []

/-- Organizations lie under their ids, which are identifiers, and entries under theirs. -/
def AnyStore.LogInOrder : AnyStore → Prop
  | .redb s => s.orgs.Forall (fun k o => IsIdentifier k ∧ o.orgId = k) ∧ AuditTable s.audit
  | .postgres s => (∀ k o, s.orgs.select k = some o → IsIdentifier k ∧ o.orgId = k) ∧
    ∀ k row, s.audit.select k = some row →
      k = (row.data.orgId, row.data.auditId) ∧ row.appId = row.data.appId

/-- The calls that keep the log in order. -/
def logPre : StorageCall → Prop
  | .createOrg org | .updateOrg org => IsIdentifier org.orgId
  | .appendAudit e => IsIdentifier e.orgId
  | _ => True

/-- What is found in the log. -/
def logPost : (c : StorageCall) → c.Res → Prop
  | .getOrg orgId, r => ∀ o, r = some o → IsIdentifier orgId ∧ o.orgId = orgId
  | .listAudit orgId appId _, r => IsIdentifier orgId →
    ∀ e ∈ r, e.orgId = orgId ∧ ∀ a, appId = some a → e.appId = a
  | _, _ => True

/-- The specification of programs that keep the log in order. -/
def logSpec : Spec Storage := ⟨logPre, logPost⟩

theorem AnyStore.logInOrder_empty :
    (AnyStore.redb .empty).LogInOrder ∧ (AnyStore.postgres .empty).LogInOrder := by
  refine ⟨⟨Table.forall_empty _, auditTable_empty⟩, ?_, ?_⟩
  · intro k o ho
    cases ho
  · intro k row hrow
    cases hrow

/-! ### On redb -/

section Redb

variable {s : Redb}

theorem Redb.listAudit_sublist (s : Redb) (orgId : String) (appId : Option String)
    (limit : UInt64) : (s.listAudit orgId appId limit).Sublist
      ((s.audit.toList.reverse.filter (auditMatch orgId appId)).map Prod.snd) := by
  rw [listAudit_eq]
  exact List.take_sublist _ _

/-- What a listing finds is in the log, and nothing is found twice. -/
theorem Redb.listAudit_found (hs : AuditTable s.audit) (orgId : String) (appId : Option String)
    (limit : UInt64) : (s.listAudit orgId appId limit).Nodup ∧
      ∀ e ∈ s.listAudit orgId appId limit, Table.Has s.audit e := by
  have hsub := s.listAudit_sublist orgId appId limit
  have hrow : ∀ row ∈ s.audit.toList.reverse.filter (auditMatch orgId appId),
      s.audit[row.1]? = some row.2 := by
    intro row hrow
    have hmem := List.mem_reverse.mp (List.mem_filter.mp hrow).1
    exact Std.ExtTreeMap.mem_toList_iff_getElem?_eq_some.mp hmem
  constructor
  · refine List.Nodup.sublist hsub (List.Nodup.map_on ?_ ?_)
    · -- the key of a row is that of its entry
      intro row hr row' hr' heq
      have hkey := hs.key _ _ (hrow row hr)
      have hkey' := hs.key _ _ (hrow row' hr')
      refine Prod.ext ?_ heq
      rw [hkey, hkey', heq]
    · exact (List.nodup_reverse.mpr (Table.nodup_toList s.audit)).filter _
  · intro e he
    obtain ⟨row, hr, rfl⟩ := List.mem_map.mp (hsub.subset he)
    exact ⟨row.1, hrow row hr⟩

theorem Redb.logSpec_sound {c : StorageCall} (hs : (AnyStore.redb s).LogInOrder)
    (hc : logPre c) : (AnyStore.redb (Redb.exec c s).2).LogInOrder ∧
      ∀ x, (Redb.exec c s).1 = .ok x → logPost c x := by
  obtain ⟨horgs, haudit⟩ := hs
  have haudit' : AuditTable (Redb.exec c s).2.audit := by
    apply haudit.exec
    rintro e rfl
    have hid : IsIdentifier e.orgId := hc
    exact hid.nulFree
  cases c with
  | createOrg org | updateOrg org =>
    exact ⟨⟨horgs.insert ⟨hc, rfl⟩, haudit'⟩, fun _ _ => trivial⟩
  | deleteOrg orgId => exact ⟨⟨horgs.erase _, haudit'⟩, fun _ _ => trivial⟩
  | getOrg orgId =>
    refine ⟨⟨horgs, haudit'⟩, ?_⟩
    rintro _ ⟨⟩ o ho
    exact horgs _ _ ho
  | listAudit orgId appId limit =>
    refine ⟨⟨horgs, haudit'⟩, ?_⟩
    rintro _ ⟨⟩ hid e he
    obtain ⟨row, hrow, rfl⟩ := List.mem_map.mp ((s.listAudit_sublist _ _ _).subset he)
    obtain ⟨hmem, hmatch⟩ := List.mem_filter.mp hrow
    exact (Redb.auditMatch_iff haudit hid.nulFree (List.mem_reverse.mp hmem)).mp hmatch
  | _ => exact ⟨⟨horgs, haudit'⟩, fun _ _ => trivial⟩

end Redb

/-! ### On Postgres -/

section Postgres

variable {s : Postgres}

/-- What a query of the log finds is there, and nothing is found twice. -/
theorem Postgres.listAudit_found (hs : (AnyStore.postgres s).LogInOrder) {orgId : String}
    {appId : Option String} {limit : UInt64} {entries : List EnrollmentAuditEntry}
    (h : s.listAudit orgId appId limit = .ok entries) :
    entries.Nodup ∧ ∀ e ∈ entries, (AnyStore.postgres s).HasEntry e ∧ e.orgId = orgId ∧
      ∀ a, appId = some a → e.appId = a := by
  unfold Postgres.listAudit at h
  split at h
  · cases h
  have hsub : entries.Sublist ((s.auditRows orgId appId).map AuditRow.data) := by
    rw [← Except.ok.inj h]
    exact (List.take_sublist _ _).map _
  let found := s.audit.rows.filter fun r => r.1.1 == orgId && appId.all (r.2.appId == ·)
  have hperm : ((s.auditRows orgId appId).map AuditRow.data).Perm
      (found.map fun r => r.2.data) := by
    have hsorted := List.perm_insertionSort (fun a b : AuditRow => b.timestampMs ≤ a.timestampMs)
      (found.map Prod.snd)
    have hdata := hsorted.map AuditRow.data
    rwa [List.map_map] at hdata
  have hkey : ∀ r ∈ found, s.audit.select r.1 = some r.2 ∧
      r.1 = (r.2.data.orgId, r.2.data.auditId) ∧ r.2.appId = r.2.data.appId := by
    intro r hr
    have hrow := Rows.mem_rows.mp (List.mem_filter.mp hr).1
    exact ⟨hrow, hs.2 _ _ hrow⟩
  constructor
  · refine List.Nodup.sublist hsub (hperm.nodup_iff.mpr (List.Nodup.map_on ?_ ?_))
    · -- the key of a row is that of its entry
      intro r hr r' hr' heq
      obtain ⟨hrow, hids, -⟩ := hkey r hr
      obtain ⟨hrow', hids', -⟩ := hkey r' hr'
      have hsame : r.1 = r'.1 := by rw [hids, hids', heq]
      rw [hsame] at hrow
      exact Prod.ext hsame (Option.some.inj (hrow.symm.trans hrow'))
    · exact (List.Nodup.of_map _ s.audit.nodup).filter _
  · intro e he
    obtain ⟨r, hr, rfl⟩ := List.mem_map.mp (hperm.mem_iff.mp (hsub.subset he))
    obtain ⟨hrow, hids, happ⟩ := hkey r hr
    have hmatch := (List.mem_filter.mp hr).2
    rw [Bool.and_eq_true, beq_iff_eq, hids, Option.all_eq_true, happ] at hmatch
    refine ⟨⟨r.2, ⟨r.1, hrow⟩, rfl⟩, hmatch.1, ?_⟩
    intro a ha
    exact beq_iff_eq.mp (hmatch.2 a ha)

theorem Postgres.logSpec_sound {c : StorageCall} (hs : (AnyStore.postgres s).LogInOrder)
    (hc : logPre c) : (AnyStore.postgres (Postgres.exec c s).2).LogInOrder ∧
      ∀ x, (Postgres.exec c s).1 = .ok x → logPost c x := by
  obtain ⟨horgs, haudit⟩ := hs
  cases c with
  | createOrg org =>
    refine ⟨commit_ind (Q := fun s => (AnyStore.postgres s).LogInOrder) ⟨horgs, haudit⟩ ?_,
      fun _ _ => trivial⟩
    intro t ht
    split at ht
    · cases ht
    · next t' hins =>
      obtain rfl := Except.ok.inj ht
      refine ⟨?_, haudit⟩
      intro k o ho
      rw [Rows.select_insert hins] at ho
      split at ho
      · next heq =>
        obtain rfl := Option.some.inj ho
        exact ⟨heq ▸ hc, heq⟩
      · exact horgs k o ho
  | updateOrg org =>
    refine ⟨⟨?_, haudit⟩, fun _ _ => trivial⟩
    intro k o ho
    simp only [Postgres.exec, Rows.select_update] at ho
    split at ho
    · next heq =>
      obtain ⟨_, -, rfl⟩ := Option.map_eq_some_iff.mp ho
      exact ⟨heq ▸ hc, heq⟩
    · exact horgs k o ho
  | deleteOrg orgId =>
    refine ⟨?_, fun _ _ => trivial⟩
    simp only [Postgres.exec]
    split
    · refine ⟨?_, ?_⟩
      · intro k o ho
        simp only [Postgres.deleteOrg, Rows.select_delete] at ho
        split at ho
        · cases ho
        · exact horgs k o ho
      · intro k row hrow
        simp only [Postgres.deleteOrg, Rows.select_deleteWhere] at hrow
        split at hrow
        · cases hrow
        · exact haudit k row hrow
    · exact ⟨horgs, haudit⟩
  | appendAudit e =>
    refine ⟨commit_ind (Q := fun s => (AnyStore.postgres s).LogInOrder) ⟨horgs, haudit⟩ ?_,
      fun _ _ => trivial⟩
    intro t ht
    refine ⟨horgs, ?_⟩
    intro k row hrow
    rw [Rows.select_insert (insertChild_eq_ok ht).1] at hrow
    split at hrow
    · next heq =>
      obtain rfl := Option.some.inj hrow
      exact ⟨heq.symm, rfl⟩
    · exact haudit k row hrow
  | getOrg orgId =>
    refine ⟨⟨horgs, haudit⟩, ?_⟩
    rintro _ ⟨⟩ o ho
    exact horgs _ _ ho
  | listAudit orgId appId limit =>
    refine ⟨⟨horgs, haudit⟩, ?_⟩
    intro entries hentries _ e he
    exact ((listAudit_found ⟨horgs, haudit⟩ hentries).2 e he).2
  -- the others leave organizations and the log alone
  | createFormation | createToken | createSink | createIdp | createPolicyRule | storeGenesis |
      setCursor =>
    exact ⟨commit_ind (Q := fun s => (AnyStore.postgres s).LogInOrder) ⟨horgs, haudit⟩
      fun _ _ => ⟨horgs, haudit⟩, fun _ _ => trivial⟩
  | _ => exact ⟨⟨horgs, haudit⟩, fun _ _ => trivial⟩

end Postgres

/-- **Calls that keep the log in order.** -/
theorem logSpec_sound : logSpec.Sound AnyStore.exec AnyStore.LogInOrder := by
  intro c st hst hc
  cases st with
  | redb s => exact Redb.logSpec_sound hst hc
  | postgres s => exact Postgres.logSpec_sound hst hc

/-- **The log is a ledger**: entries get into it by being appended. -/
theorem auditLedger_sound : auditLedger.Sound AnyStore.exec AnyStore.LogInOrder where
  holds c st _ e he := by
    cases st with
    | redb s =>
      cases c with
      | appendAudit e' =>
        rcases Table.Has.of_insert he with hold | rfl
        · exact Or.inl hold
        · exact Or.inr rfl
      | deleteOrg orgId => exact Or.inl (Table.Has.of_removeAll he)
      | _ => exact Or.inl he
    | postgres s =>
      cases c with
      | appendAudit e' =>
        simp only [AnyStore.exec, Postgres.exec, Postgres.commit] at he
        split at he
        · next t ht =>
          obtain ⟨row, hrow, rfl⟩ := he
          rcases Rows.Has.of_insert (Postgres.insertChild_eq_ok ht).1 hrow with hold | rfl
          · exact Or.inl ⟨row, hold, rfl⟩
          · exact Or.inr rfl
        · exact Or.inl he
      | deleteOrg orgId =>
        simp only [AnyStore.exec, Postgres.exec] at he
        split at he
        · obtain ⟨row, hrow, rfl⟩ := he
          exact Or.inl ⟨row, Rows.Has.of_deleteWhere hrow, rfl⟩
        · exact Or.inl he
      | createOrg | createFormation | createToken | createSink | createIdp | createPolicyRule |
          storeGenesis | setCursor =>
        simp only [AnyStore.exec, Postgres.exec, Postgres.commit] at he
        split at he <;> exact Or.inl he
      | _ => exact Or.inl he
  lists c st hst x hx := by
    cases c with
    | listAudit orgId appId limit =>
      cases st with
      | redb s =>
        obtain rfl := Except.ok.inj hx
        exact Redb.listAudit_found hst.2 orgId appId limit
      | postgres s =>
        obtain ⟨hnodup, hfound⟩ := Postgres.listAudit_found hst hx
        exact ⟨hnodup, fun e he => (hfound e he).1⟩
    | _ =>
      refine ⟨List.nodup_nil, ?_⟩
      intro e he
      cases he

end PeatGateway
