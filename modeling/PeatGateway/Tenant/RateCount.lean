import PeatGateway.Storage.Open
import PeatGateway.Tenant.Keyed

/-!
# Counting recent enrollments

The rate limit asks the store for all entries of the log of an organization, with the
largest limit there is.  On redb the limit bounds a loop; on Postgres it is cast to a
signed parameter of the query, where it becomes `-1`.

## Main definitions

* `AnyStore.log` — the entries of the log.
* `AnyStore.LogOk` — the log as appending leaves it.

## Main results

* `logOk_appendAudit` — appending keeps the log so.
* `countRecentEnrollments_iff` — **the count is right on redb, and only there**.
-/

namespace PeatGateway

open Effect Text

/-- All entries of the log. -/
def AnyStore.log : AnyStore → List EnrollmentAuditEntry
  | .redb s => s.audit.toList.map Prod.snd
  | .postgres s => s.audit.rows.map fun r => r.2.data

/-- The log as appending leaves it: entries lie under their own keys, the organizations
they name are free of NUL, as identifiers are, and a `usize` can count them. -/
def AnyStore.LogOk (st : AnyStore) : Prop :=
  st.log.length < 2 ^ 64 ∧ (∀ e ∈ st.log, Free '\x00' e.orgId) ∧
    match st with
    | .redb s => s.audit.Forall fun k e => k = auditKey e.orgId e.timestampMs e.auditId
    | .postgres s => ∀ r ∈ s.audit.rows, r.1 = (r.2.data.orgId, r.2.data.auditId) ∧
        r.2.appId = r.2.data.appId ∧ r.2.timestampMs = r.2.data.timestampMs.toInt64

/-- The number of entries of an organization from a time on. -/
def AnyStore.countSince (st : AnyStore) (orgId : String) (sinceMs : UInt64) : ℕ :=
  st.log.countP fun e => e.orgId == orgId && e.timestampMs ≥ sinceMs

/-- Appending keeps the log so, as long as it can be counted. -/
theorem logOk_appendAudit {st : AnyStore} (h : st.LogOk) {e : EnrollmentAuditEntry}
    (he : Free '\x00' e.orgId) (hlen : st.log.length + 1 < 2 ^ 64) :
    (AnyStore.exec (.appendAudit e) st).2.LogOk := by
  cases st with
  | redb s =>
    obtain ⟨-, hfree, hkey⟩ := h
    refine ⟨?_, ?_, hkey.insert rfl⟩
    · refine lt_of_le_of_lt ?_ hlen
      simp only [AnyStore.exec, Redb.exec, AnyStore.log, List.length_map,
        Std.ExtTreeMap.length_toList]
      -- An entry under a used key replaces another.
      exact Std.ExtTreeMap.size_insert_le
    · intro e' he'
      obtain ⟨⟨k, e''⟩, hmem, rfl⟩ := List.mem_map.mp he'
      rw [Std.ExtTreeMap.mem_toList_iff_getElem?_eq_some] at hmem
      simp only [Redb.exec, Table.get_insert] at hmem
      split at hmem
      · exact Option.some.inj hmem ▸ he
      · exact hfree e'' (List.mem_map.mpr
          ⟨(k, e''), Std.ExtTreeMap.mem_toList_iff_getElem?_eq_some.mpr hmem, rfl⟩)
  | postgres s =>
    obtain ⟨hlt, hfree, hkey⟩ := h
    simp only [AnyStore.exec, Postgres.exec, Postgres.commit]
    split
    · next t ht =>
      have hrows : t.rows = s.audit.rows ++ [((e.orgId, e.auditId),
          ⟨e.appId, e.timestampMs.toInt64, e⟩)] :=
        Rows.rows_insert (Postgres.insertChild_eq_ok ht).1
      refine ⟨?_, ?_, ?_⟩
      · simpa [AnyStore.log, hrows] using hlen
      · simp only [AnyStore.log, hrows, List.map_append, List.mem_append]
        rintro e' (he' | he')
        · exact hfree e' he'
        · simp only [List.map_cons, List.map_nil, List.mem_singleton] at he'
          exact he' ▸ he
      · simp only [hrows, List.mem_append, List.mem_singleton]
        rintro r (hr | rfl)
        · exact hkey r hr
        · exact ⟨rfl, rfl, rfl⟩
    · exact ⟨hlt, hfree, hkey⟩

/-- On redb the entries of an organization are those under its keys. -/
theorem scan_audit {s : Redb} (hs : (AnyStore.redb s).LogOk) {orgId : String}
    (horg : Free '\x00' orgId) :
    s.audit.scan (belongsTo orgId) = (AnyStore.redb s).log.filter fun e => e.orgId == orgId := by
  obtain ⟨-, hid, hkey⟩ := hs
  rw [Table.scan, AnyStore.log, List.filter_map]
  refine congrArg (List.map Prod.snd) (List.filter_congr ?_)
  rintro ⟨k, e⟩ hmem
  have hk := hkey k e (Std.ExtTreeMap.mem_toList_iff_getElem?_eq_some.mp hmem)
  have he := hid e (List.mem_map.mpr ⟨_, hmem, rfl⟩)
  rw [Bool.eq_iff_iff, Function.comp_apply, beq_iff_eq, hk]
  exact startsWith_glue he horg

/-- **The count of recent enrollments is right on redb, and only there.**  On Postgres the
limit is negative, and the query is rejected whatever the log holds. -/
theorem countRecentEnrollments_iff {st : AnyStore} (hst : st.LogOk) {orgId : String}
    (horg : Free '\x00' orgId) (sinceMs : UInt64) :
    ((TenantManager.countRecentEnrollments orgId sinceMs).run AnyStore.exec st).1 =
      .ok (st.countSince orgId sinceMs) ↔ st.isRedb = true := by
  cases st with
  | redb s =>
    refine iff_of_true ?_ rfl
    rw [AnyStore.run_redb]
    have hscan := scan_audit hst horg
    have hlen : (s.audit.scan (belongsTo orgId)).length < 2 ^ 64 := by
      rw [hscan]
      exact lt_of_le_of_lt (List.length_filter_le _ _) hst.1
    change Except.ok (List.filter _ (s.listAudit orgId none 0xFFFFFFFFFFFFFFFF)).length = _
    rw [Redb.listAudit_max hlen, hscan, List.filter_reverse, List.length_reverse,
      List.filter_filter, ← List.countP_eq_length_filter, AnyStore.countSince]
    refine congrArg Except.ok (List.countP_congr ?_)
    intro e _
    rw [Bool.and_comm]
  | postgres s =>
    refine iff_of_false ?_ Bool.false_ne_true
    rw [AnyStore.run_postgres]
    rintro ⟨⟩

/-- One recent enrollment, counted on redb. -/
theorem countRecentEnrollments_redb :
    ((TenantManager.countRecentEnrollments "a" 5).run AnyStore.exec
      (AnyStore.exec (.appendAudit ⟨"1", "a", "app", "", "", .denied "", 7⟩) (.redb .empty)).2).1 =
      .ok 1 := by
  have hempty : (AnyStore.redb .empty).LogOk :=
    ⟨by decide, fun e he => absurd he List.not_mem_nil, Table.forall_empty _⟩
  have hlog := logOk_appendAudit (e := ⟨"1", "a", "app", "", "", .denied "", 7⟩) hempty
    (by decide) (by decide)
  exact (countRecentEnrollments_iff hlog (by decide) 5).mpr rfl

/-- **On Postgres even the empty log cannot be counted.** -/
theorem countRecentEnrollments_postgres :
    ((TenantManager.countRecentEnrollments "a" 0).run AnyStore.exec (.postgres .empty)).1 =
      .error "error returned from database: LIMIT must not be negative" ∧
    ¬ ∀ (st : AnyStore), st.LogOk → ∀ orgId sinceMs, Free '\x00' orgId →
      ((TenantManager.countRecentEnrollments orgId sinceMs).run AnyStore.exec st).1 =
        .ok (st.countSince orgId sinceMs) := by
  refine ⟨rfl, ?_⟩
  intro h
  have hempty : (AnyStore.postgres .empty).LogOk :=
    ⟨by decide, fun e he => absurd he List.not_mem_nil, fun r hr => absurd hr List.not_mem_nil⟩
  cases h _ hempty "a" 0 (by decide)

end PeatGateway
