import PeatGateway.Lib.Order
import PeatGateway.Storage.Redb

/-!
# The log of enrollments on redb

The key of an entry holds the time in twenty digits, as many as the largest time needs, so the
entries of an organization lie in the order of their times and ids.  Walking over the table from
its end finds the newest entries first.  The loop looks at the limit after it has taken an entry,
and so takes one even if the limit is zero.

## Main definitions

* `AuditTable` — the table as appending leaves it.
* `Earlier` — the order of time, and then of ids.
* `Redb.IsLog` — the entries of an organization that match a filter, newest first.

## Main results

* `auditKey_order` — **keys are ordered by time, and then by id**, and so is what a scan finds.
* `listAudit_iff` — **a listing is exact unless the limit is zero**.
-/

namespace PeatGateway

open Text

/-! ### Keys -/

/-- The digits of a time. -/
theorem toList_pad20 (n : UInt64) :
    (pad20 n).toList = List.leftpad 20 '0' (Nat.toDigits 10 n.toNat) := by
  rw [pad20, String.toList_ofList]

/-- **Twenty digits are enough.** -/
theorem length_pad20 (n : UInt64) : (pad20 n).toList.length = 20 := by
  have hn : n.toNat < 10 ^ 20 := lt_trans n.toNat_lt (by decide)
  have hlen : (Nat.toDigits 10 n.toNat).length ≤ 20 :=
    (Nat.length_toDigits_le_iff (by decide) (by decide)).mpr hn
  rw [toList_pad20, List.length_leftpad]
  omega

theorem isDigit_pad20 (n : UInt64) : ∀ c ∈ (pad20 n).toList, c.isDigit = true := by
  intro c hc
  rw [toList_pad20, List.leftpad, List.mem_append] at hc
  rcases hc with hc | hc
  · rw [List.eq_of_mem_replicate hc]
    rfl
  · exact Nat.isDigit_of_mem_toDigits (by decide) (by decide) hc

/-- **Times are ordered as they are written.** -/
theorem pad20_lt_pad20_iff {m n : UInt64} : pad20 m < pad20 n ↔ m < n := by
  have hlen : (pad20 m).toList.length = (pad20 n).toList.length := by
    rw [length_pad20, length_pad20]
  rw [String.lt_iff, lt_iff_ofDigitChars_lt hlen (isDigit_pad20 m) (isDigit_pad20 n),
    toList_pad20, toList_pad20, ofDigitChars_leftpad, ofDigitChars_leftpad,
    Nat.ofDigitChars_ten_toDigits, Nat.ofDigitChars_ten_toDigits, UInt64.lt_iff_toNat_lt]

theorem pad20_inj {m n : UInt64} : pad20 m = pad20 n ↔ m = n := by
  constructor
  · intro h
    have hmn : ¬ m < n := fun hlt => (lt_irrefl _) (h ▸ pad20_lt_pad20_iff.mpr hlt)
    have hnm : ¬ n < m := fun hlt => (lt_irrefl _) (h ▸ pad20_lt_pad20_iff.mpr hlt)
    exact UInt64.le_antisymm (UInt64.not_lt.mp hnm) (UInt64.not_lt.mp hmn)
  · intro h
    rw [h]

/-- A time is written in digits. -/
theorem free_pad20 (n : UInt64) : Free '\x00' (pad20 n) := by
  intro hmem
  have hdigit := isDigit_pad20 n _ hmem
  revert hdigit
  decide

/-- Entries under one key have one time and one id. -/
theorem auditKey_inj {orgId i i' : String} {t t' : UInt64}
    (h : auditKey orgId t i = auditKey orgId t' i') : t = t' ∧ i = i' := by
  have hparts := glue_inj (free_pad20 t) (free_pad20 t') (glue_cancel h)
  exact ⟨pad20_inj.mp hparts.1, hparts.2⟩

/-- The organization is told from the key too, if it has no NUL. -/
theorem auditKey_inj_of_free {orgId orgId' i i' : String} {t t' : UInt64}
    (ho : Free '\x00' orgId) (ho' : Free '\x00' orgId')
    (h : auditKey orgId t i = auditKey orgId' t' i') : orgId = orgId' ∧ t = t' ∧ i = i' := by
  obtain ⟨rfl, -⟩ := glue_inj ho ho' h
  exact ⟨rfl, auditKey_inj h⟩

/-- The keys of an organization are ordered by time, and then by id. -/
theorem auditKey_lt_auditKey_iff {orgId i i' : String} {t t' : UInt64} :
    auditKey orgId t i < auditKey orgId t' i' ↔ t < t' ∨ t = t' ∧ i < i' := by
  have hlen : (pad20 t).toList.length = (pad20 t').toList.length := by
    rw [length_pad20, length_pad20]
  have hparts : nulKey (pad20 t) i < nulKey (pad20 t') i' ↔
      pad20 t < pad20 t' ∨ pad20 t = pad20 t' ∧ i < i' := by
    rw [nulKey, nulKey, String.lt_iff, toList_glue, toList_glue,
      append_lt_append_iff_of_length hlen, List.cons_lt_cons_self, String.toList_inj,
      ← String.lt_iff, ← String.lt_iff]
  have htimes : pad20 t < pad20 t' ∨ pad20 t = pad20 t' ∧ i < i' ↔ t < t' ∨ t = t' ∧ i < i' :=
    or_congr pad20_lt_pad20_iff (and_congr_left' pad20_inj)
  exact glue_lt_glue.trans (hparts.trans htimes)

/-! ### The table -/

/-- A table is walked in the order of the bytes of its keys. -/
theorem pairwise_toList {V : Type} (t : Table String V) :
    t.toList.Pairwise fun x y => utf8 x.1 < utf8 y.1 := by
  apply (Std.ExtTreeMap.ordered_keys_toList (t := t)).imp
  intro x y hlt
  exact utf8_lt_utf8_iff.mpr (compare_lt_iff_lt.mp hlt)

/-- The table of the log as appending leaves it: entries lie under their own keys, and the
organizations they name are free of NUL, as identifiers are. -/
structure AuditTable (t : Table String EnrollmentAuditEntry) : Prop where
  key : t.Forall fun k e => k = auditKey e.orgId e.timestampMs e.auditId
  nulFree : t.Forall fun _ e => Free '\x00' e.orgId

theorem auditTable_empty : AuditTable ∅ := ⟨Table.forall_empty _, Table.forall_empty _⟩

/-- Appending an entry keeps the table so, as all other calls to the store do. -/
theorem AuditTable.exec {s : Redb} (h : AuditTable s.audit) {c : StorageCall}
    (hc : ∀ e, c = .appendAudit e → Free '\x00' e.orgId) :
    AuditTable (Redb.exec c s).2.audit := by
  cases c with
  | appendAudit e => exact ⟨h.key.insert rfl, h.nulFree.insert (hc e rfl)⟩
  | deleteOrg orgId => exact ⟨h.key.removeAll _, h.nulFree.removeAll _⟩
  | _ => exact h

/-- The order of the log: by time, and entries of one time by the bytes of their ids. -/
def Earlier (e e' : EnrollmentAuditEntry) : Prop :=
  e.timestampMs < e'.timestampMs ∨
    e.timestampMs = e'.timestampMs ∧ utf8 e.auditId < utf8 e'.auditId

/-- No entry comes both before and after another. -/
theorem Earlier.asymm {e e' : EnrollmentAuditEntry} (h : Earlier e e') : ¬ Earlier e' e := by
  intro h'
  rcases h with hlt | ⟨heq, hlt⟩ <;> rcases h' with hlt' | ⟨heq', hlt'⟩
  · exact UInt64.lt_asymm hlt hlt'
  · exact UInt64.lt_irrefl _ (heq' ▸ hlt)
  · exact UInt64.lt_irrefl _ (heq ▸ hlt')
  · exact List.lt_asymm hlt hlt'

/-- Keys of one organization are ordered as their entries are. -/
theorem earlier_iff {e e' : EnrollmentAuditEntry} (horg : e.orgId = e'.orgId) :
    Earlier e e' ↔ auditKey e.orgId e.timestampMs e.auditId <
      auditKey e'.orgId e'.timestampMs e'.auditId := by
  rw [horg, auditKey_lt_auditKey_iff, Earlier, utf8_lt_utf8_iff]

/-- The rows of an organization lie in the order of the log. -/
theorem pairwise_earlier {t : Table String EnrollmentAuditEntry}
    (ht : t.Forall fun k e => k = auditKey e.orgId e.timestampMs e.auditId) (orgId : String) :
    (t.toList.filter fun kv => kv.2.orgId == orgId).Pairwise fun x y => Earlier x.2 y.2 := by
  apply ((pairwise_toList t).filter _).imp_of_mem
  intro x y hx hy hlt
  simp only [List.mem_filter, beq_iff_eq] at hx hy
  have hkx : x.1 = auditKey x.2.orgId x.2.timestampMs x.2.auditId :=
    ht _ _ (Std.ExtTreeMap.mem_toList_iff_getElem?_eq_some.mp hx.1)
  have hky : y.1 = auditKey y.2.orgId y.2.timestampMs y.2.auditId :=
    ht _ _ (Std.ExtTreeMap.mem_toList_iff_getElem?_eq_some.mp hy.1)
  have horg : x.2.orgId = y.2.orgId := hx.2.trans hy.2.symm
  rw [earlier_iff horg, ← hkx, ← hky]
  exact utf8_lt_utf8_iff.mp hlt

/-- **Keys are ordered by time, and then by id.**  So the key of an entry tells its time and id,
and the entries of an organization are found in the order of the log. -/
theorem auditKey_order {t : Table String EnrollmentAuditEntry}
    (ht : t.Forall fun k e => k = auditKey e.orgId e.timestampMs e.auditId) (orgId : String) :
    (∀ t₁ i₁ t₂ i₂, utf8 (auditKey orgId t₁ i₁) < utf8 (auditKey orgId t₂ i₂) ↔
      t₁ < t₂ ∨ t₁ = t₂ ∧ utf8 i₁ < utf8 i₂) ∧
    (∀ t₁ i₁ t₂ i₂, auditKey orgId t₁ i₁ = auditKey orgId t₂ i₂ → t₁ = t₂ ∧ i₁ = i₂) ∧
    ((t.toList.map Prod.snd).filter fun e => e.orgId == orgId).Pairwise Earlier := by
  refine ⟨?_, ?_, ?_⟩
  · intro t₁ i₁ t₂ i₂
    rw [utf8_lt_utf8_iff, utf8_lt_utf8_iff, auditKey_lt_auditKey_iff]
  · intro t₁ i₁ t₂ i₂ h
    exact auditKey_inj h
  · rw [List.filter_map, List.pairwise_map]
    exact pairwise_earlier ht orgId

/-- A log of two entries of one time and one that is older. -/
def sampleLog : Redb :=
  let entries : List EnrollmentAuditEntry := [⟨"b", "acme", "app", "", "", .denied "", 10⟩,
    ⟨"a", "acme", "app", "", "", .denied "", 10⟩, ⟨"c", "acme", "mesh", "", "", .denied "", 9⟩]
  entries.foldl (fun s e => (Redb.exec (.appendAudit e) s).2) .empty

theorem auditTable_sampleLog : AuditTable sampleLog.audit := by
  have h₀ : AuditTable Redb.empty.audit := auditTable_empty
  have h₁ := h₀.exec (c := .appendAudit ⟨"b", "acme", "app", "", "", .denied "", 10⟩)
    (by rintro _ ⟨⟩; decide)
  have h₂ := h₁.exec (c := .appendAudit ⟨"a", "acme", "app", "", "", .denied "", 10⟩)
    (by rintro _ ⟨⟩; decide)
  exact h₂.exec (c := .appendAudit ⟨"c", "acme", "mesh", "", "", .denied "", 9⟩)
    (by rintro _ ⟨⟩; decide)

/-- The entries of the sample are found by time, and then by id. -/
theorem auditKey_order_sample :
    ((sampleLog.audit.toList.map Prod.snd).filter fun e => e.orgId == "acme").Pairwise Earlier :=
  (auditKey_order auditTable_sampleLog.key "acme").2.2

/-! ### Listings -/

namespace Redb

/-- The entries of the organization that match the filter, newest first. -/
structure IsLog (s : Redb) (orgId : String) (appId : Option String)
    (log : List EnrollmentAuditEntry) : Prop where
  mem : ∀ e, e ∈ log ↔ s.audit.Has e ∧ e.orgId = orgId ∧ ∀ a, appId = some a → e.appId = a
  newestFirst : log.Pairwise fun e e' => Earlier e' e

variable {s : Redb} {orgId : String} {appId : Option String}

/-- There is one such log. -/
theorem IsLog.unique {log log' : List EnrollmentAuditEntry} (h : s.IsLog orgId appId log)
    (h' : s.IsLog orgId appId log') : log = log' := by
  have : Std.Asymm fun e e' : EnrollmentAuditEntry => Earlier e' e :=
    ⟨fun _ _ hlt => hlt.asymm⟩
  exact h.newestFirst.eq_of_mem_iff h'.newestFirst fun e => (h.mem e).trans (h'.mem e).symm

/-- What `list_audit` looks for are the rows of the organization that match the filter. -/
theorem auditMatch_iff (hs : AuditTable s.audit) (horg : Free '\x00' orgId)
    {row : String × EnrollmentAuditEntry} (hrow : row ∈ s.audit.toList) :
    auditMatch orgId appId row = true ↔
      row.2.orgId = orgId ∧ ∀ a, appId = some a → row.2.appId = a := by
  have hget := Std.ExtTreeMap.mem_toList_iff_getElem?_eq_some.mp hrow
  have hkey : row.1 = auditKey row.2.orgId row.2.timestampMs row.2.auditId := hs.key _ _ hget
  have hbelongs : belongsTo orgId row.1 = true ↔ row.2.orgId = orgId := by
    rw [hkey]
    exact startsWith_glue (hs.nulFree _ _ hget) horg
  rw [auditMatch, Bool.and_eq_true, hbelongs, Option.all_eq_true]
  simp only [beq_iff_eq]

/-- **Walking from the end of the table finds the log.** -/
theorem isLog_rows (hs : AuditTable s.audit) (horg : Free '\x00' orgId) (appId : Option String) :
    s.IsLog orgId appId
      ((s.audit.toList.reverse.filter (auditMatch orgId appId)).map Prod.snd) where
  mem e := by
    have hrow : ∀ k, (k, e) ∈ s.audit.toList.reverse ↔ s.audit[k]? = some e := by
      intro k
      rw [List.mem_reverse, Std.ExtTreeMap.mem_toList_iff_getElem?_eq_some]
    simp only [List.mem_map, List.mem_filter, Prod.exists, exists_eq_right]
    constructor
    · intro h
      rcases h with ⟨k, hk, hmatch⟩
      have hmem := List.mem_reverse.mp hk
      exact ⟨⟨k, (hrow k).mp hk⟩, (auditMatch_iff hs horg hmem).mp hmatch⟩
    · intro h
      rcases h with ⟨⟨k, hk⟩, hmatch⟩
      have hmem := (hrow k).mpr hk
      exact ⟨k, hmem, (auditMatch_iff hs horg (List.mem_reverse.mp hmem)).mpr hmatch⟩
  newestFirst := by
    rw [List.pairwise_map, List.filter_reverse, List.pairwise_reverse]
    -- the rows that match are among those of the organization
    have hfilter : s.audit.toList.filter (auditMatch orgId appId) =
        (s.audit.toList.filter fun kv => kv.2.orgId == orgId).filter
          (auditMatch orgId appId) := by
      rw [List.filter_filter]
      apply List.filter_congr
      intro row hrow
      rw [Bool.eq_iff_iff, Bool.and_eq_true, beq_iff_eq]
      have hmatch : auditMatch orgId appId row = true ↔ _ := auditMatch_iff hs horg hrow
      tauto
    rw [hfilter]
    exact (pairwise_earlier hs.key orgId).filter _

/-- **A listing is exact unless the limit is zero.**  With a limit of zero it holds one entry, the
newest, if there is any. -/
theorem listAudit_iff (hs : AuditTable s.audit) (horg : Free '\x00' orgId)
    (appId : Option String) (limit : UInt64) :
    (∃ log, s.IsLog orgId appId log) ∧ ∀ log, s.IsLog orgId appId log →
      ((Redb.exec (.listAudit orgId appId limit) s).1 = .ok (log.take limit.toNat) ↔
        0 < limit ∨ log = []) := by
  have hrows := isLog_rows hs horg appId
  refine ⟨⟨_, hrows⟩, ?_⟩
  intro log hlog
  have hlist : (Redb.exec (.listAudit orgId appId limit) s).1 =
      .ok (log.take (max 1 limit.toNat)) := by
    rw [hlog.unique hrows]
    exact congrArg Except.ok (listAudit_eq s orgId appId limit)
  rw [hlist, Except.ok.injEq, UInt64.lt_iff_toNat_lt]
  cases log with
  | nil => simp
  | cons e log =>
    cases hlimit : limit.toNat with
    | zero => simp
    | succ n => simp

end Redb

/-- The newest entry of the sample is listed. -/
theorem listAudit_newest : ∃ log, sampleLog.IsLog "acme" none log ∧
    (Redb.exec (.listAudit "acme" none 1) sampleLog).1 = .ok (log.take 1) := by
  have horg : Free '\x00' "acme" := by decide
  obtain ⟨⟨log, hlog⟩, hiff⟩ := Redb.listAudit_iff auditTable_sampleLog horg none 1
  exact ⟨log, hlog, (hiff log hlog).mpr (Or.inl (by decide))⟩

/-- **With a limit of zero an entry is listed.** -/
theorem listAudit_zero :
    (Redb.exec (.listAudit "acme" none 0) sampleLog).1 =
      .ok [⟨"b", "acme", "app", "", "", .denied "", 10⟩] ∧
    ¬ ∀ s : Redb, AuditTable s.audit → ∀ orgId appId (limit : UInt64), Free '\x00' orgId →
      ∃ log, s.IsLog orgId appId log ∧
        (Redb.exec (.listAudit orgId appId limit) s).1 = .ok (log.take limit.toNat) := by
  have hone : (Redb.exec (.listAudit "acme" none 0) sampleLog).1 =
      .ok [⟨"b", "acme", "app", "", "", .denied "", 10⟩] := by decide +kernel
  refine ⟨hone, ?_⟩
  intro h
  obtain ⟨log, -, hlog⟩ := h sampleLog auditTable_sampleLog "acme" none 0 (by decide)
  cases hone.symm.trans hlog

end PeatGateway
