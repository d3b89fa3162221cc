import PeatGateway.Tenant.Owners

/-!
# A refused operation changes nothing

Most operations refuse before they write.  The deletions write first and refuse if nothing was
there: erasing what is not there changes nothing.  `delete_org` also sweeps the other tables,
by a prefix made of an id nobody has checked, so it may refuse after it has removed rows.

## Main definitions

* `Redb.SweptBy` — rows whose keys start with the prefix of an id.

## Main results

* `wp_refusal` — an operation other than `delete_org` refuses in the store it was called in.
* `refusal_unchanged_iff` — **a refused operation changes nothing, unless it is a `delete_org`
  of an id that is none but is a prefix of keys in use**.
-/

namespace PeatGateway

open Effect

/-- Rows of some table other than the first have keys that start with the prefix of the id. -/
def Redb.SweptBy (s : Redb) (orgId : String) : Prop :=
  ∃ key T, T ≠ .orgs ∧ belongsTo orgId key = true ∧ s.uses key T = true

/-- An operation other than `delete_org` refuses in the store it was called in. -/
theorem wp_refusal {G : Type} (mgr : TenantManager G) {op : ManagerOp}
    (hop : ∀ o, op ≠ .deleteOrg o) (s : Redb) :
    (op.prog mgr).Wp Redb.exec s (fun _ _ => True) fun s' => s' = s := by
  by_cases hread : op.isRead = true
  · -- reading changes nothing in any case
    have hstay : Spec.Sound (Spec.mk (fun c => StorageCall.isRead c = true) fun _ _ => True)
        Redb.exec (· = s) := by
      rintro c _ rfl hc
      refine ⟨?_, fun _ _ => trivial⟩
      cases c <;> first | rfl | cases hc
    have hrun := Prog.run_meets hstay (op.meets_of_isRead mgr hread fun _ hc => hc) rfl
    exact Prog.wp_iff.mpr ⟨fun _ _ => trivial, fun _ _ => hrun.1⟩
  cases op
  case deleteOrg o => exact absurd rfl (hop o)
  case deleteFormation | deleteToken | deleteSink | deleteIdp | deletePolicyRule =>
    simp only [ManagerOp.prog, TenantManager.deleteFormation, TenantManager.deleteToken,
      TenantManager.deleteSink, TenantManager.deleteIdp, TenantManager.deletePolicyRule,
      Prog.wp_map, Prog.wp_bind, wp_store, Prog.wp_ensure, Prog.wp_attempt, Prog.wp_pure,
      Redb.exec, Prog.post_ok]
    -- They are refused when the row was not there, and then erasing it changed nothing.
    refine ⟨fun _ => trivial, ?_⟩
    intro hnone
    rw [Table.erase_of_unused (Bool.eq_false_iff.mpr hnone)]
  -- The others that write are refused by a check that stands before their first write.
  case createOrg | updateOrg | createFormation | createToken | revokeToken |
      validateAndConsumeToken | createSink | toggleSink | setCursor | createIdp | toggleIdp |
      createPolicyRule | appendAudit =>
    simp [ManagerOp.prog, TenantManager.createOrg, TenantManager.getOrg, TenantManager.updateOrg,
      TenantManager.createFormation, TenantManager.createToken, TenantManager.getFormation,
      TenantManager.revokeToken, TenantManager.getToken, TenantManager.validateAndConsumeToken,
      TenantManager.createSink, TenantManager.toggleSink, TenantManager.getSink,
      TenantManager.setCursor, TenantManager.createIdp, TenantManager.toggleIdp,
      TenantManager.getIdp, TenantManager.createPolicyRule, TenantManager.appendAudit, Redb.exec]
  all_goals exact absurd rfl hread

/-- What `delete_org` does. -/
theorem run_deleteOrg {G : Type} (mgr : TenantManager G) (o : String) (s : Redb) :
    ((ManagerOp.deleteOrg o).prog mgr).run Redb.exec s =
      (if s.uses o .orgs then .ok .unit else .error s!"Organization '{o}' not found",
        s.deleteOrg o) := by
  simp only [ManagerOp.prog, TenantManager.deleteOrg, Prog.map, Prog.bind_assoc, run_store_bind,
    Redb.exec, Prog.next_ok, Prog.run_ensure_bind]
  cases horg : s.uses o .orgs with
  | true =>
    rw [if_pos (show s.orgs[o]?.isSome = true from horg)]
    rfl
  | false =>
    rw [if_neg (Bool.eq_false_iff.mp (show s.orgs[o]?.isSome = false from horg))]
    rfl

/-- The sweep changes nothing exactly if there is nothing to sweep. -/
theorem deleteOrg_eq_self_iff {s : Redb} {o : String} (hnone : s.uses o .orgs = false) :
    s.deleteOrg o = s ↔ ¬ s.SweptBy o := by
  constructor
  · rintro heq ⟨key, T, hT, hb, hu⟩
    -- If the store is as before, the key that was swept is still in use.
    rw [← heq] at hu
    rw [not_belongsTo_of_uses_deleteOrg hT hu] at hb
    cases hb
  · intro hswept
    have hclean : ∀ T, T ≠ .orgs → ∀ key, belongsTo o key = true → s.uses key T = false := by
      intro T hT key hb
      rw [Bool.eq_false_iff]
      exact fun hu => hswept ⟨key, T, hT, hb, hu⟩
    have hsame : ∀ {V : Type} (t : Table String V),
        (∀ key, belongsTo o key = true → t[key]?.isSome = false) →
        t.removeAll (belongsTo o) = t := by
      intro V t ht
      apply Table.removeAll_of_unused
      intro k hk
      exact Option.not_isSome_iff_eq_none.mp (Bool.eq_false_iff.mp (ht k hk))
    rw [Redb.deleteOrg, Table.erase_of_unused hnone, hsame _ (hclean .formations nofun),
      hsame _ (hclean .tokens nofun), hsame _ (hclean .sinks nofun),
      hsame _ (hclean .idps nofun), hsame _ (hclean .policyRules nofun),
      hsame _ (hclean .audit nofun), hsame _ (hclean .genesis nofun),
      hsame _ (hclean .cursors nofun)]

/-- **A refused operation changes nothing, unless it is a `delete_org` of an id that is none
but is a prefix of keys in use.** -/
theorem refusal_unchanged_iff {G : Type} (mgr : TenantManager G) (op : ManagerOp) (s : Redb) :
    (∀ e, ((op.prog mgr).run Redb.exec s).1 = .error e →
        ((op.prog mgr).run Redb.exec s).2 = s) ↔
      ¬ ∃ o, op = .deleteOrg o ∧ s.uses o .orgs = false ∧ s.SweptBy o := by
  by_cases hop : ∃ o, op = .deleteOrg o
  · obtain ⟨o, rfl⟩ := hop
    rw [run_deleteOrg]
    constructor
    -- The sweep runs before the refusal: what it removes is gone.
    · rintro hsame ⟨_, ⟨⟩, hnone, hswept⟩
      refine (deleteOrg_eq_self_iff hnone).mp (hsame s!"Organization '{o}' not found" ?_) hswept
      rw [hnone]
      rfl
    · intro hclean e he
      cases horg : s.uses o .orgs with
      | true =>
        rw [horg] at he
        cases he
      | false => exact (deleteOrg_eq_self_iff horg).mpr fun hswept => hclean ⟨o, rfl, horg, hswept⟩
  · refine iff_of_true ?_ ?_
    · intro e he
      exact (wp_refusal mgr (fun o ho => hop ⟨o, ho⟩) s).of_error he
    · rintro ⟨o, ho, -⟩
      exact hop ⟨o, ho⟩

/-- A store with one organization and the cursor of one document. -/
def oneCursorStore : Redb :=
  let made := (TenantManager.createOrg 1 "acme" "Acme").run Redb.exec .empty
  ((TenantManager.setCursor "acme" "logistics" "doc-1" "8e9b83ba7d64c253").run Redb.exec made.2).2

theorem oneCursorStore_reachable : Reachable Bytes oneCursorStore := by
  refine ⟨[.start ((ManagerOp.createOrg 1 "acme" "Acme").prog seedManager), .step 0, .step 0,
    .start ((ManagerOp.setCursor "acme" "logistics" "doc-1" "8e9b83ba7d64c253").prog seedManager),
    .step 1], ?_, rfl⟩
  simp only [Act.forall_start_start, Act.forall_start_step, Act.forall_start_nil]
  exact ⟨.op _ _, .op _ _, trivial⟩

/-- **A deletion that is refused forgets a cursor**: the id holds a NUL, and is the prefix of
the cursors of a formation. -/
theorem refusal_forgets_cursor :
    ¬ ∀ (mgr : TenantManager Bytes) (op : ManagerOp) (s : Redb), Reachable Bytes s →
      ∀ e, ((op.prog mgr).run Redb.exec s).1 = .error e →
        ((op.prog mgr).run Redb.exec s).2 = s := by
  intro h
  have hsame := h seedManager (.deleteOrg "acme\x00logistics") oneCursorStore
    oneCursorStore_reachable "Organization 'acme\x00logistics' not found" (by decide +kernel)
  have hcursor := congrArg (fun s => s.cursors[cursorKey "acme" "logistics" "doc-1"]?) hsame
  revert hcursor
  decide +kernel

end PeatGateway
