import PeatGateway.Tenant.Keyed

/-!
# Tenants do not see each other

On redb all tenants share the tables, and what keeps them apart is the shape of the keys.
The operations of one organization leave the rows of every other as they are, whatever
strings they are called with and however their transactions are interleaved, and so
nothing another organization reads changes.

## Main definitions

* `Redb.SameRows` — two stores agree on the rows of an organization.
* `StorageCall.Reads` — the reads of an organization.

## Main results

* `sameRows_exec` — a call in the scope of one organization keeps the rows of another.
* `SameRows.exec`, `SameRows.run` — what an organization reads depends on its rows only.
* `tenant_isolation` — **the operations of one tenant do not touch another**.
-/

namespace PeatGateway

open Effect Text

/-! ### The rows of an organization -/

/-- The stores have the same rows of the organization: under its id in the first table,
under its id and a NUL in the others. -/
structure Redb.SameRows (orgId : String) (s s' : Redb) : Prop where
  orgs : s'.orgs[orgId]? = s.orgs[orgId]?
  formations : Table.AgreeOn (belongsTo orgId) s.formations s'.formations
  tokens : Table.AgreeOn (belongsTo orgId) s.tokens s'.tokens
  sinks : Table.AgreeOn (belongsTo orgId) s.sinks s'.sinks
  cursors : Table.AgreeOn (belongsTo orgId) s.cursors s'.cursors
  idps : Table.AgreeOn (belongsTo orgId) s.idps s'.idps
  policyRules : Table.AgreeOn (belongsTo orgId) s.policyRules s'.policyRules
  audit : Table.AgreeOn (belongsTo orgId) s.audit s'.audit
  genesis : Table.AgreeOn (belongsTo orgId) s.genesis s'.genesis

namespace Redb.SameRows

theorem refl (orgId : String) (s : Redb) : s.SameRows orgId s where
  orgs := rfl
  formations := .refl _ _
  tokens := .refl _ _
  sinks := .refl _ _
  cursors := .refl _ _
  idps := .refl _ _
  policyRules := .refl _ _
  audit := .refl _ _
  genesis := .refl _ _

theorem trans {orgId : String} {s s' s'' : Redb} (h : s.SameRows orgId s')
    (h' : s'.SameRows orgId s'') : s.SameRows orgId s'' where
  orgs := h'.orgs.trans h.orgs
  formations := h.formations.trans h'.formations
  tokens := h.tokens.trans h'.tokens
  sinks := h.sinks.trans h'.sinks
  cursors := h.cursors.trans h'.cursors
  idps := h.idps.trans h'.idps
  policyRules := h.policyRules.trans h'.policyRules
  audit := h.audit.trans h'.audit
  genesis := h.genesis.trans h'.genesis

end Redb.SameRows

section Writes

variable {A B : String} (hA : IsIdentifier A) (hB : IsIdentifier B) (hAB : A ≠ B)

include hA hB hAB

theorem sameRows_deleteOrg (s : Redb) : s.SameRows B (s.deleteOrg A) where
  orgs := Table.get_erase_of_ne hAB
  formations := Table.agreeOn_removeAll fun _ => not_belongsTo_of_belongsTo hA hB hAB
  tokens := Table.agreeOn_removeAll fun _ => not_belongsTo_of_belongsTo hA hB hAB
  sinks := Table.agreeOn_removeAll fun _ => not_belongsTo_of_belongsTo hA hB hAB
  cursors := Table.agreeOn_removeAll fun _ => not_belongsTo_of_belongsTo hA hB hAB
  idps := Table.agreeOn_removeAll fun _ => not_belongsTo_of_belongsTo hA hB hAB
  policyRules := Table.agreeOn_removeAll fun _ => not_belongsTo_of_belongsTo hA hB hAB
  audit := Table.agreeOn_removeAll fun _ => not_belongsTo_of_belongsTo hA hB hAB
  genesis := Table.agreeOn_removeAll fun _ => not_belongsTo_of_belongsTo hA hB hAB

/-- A call in the scope of one organization keeps the rows of another. -/
theorem sameRows_exec (s : Redb) (c : StorageCall) (hc : callPre (· = A) c) :
    s.SameRows B (Redb.exec c s).2 := by
  -- Ids hold no NUL, so no key is one of both organizations.
  have hkey : ∀ x, belongsTo B (nulKey A x) = false := fun x => not_belongsTo_nulKey hA hB hAB
  cases c with
  | createOrg org | updateOrg org =>
    obtain ⟨-, rfl⟩ := hc
    exact { Redb.SameRows.refl B s with orgs := Table.get_insert_of_ne hAB }
  | deleteOrg orgId =>
    obtain rfl := hc
    exact sameRows_deleteOrg hA hB hAB s
  | createFormation orgId f =>
    obtain ⟨-, -, rfl⟩ := hc
    exact { Redb.SameRows.refl B s with formations := Table.agreeOn_insert (hkey _) }
  | deleteFormation orgId appId =>
    obtain rfl := hc
    exact { Redb.SameRows.refl B s with formations := Table.agreeOn_erase (hkey _) }
  | createToken t | updateToken t =>
    obtain ⟨-, rfl⟩ := hc
    exact { Redb.SameRows.refl B s with tokens := Table.agreeOn_insert (hkey _) }
  | deleteToken orgId tokenId =>
    obtain rfl := hc
    exact { Redb.SameRows.refl B s with tokens := Table.agreeOn_erase (hkey _) }
  | createSink t | updateSink t =>
    obtain ⟨-, rfl⟩ := hc
    exact { Redb.SameRows.refl B s with sinks := Table.agreeOn_insert (hkey _) }
  | deleteSink orgId sinkId =>
    obtain rfl := hc
    exact { Redb.SameRows.refl B s with sinks := Table.agreeOn_erase (hkey _) }
  | createIdp i | updateIdp i =>
    obtain ⟨-, rfl⟩ := hc
    exact { Redb.SameRows.refl B s with idps := Table.agreeOn_insert (hkey _) }
  | deleteIdp orgId idpId =>
    obtain rfl := hc
    exact { Redb.SameRows.refl B s with idps := Table.agreeOn_erase (hkey _) }
  | createPolicyRule r =>
    obtain ⟨-, rfl⟩ := hc
    exact { Redb.SameRows.refl B s with policyRules := Table.agreeOn_insert (hkey _) }
  | deletePolicyRule orgId ruleId =>
    obtain rfl := hc
    exact { Redb.SameRows.refl B s with policyRules := Table.agreeOn_erase (hkey _) }
  | appendAudit e =>
    obtain rfl := hc
    exact { Redb.SameRows.refl B s with audit := Table.agreeOn_insert (hkey _) }
  | storeGenesis orgId appId encoded =>
    obtain ⟨-, -, rfl⟩ := hc
    exact { Redb.SameRows.refl B s with genesis := Table.agreeOn_insert (hkey _) }
  | deleteGenesis orgId appId =>
    obtain rfl := hc
    exact { Redb.SameRows.refl B s with genesis := Table.agreeOn_erase (hkey _) }
  | setCursor orgId appId documentId changeHash =>
    obtain rfl := hc
    exact { Redb.SameRows.refl B s with cursors := Table.agreeOn_insert (hkey _) }
  | getOrg _ | listOrgs | getFormation _ _ | listFormations _ | getToken _ _ | listTokens _ _
  | getSink _ _ | listSinks _ | getIdp _ _ | listIdps _ | listPolicyRules _ | listAudit _ _ _
  | getGenesis _ _ | getCursor _ _ _ => exact .refl B s

/-- The calls of one organization keep records under their keys and the rows of another
as they were in `s₀`. -/
theorem isolation_sound (s₀ : Redb) :
    (callSpec (· = A)).Sound Redb.exec fun s => s.Keyed ∧ s₀.SameRows B s := by
  rintro c s ⟨hk, hs⟩ hc
  obtain ⟨hk', hpost⟩ := callSpec_sound _ c s hk hc
  exact ⟨⟨hk', hs.trans (sameRows_exec hA hB hAB s c hc)⟩, hpost⟩

end Writes

/-! ### What is read -/

/-- The call reads what belongs to the organization, and nothing else. -/
def StorageCall.Reads (orgId : String) : StorageCall → Prop
  | .getOrg o | .getFormation o _ | .listFormations o | .getToken o _ | .listTokens o _
  | .getSink o _ | .listSinks o | .getIdp o _ | .listIdps o | .listPolicyRules o
  | .listAudit o _ _ | .getGenesis o _ | .getCursor o _ _ => o = orgId
  | _ => False

/-- The matching rows of the log are chosen among the rows of the organization. -/
theorem filter_auditMatch (orgId : String) (appId : Option String)
    (rows : List (String × EnrollmentAuditEntry)) :
    rows.reverse.filter (Redb.auditMatch orgId appId) =
      ((rows.filter fun kv => belongsTo orgId kv.1).filter
        fun kv => appId.all (kv.2.appId == ·)).reverse := by
  rw [List.filter_filter, List.filter_reverse]
  refine congrArg List.reverse (List.filter_congr ?_)
  intro kv _
  rw [Redb.auditMatch, Bool.and_comm]

theorem Redb.SameRows.listAudit {B : String} {s s' : Redb} (h : s.SameRows B s')
    (appId : Option String) (limit : UInt64) :
    s'.listAudit B appId limit = s.listAudit B appId limit := by
  rw [Redb.listAudit_eq, Redb.listAudit_eq, filter_auditMatch, filter_auditMatch,
    h.audit.filter_toList]

/-- A read of the organization is answered from its rows, and changes nothing. -/
theorem Redb.SameRows.exec {B : String} {s s' : Redb} (h : s.SameRows B s') {c : StorageCall}
    (hc : c.Reads B) :
    (Redb.exec c s').1 = (Redb.exec c s).1 ∧ (Redb.exec c s).2.SameRows B (Redb.exec c s').2 := by
  cases c with
  | getOrg _ =>
    obtain rfl := hc
    exact ⟨congrArg Except.ok h.orgs, h⟩
  | getFormation _ _ =>
    obtain rfl := hc
    exact ⟨congrArg Except.ok (h.formations _ (belongsTo_nulKey _ _)), h⟩
  | listFormations _ =>
    obtain rfl := hc
    exact ⟨congrArg Except.ok h.formations.scan, h⟩
  | getToken _ _ =>
    obtain rfl := hc
    exact ⟨congrArg Except.ok (h.tokens _ (belongsTo_nulKey _ _)), h⟩
  | listTokens _ appId =>
    obtain rfl := hc
    refine ⟨?_, h⟩
    simp only [Redb.exec, h.tokens.scan]
  | getSink _ _ =>
    obtain rfl := hc
    exact ⟨congrArg Except.ok (h.sinks _ (belongsTo_nulKey _ _)), h⟩
  | listSinks _ =>
    obtain rfl := hc
    exact ⟨congrArg Except.ok h.sinks.scan, h⟩
  | getIdp _ _ =>
    obtain rfl := hc
    exact ⟨congrArg Except.ok (h.idps _ (belongsTo_nulKey _ _)), h⟩
  | listIdps _ =>
    obtain rfl := hc
    exact ⟨congrArg Except.ok h.idps.scan, h⟩
  | listPolicyRules _ =>
    obtain rfl := hc
    exact ⟨congrArg Except.ok h.policyRules.scan, h⟩
  | listAudit _ appId limit =>
    obtain rfl := hc
    exact ⟨congrArg Except.ok (h.listAudit appId limit), h⟩
  | getGenesis _ _ =>
    obtain rfl := hc
    exact ⟨congrArg Except.ok (h.genesis _ (belongsTo_nulKey _ _)), h⟩
  | getCursor _ _ _ =>
    obtain rfl := hc
    exact ⟨congrArg Except.ok (h.cursors _ (belongsTo_nulKey _ _)), h⟩
  | _ => exact hc.elim

/-- The reading operations of an organization make only reads of it. -/
theorem ManagerOp.meets_reads {G : Type} (mgr : TenantManager G) {op : ManagerOp} {B : String}
    (hop : op.isRead = true) (horg : op.orgId = some B) :
    (op.prog mgr).Meets ⟨StorageCall.Reads B, fun _ _ => True⟩ fun _ => True := by
  apply ManagerOp.meets_of_needs
  cases op
  all_goals first | exact (Bool.false_ne_true hop).elim | cases horg
  all_goals simp [Needs, StorageCall.Reads]

/-- A reading operation returns the same over stores with the same rows. -/
theorem Redb.SameRows.run {G : Type} {B : String} {s s' : Redb} (h : s.SameRows B s')
    (mgr : TenantManager G) {op : ManagerOp} (hop : op.isRead = true) (horg : op.orgId = some B) :
    ((op.prog mgr).run Redb.exec s').1 = ((op.prog mgr).run Redb.exec s).1 :=
  (Prog.run_sim (R := Redb.SameRows B) (fun _ _ _ hR hpre => hR.exec hpre) _ h
    ((ManagerOp.meets_reads mgr hop horg).along (I := fun _ => True)
      (fun _ _ _ _ => ⟨trivial, fun _ _ => trivial⟩) trivial)).1

/-- **Tenant isolation.**  From any reachable store, after any operations addressed to
`A`, their transactions interleaved in any way: the rows of `B` are unchanged, every read
of the backend addressed to `B` is answered as before, and so is every reading operation
of a manager. -/
theorem tenant_isolation {G : Type} {A B : String} (hA : IsIdentifier A) (hB : IsIdentifier B)
    (hAB : A ≠ B) {s : Redb} (hs : Reachable G s) (l : Schedule G)
    (hl : l.Starts fun op => op.orgId = some A) :
    s.SameRows B (Pool.acts Redb.exec ⟨s, []⟩ l).store ∧
    (∀ c : StorageCall, c.Reads B →
      (Redb.exec c (Pool.acts Redb.exec ⟨s, []⟩ l).store).1 = (Redb.exec c s).1) ∧
    ∀ (mgr : TenantManager G) (op : ManagerOp), op.isRead = true → op.orgId = some B →
      ((op.prog mgr).run Redb.exec (Pool.acts Redb.exec ⟨s, []⟩ l).store).1 =
        ((op.prog mgr).run Redb.exec s).1 := by
  have hsame : s.SameRows B (Pool.acts Redb.exec ⟨s, []⟩ l).store := by
    refine (Pool.acts_meets (Q := fun _ => True) (isolation_sound hA hB hAB s)
      ⟨hs.keyed, .refl B s⟩ ?_ ?_).1.2
    · intro p hp
      cases hp
    · intro p hp
      obtain ⟨mgr, op, horg, rfl⟩ := hl p hp
      apply op.meets mgr
      intro orgId h o ho
      rw [horg] at h
      obtain rfl := Option.some.inj h
      exact ho hA
  exact ⟨hsame, fun c hc => (hsame.exec hc).1, fun mgr op hop horg => hsame.run mgr hop horg⟩

/-- A tenant that creates and deletes itself, next to another one that stays. -/
theorem tenant_isolation_delete :
    (((ManagerOp.getOrg "b").prog seedManager).run Redb.exec (Pool.acts Redb.exec
      ⟨((TenantManager.createOrg 1 "b" "B").run Redb.exec .empty).2, []⟩
      [.start ((ManagerOp.createOrg 2 "a" "A").prog seedManager), .step 0, .step 0,
        .start ((ManagerOp.deleteOrg "a").prog seedManager), .step 1]).store).1 =
    .ok (.org ⟨"b", "B", .default, 1⟩) := by
  have hreach : Reachable Bytes ((TenantManager.createOrg 1 "b" "B").run Redb.exec .empty).2 := by
    refine ⟨[.start ((ManagerOp.createOrg 1 "b" "B").prog seedManager), .step 0, .step 0], ?_, rfl⟩
    simp only [Act.forall_start_start, Act.forall_start_step, Act.forall_start_nil]
    exact ⟨.op _ _, trivial⟩
  have hstarts : Schedule.Starts (fun op => op.orgId = some "a")
      [.start ((ManagerOp.createOrg 2 "a" "A").prog seedManager), .step 0, .step 0,
        .start ((ManagerOp.deleteOrg "a").prog seedManager), .step 1] := by
    simp only [Schedule.Starts, Act.forall_start_start, Act.forall_start_step, Act.forall_start_nil]
    exact ⟨⟨_, _, rfl, rfl⟩, ⟨_, _, rfl, rfl⟩, trivial⟩
  obtain ⟨-, -, hread⟩ := tenant_isolation (by decide : IsIdentifier "a")
    (by decide : IsIdentifier "b") (by decide) hreach _ hstarts
  exact (hread seedManager (.getOrg "b") rfl rfl).trans rfl

end PeatGateway
