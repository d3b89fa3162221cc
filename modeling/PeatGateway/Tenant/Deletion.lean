import PeatGateway.Tenant.Interchange
import PeatGateway.Tenant.Isolation
import PeatGateway.Tenant.Refusal

/-!
# Deleting an organization leaves nothing behind

After `delete_org` no key of the organization is in use, and the rows of the others are as
they were.  What the operations of an organization return depends on its rows only, so an
organization that is created again behaves as one that never was before.

## Main definitions

* `StorageCall.Own` — a call that concerns one organization only.
* `Redb.NoKeyOf` — no key of the organization is in use.

## Main results

* `Redb.SameRows.exec_own` — a call of an organization, reading or writing, is answered from
  its rows, and leaves the same rows.
* `Redb.SameRows.serial` — **operations of an organization return the same over stores with
  the same rows of it**.
* `deleteOrg_complete` — **nothing is left of an organization that is deleted**.
-/

namespace PeatGateway

open Effect Text

/-! ### The operations of one organization -/

/-- The call concerns the organization only. -/
def StorageCall.Own (A : String) (c : StorageCall) : Prop :=
  callPre (· = A) c ∧ (c.isRead = true → c.Reads A)

namespace Redb.SameRows

variable {A : String} {s t : Redb}

theorem deleteOrg (h : s.SameRows A t) (o : String) :
    (s.deleteOrg o).SameRows A (t.deleteOrg o) where
  orgs := by
    change (t.orgs.erase o)[A]? = (s.orgs.erase o)[A]?
    rw [Table.get_erase, Table.get_erase, h.orgs]
  formations := h.formations.removeAll _
  tokens := h.tokens.removeAll _
  sinks := h.sinks.removeAll _
  cursors := h.cursors.removeAll _
  idps := h.idps.removeAll _
  policyRules := h.policyRules.removeAll _
  audit := h.audit.removeAll _
  genesis := h.genesis.removeAll _

/-- **A call of the organization is answered from its rows, and leaves the same rows.** -/
theorem exec_own (h : s.SameRows A t) {c : StorageCall} (hc : c.Own A) :
    (Redb.exec c t).1 = (Redb.exec c s).1 ∧ (Redb.exec c s).2.SameRows A (Redb.exec c t).2 := by
  obtain ⟨hpre, hread⟩ := hc
  cases c with
  | createOrg org | updateOrg org =>
    refine ⟨rfl, { h with orgs := ?_ }⟩
    change (t.orgs.insert org.orgId org)[A]? = (s.orgs.insert org.orgId org)[A]?
    rw [Table.get_insert, Table.get_insert, h.orgs]
  | deleteOrg o =>
    obtain rfl := hpre
    exact ⟨congrArg (fun o => Except.ok (Option.isSome o)) h.orgs, h.deleteOrg _⟩
  -- A row is written into both, whether or not it is one of the organization.
  | createFormation o f => exact ⟨rfl, { h with formations := h.formations.insert _ _ }⟩
  | createToken k | updateToken k => exact ⟨rfl, { h with tokens := h.tokens.insert _ _ }⟩
  | createSink k | updateSink k => exact ⟨rfl, { h with sinks := h.sinks.insert _ _ }⟩
  | createIdp i | updateIdp i => exact ⟨rfl, { h with idps := h.idps.insert _ _ }⟩
  | createPolicyRule r => exact ⟨rfl, { h with policyRules := h.policyRules.insert _ _ }⟩
  | appendAudit e => exact ⟨rfl, { h with audit := h.audit.insert _ _ }⟩
  | storeGenesis o a b => exact ⟨rfl, { h with genesis := h.genesis.insert _ _ }⟩
  | setCursor o a d v => exact ⟨rfl, { h with cursors := h.cursors.insert _ _ }⟩
  -- The answer tells whether there was a row, so its key has to be one of the organization.
  | deleteFormation o a =>
    obtain rfl := hpre
    exact ⟨congrArg (fun o => Except.ok (Option.isSome o)) (h.formations _ (belongsTo_nulKey _ _)),
      { h with formations := h.formations.erase _ }⟩
  | deleteToken o x =>
    obtain rfl := hpre
    exact ⟨congrArg (fun o => Except.ok (Option.isSome o)) (h.tokens _ (belongsTo_nulKey _ _)),
      { h with tokens := h.tokens.erase _ }⟩
  | deleteSink o x =>
    obtain rfl := hpre
    exact ⟨congrArg (fun o => Except.ok (Option.isSome o)) (h.sinks _ (belongsTo_nulKey _ _)),
      { h with sinks := h.sinks.erase _ }⟩
  | deleteIdp o x =>
    obtain rfl := hpre
    exact ⟨congrArg (fun o => Except.ok (Option.isSome o)) (h.idps _ (belongsTo_nulKey _ _)),
      { h with idps := h.idps.erase _ }⟩
  | deletePolicyRule o x =>
    obtain rfl := hpre
    exact ⟨congrArg (fun o => Except.ok (Option.isSome o)) (h.policyRules _ (belongsTo_nulKey _ _)),
      { h with policyRules := h.policyRules.erase _ }⟩
  | deleteGenesis o a =>
    obtain rfl := hpre
    exact ⟨congrArg (fun o => Except.ok (Option.isSome o)) (h.genesis _ (belongsTo_nulKey _ _)),
      { h with genesis := h.genesis.erase _ }⟩
  | _ => exact h.exec (hread rfl)

end Redb.SameRows

/-- The specification of programs that read the rows of one organization only. -/
def ownReads (A : String) : Spec Storage :=
  ⟨fun c => StorageCall.isRead c = true → StorageCall.Reads A c, fun _ _ => True⟩

/-- The operations of an organization read its rows only. -/
theorem ManagerOp.meets_ownReads {G : Type} (mgr : TenantManager G) {op : ManagerOp} {A : String}
    (horg : op.orgId = some A) : (op.prog mgr).Meets (ownReads A) fun _ => True := by
  apply ManagerOp.meets_of_needs
  cases op
  case listOrgs => cases horg
  all_goals
    cases horg
    simp [Needs, Spec.Finds, ownReads, StorageCall.isRead, StorageCall.Reads]

section Serial

variable {G : Type} {A : String} (hA : IsIdentifier A)

include hA

/-- The operations of an organization concern it only. -/
theorem ManagerOp.along_own (mgr : TenantManager G) {op : ManagerOp} (horg : op.orgId = some A)
    {s : Redb} (hs : s.Keyed) : (op.prog mgr).Along Redb.exec (fun c _ => c.Own A) s := by
  have hscope : ∀ orgId, op.orgId = some orgId → InScope (· = A) orgId := by
    intro orgId h o ho
    obtain rfl := Option.some.inj (horg.symm.trans h)
    exact ho hA
  apply ((op.meets mgr hscope).along (callSpec_sound _) hs).and
  exact (meets_ownReads mgr horg).along (I := fun _ => True)
    (fun _ _ _ _ => ⟨trivial, fun _ _ => trivial⟩) trivial

/-- **Operations of an organization return the same over stores with the same rows of it.** -/
theorem Redb.SameRows.serial {s t : Redb} (hs : s.Keyed) (h : s.SameRows A t)
    {ops : List (TenantManager G × ManagerOp)} (hops : ∀ x ∈ ops, x.2.orgId = some A) :
    (PeatGateway.serial Redb.exec ops t).1 = (PeatGateway.serial Redb.exec ops s).1 := by
  induction ops generalizing s t with
  | nil => rfl
  | cons x ops ih =>
    obtain ⟨mgr, op⟩ := x
    have horg : op.orgId = some A := hops _ List.mem_cons_self
    obtain ⟨hres, h'⟩ := Prog.run_sim (fun _ _ _ hR hown => hR.exec_own hown) (op.prog mgr) h
      (ManagerOp.along_own hA mgr horg hs)
    have hs' : ((op.prog mgr).run Redb.exec s).2.Keyed :=
      (Prog.run_meets (callSpec_sound fun _ => True) (op.meets mgr fun _ _ _ _ => trivial) hs).1
    exact congrArg₂ List.cons hres (ih hs' h' fun y hy => hops y (List.mem_cons_of_mem _ hy))

end Serial

/-! ### Deletion -/

/-- No key of the organization is in use: its id, or its id followed by a NUL. -/
def Redb.NoKeyOf (s : Redb) (A : String) : Prop :=
  ∀ key T, key = A ∨ belongsTo A key = true → s.uses key T = false

/-- The keys of all tables but the first hold a NUL. -/
def Redb.NulKeys (s : Redb) : Prop :=
  ∀ key T, T ≠ .orgs → s.uses key T = true → ¬ Free '\x00' key

theorem StorageCall.not_free_of_writes {c : StorageCall} {key : String} {T : TableName}
    (hT : T ≠ .orgs) (hw : c.writes = some (T, key)) : ¬ Free '\x00' key := by
  have hnul : ∀ a b, ¬ Free '\x00' (nulKey a b) := by
    intro a b hfree
    exact hfree (by simp [nulKey])
  cases c
  case createOrg | updateOrg =>
    cases hw
    exact absurd rfl hT
  all_goals first
    | cases hw; exact hnul _ _
    | cases hw

theorem Redb.NulKeys.exec {s : Redb} (h : s.NulKeys) (c : StorageCall) :
    (Redb.exec c s).2.NulKeys := by
  intro key T hT hu
  rcases uses_exec hu with hu | hw
  · exact h key T hT hu
  · exact StorageCall.not_free_of_writes hT hw

/-- **In every reachable store the keys of all tables but the first hold a NUL.** -/
theorem GatewayReachable.nulKeys {G : Type} {s : Redb} (hs : GatewayReachable G s) :
    s.NulKeys := by
  obtain ⟨l, -, rfl⟩ := hs
  refine Pool.acts_inv (J := fun P : Pool Storage Error Redb (Outcome G) => P.store.NulKeys)
    ?_ ?_
  · intro P hP a _
    rcases Pool.act_store_cases Redb.exec P a with ⟨hstore, -⟩ | ⟨c, hstore, -⟩
    · rw [hstore]
      exact hP
    · rw [hstore]
      exact hP.exec c
  · intro key T _ hu
    cases T <;> simp [Redb.uses, Redb.empty] at hu

/-- Nothing is left under the keys of an organization that is deleted. -/
theorem noKeyOf_deleteOrg {s : Redb} (hs : s.Keyed) (hnul : s.NulKeys) {A : String}
    (hA : IsIdentifier A) : (s.deleteOrg A).NoKeyOf A := by
  intro key T hkey
  rw [Bool.eq_false_iff]
  intro hu
  -- A key that is in use afterwards was in use before; the call writes none.
  have hbefore : s.uses key T = true ∨ (StorageCall.deleteOrg A).writes = some (T, key) :=
    uses_exec (c := .deleteOrg A) hu
  rcases hbefore with hbefore | hw
  · by_cases hT : T = .orgs
    · subst hT
      rcases hkey with rfl | hb
      · change (s.orgs.erase key)[key]?.isSome = true at hu
        rw [Table.get_erase, if_pos rfl] at hu
        cases hu
      · -- ids of organizations hold no NUL
        obtain ⟨o, ho⟩ := Option.isSome_iff_exists.mp hbefore
        obtain ⟨x, rfl⟩ := belongsTo_iff.mp hb
        exact (hs.orgs _ _ ho).1.nulFree (by simp [nulKey])
    · rcases hkey with rfl | hb
      -- Other tables have no key without NUL.
      · exact hnul key T hT hbefore hA.nulFree
      · rw [not_belongsTo_of_uses_deleteOrg hT hu] at hb
        cases hb
  · cases hw

/-- Stores without keys of an organization have the same rows of it. -/
theorem sameRows_of_noKeyOf {s t : Redb} {A : String} (hs : s.NoKeyOf A) (ht : t.NoKeyOf A) :
    s.SameRows A t := by
  have hnone : ∀ {V : Type} {o o' : Option V}, o.isSome = false → o'.isSome = false → o' = o := by
    intro V o o' ho ho'
    rw [Option.not_isSome_iff_eq_none.mp (Bool.eq_false_iff.mp ho),
      Option.not_isSome_iff_eq_none.mp (Bool.eq_false_iff.mp ho')]
  have hself : ∀ key T, belongsTo A key = true → s.uses key T = false ∧ t.uses key T = false :=
    fun key T hb => ⟨hs key T (Or.inr hb), ht key T (Or.inr hb)⟩
  exact {
    orgs := hnone (hs A .orgs (Or.inl rfl)) (ht A .orgs (Or.inl rfl))
    formations := fun k hk => hnone (hself k .formations hk).1 (hself k .formations hk).2
    tokens := fun k hk => hnone (hself k .tokens hk).1 (hself k .tokens hk).2
    sinks := fun k hk => hnone (hself k .sinks hk).1 (hself k .sinks hk).2
    cursors := fun k hk => hnone (hself k .cursors hk).1 (hself k .cursors hk).2
    idps := fun k hk => hnone (hself k .idps hk).1 (hself k .idps hk).2
    policyRules := fun k hk => hnone (hself k .policyRules hk).1 (hself k .policyRules hk).2
    audit := fun k hk => hnone (hself k .audit hk).1 (hself k .audit hk).2
    genesis := fun k hk => hnone (hself k .genesis hk).1 (hself k .genesis hk).2 }

/-- **Nothing is left of an organization that is deleted.**  From any reachable store and for
any of its organizations: `delete_org` succeeds, no key of the organization is in use
afterwards, and the rows of all others are as they were.  Created again, it answers every
further operation as it does in a store that never held any of its keys. -/
theorem deleteOrg_complete {G : Type} (mgr : TenantManager G) {s : Redb}
    (hs : GatewayReachable G s) {A : String} (hA : s.uses A .orgs = true) :
    ((ManagerOp.deleteOrg A).prog mgr).run Redb.exec s = (.ok .unit, s.deleteOrg A) ∧
    (s.deleteOrg A).NoKeyOf A ∧
    (∀ B, IsIdentifier B → A ≠ B → s.SameRows B (s.deleteOrg A)) ∧
    ∀ t : Redb, t.NoKeyOf A →
      ∀ (now : UInt64) (name : String) (ops : List (TenantManager G × ManagerOp)),
        (∀ x ∈ ops, x.2.orgId = some A) →
        (serial Redb.exec ((mgr, .createOrg now A name) :: ops) (s.deleteOrg A)).1 =
          (serial Redb.exec ((mgr, .createOrg now A name) :: ops) t).1 := by
  have hid : IsIdentifier A := by
    obtain ⟨org, horg⟩ := Option.isSome_iff_exists.mp hA
    obtain ⟨hid, heq⟩ := hs.keyed.orgs A org horg
    exact hid
  have hclean : (s.deleteOrg A).NoKeyOf A := noKeyOf_deleteOrg hs.keyed hs.nulKeys hid
  have hkeyed : (s.deleteOrg A).Keyed := by
    have h := (callSpec_sound fun _ => True) (.deleteOrg A) s hs.keyed trivial
    exact h.1
  refine ⟨?_, hclean, fun B hB hAB => sameRows_deleteOrg hid hB hAB s, ?_⟩
  · rw [run_deleteOrg, hA]
    rfl
  · intro t ht now name ops hops
    -- Both stores have the same rows of the organization, namely none.
    refine (Redb.SameRows.serial hid hkeyed (sameRows_of_noKeyOf hclean ht) ?_).symm
    intro x hx
    rcases List.mem_cons.mp hx with rfl | hx
    · rfl
    · exact hops x hx

/-- An organization that comes back does not see the cursor it had. -/
theorem deleteOrg_complete_cursor :
    oneCursorStore.uses "acme" .orgs = true ∧
    (serial Redb.exec [(seedManager, .createOrg 5 "acme" "Acme"),
      (seedManager, .getCursor "acme" "logistics" "doc-1")] (oneCursorStore.deleteOrg "acme")).1 =
    (serial Redb.exec [(seedManager, .createOrg 5 "acme" "Acme"),
      (seedManager, .getCursor "acme" "logistics" "doc-1")] .empty).1 := by
  have hreach : GatewayReachable Bytes oneCursorStore := by
    obtain ⟨l, hl, hstore⟩ := oneCursorStore_reachable
    exact ⟨l, fun p hp => .program (hl p hp), hstore⟩
  have hacme : oneCursorStore.uses "acme" .orgs = true := by decide +kernel
  have hempty : Redb.NoKeyOf .empty "acme" := by
    intro key T _
    cases T <;> simp [Redb.uses, Redb.empty]
  have hops : ∀ x ∈ [(seedManager, ManagerOp.getCursor "acme" "logistics" "doc-1")],
      x.2.orgId = some "acme" := by
    intro x hx
    rw [List.mem_singleton.mp hx]
    rfl
  obtain ⟨-, -, -, hserial⟩ := deleteOrg_complete seedManager hreach hacme
  exact ⟨hacme, hserial .empty hempty 5 "Acme" _ hops⟩

end PeatGateway
