import PeatGateway.Lib.Lockstep
import PeatGateway.Storage.Postgres
import PeatGateway.Tenant.Calls

/-!
# The rows of an organization on Postgres

On Postgres the id of the organization is a column of its own.  Which rows are those of an
organization does not depend on what its id looks like, and a statement about one organization
is a statement about its rows.

## Main definitions

* `StorageCall.orgId` — the organization a call is about.
* `Postgres.Keyed` — records lie under their own keys.
* `Postgres.SameRows` — two stores have the same rows of an organization.
* `aboutSpec` — the calls about some of the organizations.

## Main results

* `Postgres.SameRows.exec` — **a call about an organization is answered from its rows**, and leaves
  the same rows.
* `Postgres.sameRows_exec` — **a call about another keeps them**.
* `ManagerOp.meets_about` — an operation makes calls about the organization it is addressed to.
-/

namespace PeatGateway

open Effect

/-! ### Calls about an organization -/

/-- The organization a call is about; listing all organizations is about none. -/
def StorageCall.orgId : StorageCall → Option String
  | .listOrgs => none
  | .createOrg org | .updateOrg org => some org.orgId
  | .createToken t | .updateToken t => some t.orgId
  | .createSink k | .updateSink k => some k.orgId
  | .createIdp i | .updateIdp i => some i.orgId
  | .createPolicyRule r => some r.orgId
  | .appendAudit e => some e.orgId
  | .getOrg orgId | .deleteOrg orgId | .createFormation orgId _ | .getFormation orgId _
  | .listFormations orgId | .deleteFormation orgId _ | .getToken orgId _ | .listTokens orgId _
  | .deleteToken orgId _ | .getSink orgId _ | .listSinks orgId | .deleteSink orgId _
  | .getIdp orgId _ | .listIdps orgId | .deleteIdp orgId _ | .listPolicyRules orgId
  | .deletePolicyRule orgId _ | .listAudit orgId _ _ | .storeGenesis orgId _ _
  | .getGenesis orgId _ | .deleteGenesis orgId _ | .getCursor orgId _ _
  | .setCursor orgId _ _ _ => some orgId

/-- A record that is read, to be written back, is one of the organization that was asked for. -/
def orgRead : (c : StorageCall) → c.Res → Prop
  | .getOrg orgId, r => ∀ o, r = some o → o.orgId = orgId
  | .getToken orgId _, r => ∀ t, r = some t → t.orgId = orgId
  | .getSink orgId _, r => ∀ k, r = some k → k.orgId = orgId
  | .getIdp orgId _, r => ∀ i, r = some i → i.orgId = orgId
  | _, _ => True

/-- The calls about some of the organizations. -/
def aboutSpec (about : Option String → Prop) : Spec Storage :=
  ⟨fun c => about (StorageCall.orgId c), orgRead⟩

/-- An operation makes calls about the organization it is addressed to. -/
theorem ManagerOp.meets_about {G : Type} (mgr : TenantManager G) {about : Option String → Prop}
    {op : ManagerOp} (hop : about op.orgId) :
    (op.prog mgr).Meets (aboutSpec about) fun _ => True := by
  apply ManagerOp.meets_of_needs
  cases op
  -- A record that was looked up is one of the organization that was asked for.
  case updateOrg =>
    refine ⟨hop, ?_⟩
    intro org horg
    obtain rfl := horg org rfl
    exact hop
  case revokeToken | validateAndConsumeToken | toggleSink | toggleIdp =>
    refine ⟨hop, ?_⟩
    intro x hx
    obtain rfl := hx x rfl
    exact hop
  all_goals
    simp only [ManagerOp.orgId] at hop
    simp +contextual [Needs, Spec.Finds, aboutSpec, StorageCall.orgId, hop]

/-! ### Records under their own keys -/

namespace Postgres

/-- The records that are read to be written back lie under their own keys. -/
structure Keyed (s : Postgres) : Prop where
  orgs : s.orgs.Keyed fun o => o.orgId
  tokens : s.tokens.Keyed fun t => (t.orgId, t.tokenId)
  sinks : s.sinks.Keyed fun k => (k.orgId, k.sinkId)
  idps : s.idps.Keyed fun i => (i.orgId, i.idpId)

theorem keyed_empty : Postgres.empty.Keyed :=
  ⟨Rows.keyed_empty, Rows.keyed_empty, Rows.keyed_empty, Rows.keyed_empty⟩

/-- **Every call leaves records under their own keys.** -/
theorem Keyed.exec {s : Postgres} (h : s.Keyed) (c : StorageCall) :
    (Postgres.exec c s).2.Keyed := by
  cases c with
  | createOrg org =>
    refine commit_ind h ?_
    intro t ht
    split at ht
    · cases ht
    · next t' hins =>
      obtain rfl := Except.ok.inj ht
      exact { h with orgs := h.orgs.insert hins }
  | updateOrg org => exact { h with orgs := h.orgs.update org }
  | deleteOrg orgId =>
    change (if (s.orgs.select orgId).isSome = true then s.deleteOrg orgId else s).Keyed
    split
    · exact ⟨h.orgs.deleteWhere _, h.tokens.deleteWhere _, h.sinks.deleteWhere _,
        h.idps.deleteWhere _⟩
    · exact h
  | createToken t =>
    exact commit_ind h fun ts hts => { h with tokens := h.tokens.insert (insertChild_eq_ok hts).1 }
  | updateToken t => exact { h with tokens := h.tokens.update t }
  | deleteToken orgId tokenId => exact { h with tokens := h.tokens.deleteWhere _ }
  | createSink k =>
    exact commit_ind h fun ks hks => { h with sinks := h.sinks.insert (insertChild_eq_ok hks).1 }
  | updateSink k => exact { h with sinks := h.sinks.update k }
  | deleteSink orgId sinkId => exact { h with sinks := h.sinks.deleteWhere _ }
  | createIdp i =>
    exact commit_ind h fun is his => { h with idps := h.idps.insert (insertChild_eq_ok his).1 }
  | updateIdp i => exact { h with idps := h.idps.update i }
  | deleteIdp orgId idpId => exact { h with idps := h.idps.deleteWhere _ }
  | createFormation _ _ | createPolicyRule _ | appendAudit _ | storeGenesis _ _ _
  | setCursor _ _ _ _ => exact commit_ind h fun _ _ => { h with }
  | _ => exact { h with }

/-- What is read is a record of the organization that was asked for. -/
theorem Keyed.orgRead {s : Postgres} (h : s.Keyed) (c : StorageCall) :
    ∀ x, (Postgres.exec c s).1 = .ok x → PeatGateway.orgRead c x := by
  intro x hx
  cases c with
  | getOrg orgId =>
    cases hx
    exact fun o ho => (h.orgs _ _ ho).symm
  | getToken orgId tokenId =>
    cases hx
    exact fun t ht => (congrArg Prod.fst (h.tokens _ _ ht)).symm
  | getSink orgId sinkId =>
    cases hx
    exact fun k hk => (congrArg Prod.fst (h.sinks _ _ hk)).symm
  | getIdp orgId idpId =>
    cases hx
    exact fun i hi => (congrArg Prod.fst (h.idps _ _ hi)).symm
  | _ => trivial

/-! ### The rows of an organization -/

/-- The stores have the same rows of the organization, each relation in the same order. -/
structure SameRows (A : String) (s s' : Postgres) : Prop where
  orgs : Rows.AgreeOn (· == A) s.orgs s'.orgs
  formations : Rows.AgreeOn (·.1 == A) s.formations s'.formations
  tokens : Rows.AgreeOn (·.1 == A) s.tokens s'.tokens
  sinks : Rows.AgreeOn (·.1 == A) s.sinks s'.sinks
  cursors : Rows.AgreeOn (·.1 == A) s.cursors s'.cursors
  idps : Rows.AgreeOn (·.1 == A) s.idps s'.idps
  policyRules : Rows.AgreeOn (·.1 == A) s.policyRules s'.policyRules
  genesis : Rows.AgreeOn (·.1 == A) s.genesis s'.genesis
  audit : Rows.AgreeOn (·.1 == A) s.audit s'.audit

namespace SameRows

variable {A : String} {s s' s'' : Postgres}

theorem refl (A : String) (s : Postgres) : s.SameRows A s :=
  ⟨.refl _ _, .refl _ _, .refl _ _, .refl _ _, .refl _ _, .refl _ _, .refl _ _, .refl _ _,
    .refl _ _⟩

theorem trans (h : s.SameRows A s') (h' : s'.SameRows A s'') : s.SameRows A s'' where
  orgs := h.orgs.trans h'.orgs
  formations := h.formations.trans h'.formations
  tokens := h.tokens.trans h'.tokens
  sinks := h.sinks.trans h'.sinks
  cursors := h.cursors.trans h'.cursors
  idps := h.idps.trans h'.idps
  policyRules := h.policyRules.trans h'.policyRules
  genesis := h.genesis.trans h'.genesis
  audit := h.audit.trans h'.audit

/-- The organization exists in both stores or in neither. -/
theorem org (h : s.SameRows A s') : s'.orgs.select A = s.orgs.select A :=
  h.orgs.select (beq_self_eq_true A)

theorem deleteOrg (h : s.SameRows A s') (o : String) :
    (s.deleteOrg o).SameRows A (s'.deleteOrg o) where
  orgs := h.orgs.deleteWhere _
  formations := h.formations.deleteWhere _
  tokens := h.tokens.deleteWhere _
  sinks := h.sinks.deleteWhere _
  cursors := h.cursors.deleteWhere _
  idps := h.idps.deleteWhere _
  policyRules := h.policyRules.deleteWhere _
  genesis := h.genesis.deleteWhere _
  audit := h.audit.deleteWhere _

/-- A page of the log is made of rows of the organization. -/
theorem listAudit (h : s.SameRows A s') (appId : Option String) (limit : UInt64) :
    s'.listAudit A appId limit = s.listAudit A appId limit := by
  have hrow : ∀ r : (String × String) × AuditRow,
      (r.1.1 == A && appId.all (r.2.appId == ·)) = true → (r.1.1 == A) = true :=
    fun r hr => (Bool.and_eq_true_iff.mp hr).1
  unfold Postgres.listAudit Postgres.auditRows
  rw [h.audit.filter hrow]

section Child

variable {κ V T : Type} [DecidableEq κ] {p : κ → Bool} {t t' : Rows κ V} {k : κ}

/-- A row of the organization is accepted by both stores, or rejected alike. -/
theorem insertChild (h : s.SameRows A s') (ht : Rows.AgreeOn p t t') (hk : p k = true)
    (table : String) (v : V) :
    Outcomes Eq (Rows.AgreeOn p) (s.insertChild table t A k v) (s'.insertChild table t' A k v) := by
  have hrel := ht.insert hk v
  unfold Postgres.insertChild
  rw [h.org]
  generalize t.insert k v = o at hrel ⊢
  generalize t'.insert k v = o' at hrel ⊢
  cases hrel with
  | none => exact .error rfl
  | some h₁ =>
    dsimp only
    split
    · exact .ok h₁
    · exact .error rfl

theorem upsertChild (h : s.SameRows A s') (ht : Rows.AgreeOn p t t') (hk : p k = true)
    (table : String) (v : V) :
    Outcomes Eq (Rows.AgreeOn p) (s.upsertChild table t A k v) (s'.upsertChild table t' A k v) := by
  unfold Postgres.upsertChild
  rw [h.org, ht.select hk]
  split
  · exact .ok (ht.upsert hk v)
  · exact .error rfl

/-- Statements that end alike leave the same rows. -/
theorem commit (h : s.SameRows A s') {V : T → T → Prop} {r r' : Except Error T}
    {f f' : T → Postgres} (hr : Outcomes Eq V r r')
    (hf : ∀ t t', V t t' → (f t).SameRows A (f' t')) :
    (s'.commit r' f').1 = (s.commit r f).1 ∧ (s.commit r f).2.SameRows A (s'.commit r' f').2 := by
  cases hr with
  | ok ht => exact ⟨rfl, hf _ _ ht⟩
  | error he =>
    obtain rfl := he
    exact ⟨rfl, h⟩

end Child

/-- **A call about the organization is answered from its rows, and leaves the same rows.** -/
theorem exec (h : s.SameRows A s') {c : StorageCall} (hc : c.orgId = some A) :
    (Postgres.exec c s').1 = (Postgres.exec c s).1 ∧
      (Postgres.exec c s).2.SameRows A (Postgres.exec c s').2 := by
  have hself : (A == A) = true := beq_self_eq_true A
  cases c <;> cases hc
  case createOrg org =>
    have hrel := h.orgs.insert hself org
    refine h.commit (V := Rows.AgreeOn (· == org.orgId)) ?_ fun _ _ ht => { h with orgs := ht }
    generalize s.orgs.insert org.orgId org = o at hrel ⊢
    generalize s'.orgs.insert org.orgId org = o' at hrel ⊢
    cases hrel with
    | none => exact .error rfl
    | some ht => exact .ok ht
  case deleteOrg =>
    simp only [Postgres.exec, h.org, true_and]
    split
    · exact h.deleteOrg A
    · exact h
  -- A row is accepted by both stores or by neither.
  case createFormation f =>
    exact h.commit (h.insertChild h.formations hself _ f) fun _ _ ht => { h with formations := ht }
  case createToken t =>
    exact h.commit (h.insertChild h.tokens hself _ t) fun _ _ ht => { h with tokens := ht }
  case createSink k =>
    exact h.commit (h.insertChild h.sinks hself _ k) fun _ _ ht => { h with sinks := ht }
  case createIdp i =>
    exact h.commit (h.insertChild h.idps hself _ i) fun _ _ ht => { h with idps := ht }
  case createPolicyRule r =>
    exact h.commit (h.insertChild h.policyRules hself _ r) fun _ _ ht =>
      { h with policyRules := ht }
  case appendAudit e =>
    exact h.commit (h.insertChild h.audit hself _ _) fun _ _ ht => { h with audit := ht }
  case storeGenesis a b =>
    exact h.commit (h.upsertChild h.genesis hself _ b) fun _ _ ht => { h with genesis := ht }
  case setCursor a d v =>
    exact h.commit (h.upsertChild h.cursors hself _ v) fun _ _ ht => { h with cursors := ht }
  case updateOrg org => exact ⟨rfl, { h with orgs := h.orgs.update _ _ }⟩
  case updateToken t => exact ⟨rfl, { h with tokens := h.tokens.update _ _ }⟩
  case updateSink k => exact ⟨rfl, { h with sinks := h.sinks.update _ _ }⟩
  case updateIdp i => exact ⟨rfl, { h with idps := h.idps.update _ _ }⟩
  -- The answer tells whether there was a row.
  case deleteFormation a =>
    exact ⟨congrArg (fun o => Except.ok (Option.isSome o)) (h.formations.select hself),
      { h with formations := h.formations.deleteWhere _ }⟩
  case deleteToken x =>
    exact ⟨congrArg (fun o => Except.ok (Option.isSome o)) (h.tokens.select hself),
      { h with tokens := h.tokens.deleteWhere _ }⟩
  case deleteSink x =>
    exact ⟨congrArg (fun o => Except.ok (Option.isSome o)) (h.sinks.select hself),
      { h with sinks := h.sinks.deleteWhere _ }⟩
  case deleteIdp x =>
    exact ⟨congrArg (fun o => Except.ok (Option.isSome o)) (h.idps.select hself),
      { h with idps := h.idps.deleteWhere _ }⟩
  case deletePolicyRule x =>
    exact ⟨congrArg (fun o => Except.ok (Option.isSome o)) (h.policyRules.select hself),
      { h with policyRules := h.policyRules.deleteWhere _ }⟩
  case deleteGenesis a =>
    exact ⟨congrArg (fun o => Except.ok (Option.isSome o)) (h.genesis.select hself),
      { h with genesis := h.genesis.deleteWhere _ }⟩
  -- A query selects among the rows.
  case getOrg => exact ⟨congrArg Except.ok h.org, h⟩
  case getFormation a => exact ⟨congrArg Except.ok (h.formations.select hself), h⟩
  case listFormations => exact ⟨congrArg Except.ok (h.formations.orderBy (fun _ hk => hk) _), h⟩
  case getToken x => exact ⟨congrArg Except.ok (h.tokens.select hself), h⟩
  case listTokens a =>
    have hrows : s'.tokens.orderBy (·.1 == A) Prod.snd = s.tokens.orderBy (·.1 == A) Prod.snd :=
      h.tokens.orderBy (fun _ hk => hk) _
    refine ⟨?_, h⟩
    simp only [Postgres.exec, hrows]
  case getSink x => exact ⟨congrArg Except.ok (h.sinks.select hself), h⟩
  case listSinks => exact ⟨congrArg Except.ok (h.sinks.orderBy (fun _ hk => hk) _), h⟩
  case getIdp x => exact ⟨congrArg Except.ok (h.idps.select hself), h⟩
  case listIdps => exact ⟨congrArg Except.ok (h.idps.orderBy (fun _ hk => hk) _), h⟩
  case listPolicyRules => exact ⟨congrArg Except.ok (h.policyRules.orderBy (fun _ hk => hk) _), h⟩
  case listAudit a limit => exact ⟨h.listAudit a limit, h⟩
  case getGenesis a => exact ⟨congrArg Except.ok (h.genesis.select hself), h⟩
  case getCursor a d => exact ⟨congrArg Except.ok (h.cursors.select hself), h⟩

end SameRows

/-! ### The rows of the others -/

section Others

/-- A row that is written at another key, if it is written. -/
theorem agreeOn_upsertChild {κ V : Type} [DecidableEq κ] {s : Postgres} {table orgId : String}
    {t t' : Rows κ V} {k : κ} {v : V} {p : κ → Bool}
    (ht : s.upsertChild table t orgId k v = .ok t') (hk : p k = false) : Rows.AgreeOn p t t' := by
  unfold Postgres.upsertChild at ht
  split at ht
  · obtain rfl := Except.ok.inj ht
    exact Rows.agreeOn_upsert t v hk
  · cases ht

variable {A o : String} (hoA : o ≠ A)

include hoA

theorem sameRows_deleteOrg (s : Postgres) : s.SameRows A (s.deleteOrg o) := by
  have hcol : ∀ x, (x == o) = true → (x == A) = false := by
    intro x hx
    rw [beq_iff_eq.mp hx, beq_eq_false_iff_ne]
    exact hoA
  exact {
    orgs := Rows.agreeOn_deleteWhere _ hcol
    formations := Rows.agreeOn_deleteWhere _ fun _ => hcol _
    tokens := Rows.agreeOn_deleteWhere _ fun _ => hcol _
    sinks := Rows.agreeOn_deleteWhere _ fun _ => hcol _
    cursors := Rows.agreeOn_deleteWhere _ fun _ => hcol _
    idps := Rows.agreeOn_deleteWhere _ fun _ => hcol _
    policyRules := Rows.agreeOn_deleteWhere _ fun _ => hcol _
    genesis := Rows.agreeOn_deleteWhere _ fun _ => hcol _
    audit := Rows.agreeOn_deleteWhere _ fun _ => hcol _ }

/-- **A call about another organization keeps the rows.** -/
theorem sameRows_exec (s : Postgres) {c : StorageCall} (hc : c.orgId = some o) :
    s.SameRows A (Postgres.exec c s).2 := by
  have hrow : (o == A) = false := beq_eq_false_iff_ne.mpr hoA
  cases c <;> cases hc
  case createOrg org =>
    refine commit_ind (.refl A s) ?_
    intro t ht
    split at ht
    · cases ht
    · next t' hins =>
      obtain rfl := Except.ok.inj ht
      exact { SameRows.refl A s with orgs := Rows.agreeOn_insert hins hrow }
  case updateOrg org => exact { SameRows.refl A s with orgs := Rows.agreeOn_update _ _ hrow }
  case deleteOrg =>
    simp only [Postgres.exec]
    split
    · exact sameRows_deleteOrg hoA s
    · exact .refl A s
  case createFormation f =>
    exact commit_ind (.refl A s) fun _ ht => { SameRows.refl A s with
      formations := Rows.agreeOn_insert (insertChild_eq_ok ht).1 hrow }
  case createToken t =>
    exact commit_ind (.refl A s) fun _ ht => { SameRows.refl A s with
      tokens := Rows.agreeOn_insert (insertChild_eq_ok ht).1 hrow }
  case createSink k =>
    exact commit_ind (.refl A s) fun _ ht => { SameRows.refl A s with
      sinks := Rows.agreeOn_insert (insertChild_eq_ok ht).1 hrow }
  case createIdp i =>
    exact commit_ind (.refl A s) fun _ ht => { SameRows.refl A s with
      idps := Rows.agreeOn_insert (insertChild_eq_ok ht).1 hrow }
  case createPolicyRule r =>
    exact commit_ind (.refl A s) fun _ ht => { SameRows.refl A s with
      policyRules := Rows.agreeOn_insert (insertChild_eq_ok ht).1 hrow }
  case appendAudit e =>
    exact commit_ind (.refl A s) fun _ ht => { SameRows.refl A s with
      audit := Rows.agreeOn_insert (insertChild_eq_ok ht).1 hrow }
  case storeGenesis a b =>
    exact commit_ind (.refl A s) fun _ ht => { SameRows.refl A s with
      genesis := agreeOn_upsertChild ht hrow }
  case setCursor a d v =>
    exact commit_ind (.refl A s) fun _ ht => { SameRows.refl A s with
      cursors := agreeOn_upsertChild ht hrow }
  case updateToken t => exact { SameRows.refl A s with tokens := Rows.agreeOn_update _ _ hrow }
  case updateSink k => exact { SameRows.refl A s with sinks := Rows.agreeOn_update _ _ hrow }
  case updateIdp i => exact { SameRows.refl A s with idps := Rows.agreeOn_update _ _ hrow }
  case deleteFormation a =>
    exact { SameRows.refl A s with formations := Rows.agreeOn_delete _ hrow }
  case deleteToken x => exact { SameRows.refl A s with tokens := Rows.agreeOn_delete _ hrow }
  case deleteSink x => exact { SameRows.refl A s with sinks := Rows.agreeOn_delete _ hrow }
  case deleteIdp x => exact { SameRows.refl A s with idps := Rows.agreeOn_delete _ hrow }
  case deletePolicyRule x =>
    exact { SameRows.refl A s with policyRules := Rows.agreeOn_delete _ hrow }
  case deleteGenesis a => exact { SameRows.refl A s with genesis := Rows.agreeOn_delete _ hrow }
  all_goals exact .refl A s

end Others

end Postgres

end PeatGateway
