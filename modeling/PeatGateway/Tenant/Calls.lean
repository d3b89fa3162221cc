import PeatGateway.Tenant.Ops

/-!
# What an operation asks of the store

What there is to show of the calls of an operation depends on the calls, and, for those that write,
on what has been checked and read before.  Both are said here once for each operation.

## Main definitions

* `Spec.Finds` — a record may be looked up, and something holds of it if it is found.
* `ManagerOp.Needs` — what a specification has to allow an operation.
* `ManagerOp.isRead` — the operations that read.

## Main results

* `ManagerOp.meets_of_needs` — **an operation that is allowed what it needs meets the
  specification**.
* `ManagerOp.meets_of_isRead` — one that reads makes reading calls.
-/

namespace PeatGateway

open Effect

/-- The record may be looked up, and `P` holds of it if it is found. -/
def Spec.Finds {α : Type} (Φ : Spec Storage) (c : StorageCall) (found : α → c.Res)
    (P : α → Prop) : Prop :=
  Φ.pre c ∧ ∀ a, Φ.post c (found a) → P a

/-- What the specification has to allow the operation: its calls, those that write under the
conditions that are checked before, and for the record that is looked up before. -/
def ManagerOp.Needs (Φ : Spec Storage) : ManagerOp → Prop
  | createOrg now orgId name =>
    validateIdentifier orgId "org_id" = .ok () → validateDisplayName name = .ok () →
      Φ.pre (.getOrg orgId) ∧ Φ.pre (.createOrg ⟨orgId, name, .default, now⟩)
  | getOrg orgId => Φ.pre (.getOrg orgId)
  | listOrgs => Φ.pre .listOrgs
  | updateOrg orgId name quotas => Spec.Finds Φ (.getOrg orgId) some fun org =>
    Φ.pre (.updateOrg { org with
      displayName := name.getD org.displayName, quotas := quotas.getD org.quotas })
  | deleteOrg orgId => Φ.pre (.deleteOrg orgId)
  | createFormation _ orgId appId _ =>
    validateIdentifier appId "app_id" = .ok () → Spec.Finds Φ (.getOrg orgId) some fun _ =>
      Φ.pre (.listFormations orgId) ∧ Φ.pre (.getFormation orgId appId) ∧
      (∀ f, f.appId = appId → Φ.pre (.createFormation orgId f)) ∧
      ∀ stored, Φ.pre (.storeGenesis orgId appId stored)
  | getFormation orgId appId => Φ.pre (.getFormation orgId appId)
  | listFormations orgId => Φ.pre (.getOrg orgId) ∧ Φ.pre (.listFormations orgId)
  | deleteFormation orgId appId =>
    Φ.pre (.deleteFormation orgId appId) ∧ Φ.pre (.deleteGenesis orgId appId)
  | loadGenesis _ orgId appId => Φ.pre (.getGenesis orgId appId)
  | countRecentEnrollments orgId _ => Φ.pre (.listAudit orgId none 0xFFFFFFFFFFFFFFFF)
  | createToken _ _ orgId appId label _ _ =>
    validateNonEmpty label "label" = .ok () → Spec.Finds Φ (.getOrg orgId) some fun _ =>
      Φ.pre (.getFormation orgId appId) ∧
      ∀ t, t.orgId = orgId → t.label = label → Φ.pre (.createToken t)
  | getToken orgId tokenId => Φ.pre (.getToken orgId tokenId)
  | listTokens orgId appId => Φ.pre (.getOrg orgId) ∧ Φ.pre (.getFormation orgId appId) ∧
    Φ.pre (.listTokens orgId appId)
  | revokeToken orgId tokenId => Spec.Finds Φ (.getToken orgId tokenId) some fun t =>
    Φ.pre (.updateToken { t with revoked := true })
  | deleteToken orgId tokenId => Φ.pre (.deleteToken orgId tokenId)
  | validateAndConsumeToken _ orgId _ tokenId =>
    Spec.Finds Φ (.getToken orgId tokenId) some fun t =>
      Φ.pre (.updateToken { t with uses := t.uses + 1 })
  | createSink _ _ orgId sinkType =>
    validateSinkType sinkType = .ok () → Spec.Finds Φ (.getOrg orgId) some fun _ =>
      Φ.pre (.listSinks orgId) ∧
      ∀ k, k.orgId = orgId → k.sinkType = sinkType → Φ.pre (.createSink k)
  | getSink orgId sinkId => Φ.pre (.getSink orgId sinkId)
  | listSinks orgId => Φ.pre (.getOrg orgId) ∧ Φ.pre (.listSinks orgId)
  | toggleSink orgId sinkId enabled => Spec.Finds Φ (.getSink orgId sinkId) some fun k =>
    Φ.pre (.updateSink { k with enabled })
  | deleteSink orgId sinkId => Φ.pre (.deleteSink orgId sinkId)
  | getCursor orgId appId documentId => Φ.pre (.getCursor orgId appId documentId)
  | setCursor orgId appId documentId changeHash =>
    Φ.pre (.setCursor orgId appId documentId changeHash)
  | createIdp _ _ orgId issuerUrl clientId clientSecret =>
    validateIssuerUrl issuerUrl = .ok () → validateNonEmpty clientId "client_id" = .ok () →
      validateNonEmpty clientSecret "client_secret" = .ok () →
      Spec.Finds Φ (.getOrg orgId) some fun _ =>
        ∀ i, i.orgId = orgId → i.issuerUrl = issuerUrl → i.clientId = clientId →
          i.clientSecret = clientSecret → Φ.pre (.createIdp i)
  | getIdp orgId idpId => Φ.pre (.getIdp orgId idpId)
  | listIdps orgId => Φ.pre (.getOrg orgId) ∧ Φ.pre (.listIdps orgId)
  | toggleIdp orgId idpId enabled => Spec.Finds Φ (.getIdp orgId idpId) some fun i =>
    Φ.pre (.updateIdp { i with enabled })
  | deleteIdp orgId idpId => Φ.pre (.deleteIdp orgId idpId)
  | createPolicyRule _ orgId _ _ _ _ _ => Spec.Finds Φ (.getOrg orgId) some fun _ =>
    ∀ r, r.orgId = orgId → Φ.pre (.createPolicyRule r)
  | listPolicyRules orgId => Φ.pre (.getOrg orgId) ∧ Φ.pre (.listPolicyRules orgId)
  | deletePolicyRule orgId ruleId => Φ.pre (.deletePolicyRule orgId ruleId)
  | appendAudit entry => Φ.pre (.appendAudit entry)
  | listAudit orgId appId limit => Φ.pre (.getOrg orgId) ∧ Φ.pre (.listAudit orgId appId limit)

/-- The operations that only read. -/
def ManagerOp.isRead : ManagerOp → Bool
  | .getOrg _ | .listOrgs | .getFormation _ _ | .listFormations _ | .loadGenesis _ _ _
  | .countRecentEnrollments _ _ | .getToken _ _ | .listTokens _ _ | .getSink _ _
  | .listSinks _ | .getCursor _ _ _ | .getIdp _ _ | .listIdps _ | .listPolicyRules _
  | .listAudit _ _ _ => true
  | _ => false

section Needs

variable {Φ : Spec Storage} {P : Organization → Prop}

/-- An organization that may be looked up. -/
theorem meets_getOrg_of_finds {orgId : String} (h : Spec.Finds Φ (.getOrg orgId) some P) :
    (TenantManager.getOrg orgId).Meets Φ P := by
  simp only [TenantManager.getOrg, Prog.meets_bind, meets_store, Prog.meets_okOrElse]
  refine ⟨h.1, ?_⟩
  rintro _ hr org rfl
  exact h.2 org hr

theorem meets_getOrg_of_pre {orgId : String} (h : Φ.pre (.getOrg orgId)) :
    (TenantManager.getOrg orgId).Meets Φ fun _ => True :=
  meets_getOrg_of_finds ⟨h, fun _ _ => trivial⟩

/-- **An operation that is allowed what it needs meets the specification.** -/
theorem ManagerOp.meets_of_needs {G : Type} (mgr : TenantManager G) {op : ManagerOp}
    (h : op.Needs Φ) : (op.prog mgr).Meets Φ fun _ => True := by
  cases op <;> simp only [ManagerOp.prog, Prog.meets_map]
  case createOrg =>
    simp only [TenantManager.createOrg, Prog.meets_bind, Prog.meets_ofExcept, meets_store,
      Prog.meets_ensure, Prog.meets_pure]
    intro _ hid _ hname
    exact ⟨(h hid hname).1, fun _ _ _ => ⟨(h hid hname).2, fun _ _ => trivial⟩⟩
  case updateOrg =>
    simp only [TenantManager.updateOrg, Prog.meets_bind, meets_store, Prog.meets_pure]
    exact (meets_getOrg_of_finds h).mono fun org horg => ⟨horg, fun _ _ => trivial⟩
  case createFormation =>
    simp only [TenantManager.createFormation, Prog.meets_bind, Prog.meets_ofExcept, meets_store,
      Prog.meets_ensure, Prog.meets_pure]
    intro _ happ
    refine (meets_getOrg_of_finds (h happ)).mono ?_
    rintro org ⟨hlist, hget, hcreate, hgenesis⟩
    exact ⟨hlist, fun _ _ _ => ⟨hget, fun _ _ _ stored _ => ⟨hcreate _ rfl, fun _ _ =>
      ⟨hgenesis stored, fun _ _ => trivial⟩⟩⟩⟩
  case createToken =>
    simp only [TenantManager.createToken, TenantManager.getFormation, Prog.meets_bind,
      Prog.meets_ofExcept, meets_store, Prog.meets_okOrElse, Prog.meets_pure]
    intro _ hlabel
    refine (meets_getOrg_of_finds (h hlabel)).mono ?_
    rintro org ⟨hget, hcreate⟩
    exact ⟨hget, fun _ _ _ _ => ⟨hcreate _ rfl rfl, fun _ _ => trivial⟩⟩
  case createSink =>
    simp only [TenantManager.createSink, Prog.meets_bind, Prog.meets_ofExcept, meets_store,
      Prog.meets_ensure, Prog.meets_pure]
    intro _ htype
    refine (meets_getOrg_of_finds (h htype)).mono ?_
    rintro org ⟨hlist, hcreate⟩
    exact ⟨hlist, fun _ _ _ => ⟨hcreate _ rfl rfl, fun _ _ => trivial⟩⟩
  case createIdp =>
    simp only [TenantManager.createIdp, Prog.meets_bind, Prog.meets_ofExcept, meets_store,
      Prog.meets_pure]
    intro _ hurl _ hclient _ hsecret
    refine (meets_getOrg_of_finds (h hurl hclient hsecret)).mono ?_
    exact fun org hcreate => ⟨hcreate _ rfl rfl rfl rfl, fun _ _ => trivial⟩
  case createPolicyRule =>
    simp only [TenantManager.createPolicyRule, Prog.meets_bind, meets_store, Prog.meets_pure]
    exact (meets_getOrg_of_finds h).mono fun org hcreate => ⟨hcreate _ rfl, fun _ _ => trivial⟩
  case listFormations | listSinks | listIdps | listPolicyRules | listAudit =>
    simp only [TenantManager.listFormations, TenantManager.listSinks, TenantManager.listIdps,
      TenantManager.listPolicyRules, TenantManager.listAudit, Prog.meets_bind, meets_store]
    exact (meets_getOrg_of_pre h.1).mono fun _ _ => ⟨h.2, fun _ _ => trivial⟩
  case listTokens =>
    simp only [TenantManager.listTokens, TenantManager.getFormation, Prog.meets_bind, meets_store,
      Prog.meets_okOrElse]
    refine (meets_getOrg_of_pre h.1).mono fun _ _ => ⟨h.2.1, ?_⟩
    exact fun _ _ _ _ => ⟨h.2.2, fun _ _ => trivial⟩
  -- the record that was found is written back
  case revokeToken | validateAndConsumeToken =>
    simp only [TenantManager.revokeToken, TenantManager.validateAndConsumeToken,
      TenantManager.getToken, Prog.meets_bind, meets_store, Prog.meets_okOrElse, Prog.meets_ensure,
      Prog.meets_pure]
    refine ⟨h.1, ?_⟩
    rintro _ hr t rfl
    simp only [h.2 t hr, true_and, imp_true_iff]
  case toggleSink | toggleIdp =>
    simp only [TenantManager.toggleSink, TenantManager.getSink, TenantManager.toggleIdp,
      TenantManager.getIdp, Prog.meets_bind, meets_store, Prog.meets_okOrElse, Prog.meets_pure]
    refine ⟨h.1, ?_⟩
    rintro _ hr k rfl
    exact ⟨h.2 k hr, fun _ _ => trivial⟩
  case deleteFormation =>
    simp only [TenantManager.deleteFormation, Prog.meets_bind, meets_store, Prog.meets_ensure,
      Prog.meets_attempt, Prog.meets_pure]
    exact ⟨h.1, fun _ _ _ => ⟨h.2, fun _ => trivial, fun _ _ => trivial⟩⟩
  -- the others make one call
  all_goals
    simpa [Needs, TenantManager.getOrg, TenantManager.listOrgs, TenantManager.deleteOrg,
      TenantManager.getFormation, TenantManager.loadGenesis, TenantManager.countRecentEnrollments,
      TenantManager.getToken, TenantManager.deleteToken, TenantManager.getSink,
      TenantManager.deleteSink, TenantManager.getCursor, TenantManager.setCursor,
      TenantManager.getIdp, TenantManager.deleteIdp, TenantManager.deletePolicyRule,
      TenantManager.appendAudit] using h

/-- A reading operation makes reading calls. -/
theorem ManagerOp.meets_of_isRead {G : Type} (mgr : TenantManager G) {op : ManagerOp}
    (hop : op.isRead = true) (hread : ∀ c : StorageCall, c.isRead = true → Φ.pre c) :
    (op.prog mgr).Meets Φ fun _ => True := by
  apply meets_of_needs
  cases op
  case listTokens => exact ⟨hread _ rfl, hread _ rfl, hread _ rfl⟩
  case listFormations | listSinks | listIdps | listPolicyRules | listAudit =>
    exact ⟨hread _ rfl, hread _ rfl⟩
  all_goals first | exact hread _ rfl | exact (Bool.false_ne_true hop).elim

end Needs

end PeatGateway
