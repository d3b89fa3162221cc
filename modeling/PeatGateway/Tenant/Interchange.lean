import PeatGateway.Storage.Interchange
import PeatGateway.Tenant.Keyed

/-!
# The manager on either backend

A serial run of operations returns the same at every step on redb and on Postgres: the
manager looks before it inserts and reads what it updates, so every call it makes is
portable.

## Main definitions

* `ManagerOp.strings`, `ManagerOp.Portable` — what is asked of an operation.
* `serial` — a run of operations, one after the other.

## Main results

* `ManagerOp.along_portable` — every call of a portable operation is portable.
* `serial_interchange` — **the backends are interchangeable**.
-/

namespace PeatGateway

open Effect Text Wire

/-! ### Portable operations -/

/-- The strings of a sink type. -/
def CdcSinkType.strings : CdcSinkType → List String
  | .nats x | .kafka x | .webhook x => [x]

/-- The strings an operation is called with. -/
def ManagerOp.strings : ManagerOp → List String
  | .createOrg _ orgId name => [orgId, name]
  | .listOrgs => []
  | .getOrg orgId | .deleteOrg orgId | .listFormations orgId | .countRecentEnrollments orgId _
  | .listSinks orgId | .listIdps orgId | .listPolicyRules orgId => [orgId]
  | .updateOrg orgId name _ => orgId :: name.toList
  | .createFormation _ orgId x _ | .getFormation orgId x | .deleteFormation orgId x
  | .loadGenesis _ orgId x | .getToken orgId x | .listTokens orgId x | .revokeToken orgId x
  | .deleteToken orgId x | .getSink orgId x | .toggleSink orgId x _ | .deleteSink orgId x
  | .getIdp orgId x | .toggleIdp orgId x _ | .deleteIdp orgId x
  | .deletePolicyRule orgId x => [orgId, x]
  | .createToken _ _ orgId appId label _ _ => [orgId, appId, label]
  | .validateAndConsumeToken _ orgId appId tokenId => [orgId, appId, tokenId]
  | .createSink _ _ orgId sinkType => orgId :: sinkType.strings
  | .getCursor orgId appId documentId => [orgId, appId, documentId]
  | .setCursor orgId appId documentId changeHash => [orgId, appId, documentId, changeHash]
  | .createIdp _ _ orgId issuerUrl clientId clientSecret =>
    [orgId, issuerUrl, clientId, clientSecret]
  | .createPolicyRule _ orgId claimKey claimValue _ _ _ => [orgId, claimKey, claimValue]
  | .appendAudit e => [e.auditId, e.orgId, e.appId, e.idpId, e.subject]
  | .listAudit orgId appId _ => orgId :: appId.toList

/-- An operation that runs alike on both backends from the store `s`: its strings are free
of NUL, an id it draws is not in use, a cursor is set in an organization that exists, and
it does not concern the enrollment log. -/
def ManagerOp.Portable (s : Redb) (op : ManagerOp) : Prop :=
  (∀ x ∈ op.strings, NulFree x) ∧
    match op with
    | .createToken draw _ orgId _ _ _ _ =>
      s.tokens[tokenKey orgId ("peat_" ++ hexEncode draw.toList)]? = none
    | .createSink draw _ orgId _ => s.sinks[sinkKey orgId (hexEncode draw.toList)]? = none
    | .createIdp draw _ orgId _ _ _ => s.idps[idpKey orgId (hexEncode draw.toList)]? = none
    | .createPolicyRule draw orgId _ _ _ _ _ =>
      s.policyRules[policyRuleKey orgId (hexEncode draw.toList)]? = none
    | .setCursor orgId _ _ _ => s.orgs[orgId]?.isSome = true
    | .appendAudit _ | .listAudit _ _ _ | .countRecentEnrollments _ _ => False
    | _ => True

/-- Drawn ids hold no NUL. -/
theorem nulFree_hexEncode (bs : List UInt8) : NulFree (hexEncode bs) := by
  have hdigit : ∀ n < 16, hexDigit n ≠ '\x00' := by decide
  simp only [NulFree, Free, hexEncode, String.toList_ofList, List.mem_flatMap, List.mem_cons,
    List.not_mem_nil, or_false, not_exists, not_and, not_or]
  exact fun b _ => ⟨fun h => hdigit _ (by have := b.toNat_lt; omega) h.symm,
    fun h => hdigit _ (Nat.mod_lt _ (by decide)) h.symm⟩

theorem nulFree_tokenId (bs : List UInt8) : NulFree ("peat_" ++ hexEncode bs) := by
  rw [NulFree, Free, String.toList_append, List.mem_append, not_or]
  exact ⟨by decide, nulFree_hexEncode bs⟩

section Along

variable {s : Redb} {β : Type}

/-- What follows a look at the organization. -/
theorem along_getOrg_bind {orgId : String} (ho : NulFree orgId) {f : Organization → StoreProg β}
    (hf : ∀ o, s.orgs[orgId]? = some o → (f o).Along Redb.exec Portable s) :
    (TenantManager.getOrg orgId >>= f).Along Redb.exec Portable s := by
  simp only [TenantManager.getOrg, Prog.bind_assoc, along_store_bind, Prog.along_okOrElse_bind]
  refine ⟨ho, ?_⟩
  rintro _ ⟨⟩ o horg
  exact hf o horg

/-- What follows a look at a formation. -/
theorem along_getFormation_bind {orgId appId : String} (hp : PairFree (orgId, appId))
    {f : FormationConfig → StoreProg β} (hf : ∀ x, (f x).Along Redb.exec Portable s) :
    (TenantManager.getFormation orgId appId >>= f).Along Redb.exec Portable s := by
  simp only [TenantManager.getFormation, Prog.bind_assoc, along_store_bind,
    Prog.along_okOrElse_bind]
  exact ⟨hp, fun _ _ x _ => hf x⟩

variable (hs : s.Keyed)

include hs

/-- What follows a look at a token: it lies under its own ids. -/
theorem along_getToken_bind {orgId tokenId : String} (hp : PairFree (orgId, tokenId))
    {f : EnrollmentToken → StoreProg β}
    (hf : ∀ t, PairFree (t.orgId, t.tokenId) →
      s.tokens[tokenKey t.orgId t.tokenId]?.isSome = true → (f t).Along Redb.exec Portable s) :
    (TenantManager.getToken orgId tokenId >>= f).Along Redb.exec Portable s := by
  simp only [TenantManager.getToken, Prog.bind_assoc, along_store_bind, Prog.along_okOrElse_bind]
  refine ⟨hp, ?_⟩
  rintro _ ⟨⟩ t hget
  obtain ⟨rfl, rfl⟩ := hs.token_ids hp.1 hget
  exact hf t hp (Option.isSome_of_eq_some hget)

/-- What follows a look at a sink. -/
theorem along_getSink_bind {orgId sinkId : String} (hp : PairFree (orgId, sinkId))
    {f : CdcSinkConfig → StoreProg β}
    (hf : ∀ k, PairFree (k.orgId, k.sinkId) →
      s.sinks[sinkKey k.orgId k.sinkId]?.isSome = true → (f k).Along Redb.exec Portable s) :
    (TenantManager.getSink orgId sinkId >>= f).Along Redb.exec Portable s := by
  simp only [TenantManager.getSink, Prog.bind_assoc, along_store_bind, Prog.along_okOrElse_bind]
  refine ⟨hp, ?_⟩
  rintro _ ⟨⟩ k hget
  obtain ⟨rfl, rfl⟩ := hs.sink_ids hp.1 hget
  exact hf k hp (Option.isSome_of_eq_some hget)

/-- What follows a look at an identity provider. -/
theorem along_getIdp_bind {orgId idpId : String} (hp : PairFree (orgId, idpId))
    {f : IdpConfig → StoreProg β}
    (hf : ∀ i, PairFree (i.orgId, i.idpId) →
      s.idps[idpKey i.orgId i.idpId]?.isSome = true → (f i).Along Redb.exec Portable s) :
    (TenantManager.getIdp orgId idpId >>= f).Along Redb.exec Portable s := by
  simp only [TenantManager.getIdp, Prog.bind_assoc, along_store_bind, Prog.along_okOrElse_bind]
  refine ⟨hp, ?_⟩
  rintro _ ⟨⟩ i hget
  obtain ⟨rfl, rfl⟩ := hs.idp_ids hp.1 hget
  exact hf i hp (Option.isSome_of_eq_some hget)

/-- Every call of a portable operation is portable, in the state it is made in. -/
theorem ManagerOp.along_portable {G : Type} (mgr : TenantManager G) {op : ManagerOp}
    (hop : op.Portable s) : (op.prog mgr).Along Redb.exec PeatGateway.Portable s := by
  obtain ⟨hfree, hop⟩ := hop
  cases op
  case appendAudit => exact False.elim hop
  case listAudit => exact False.elim hop
  case countRecentEnrollments => exact False.elim hop
  all_goals
    simp only [ManagerOp.strings, List.mem_cons, List.not_mem_nil, or_false, forall_eq_or_imp,
      forall_eq] at hfree hop
  -- Those that read or delete: what they call is portable in any state.
  case getOrg | listOrgs | deleteOrg | getFormation | listFormations | deleteFormation |
      loadGenesis | getToken | listTokens | deleteToken | getSink | listSinks | deleteSink |
      getCursor | getIdp | listIdps | deleteIdp | listPolicyRules | deletePolicyRule =>
    let Φ : Spec Storage := ⟨fun c => ∀ s, PeatGateway.Portable c s, fun _ _ => True⟩
    have hsound : Φ.Sound Redb.exec fun _ => True :=
      fun _ _ _ _ => ⟨trivial, fun _ _ => trivial⟩
    refine ((ManagerOp.meets_of_needs mgr ?_).along hsound trivial).mono fun c s hc => hc s
    simp [Needs, Φ, PeatGateway.Portable, PairFree, TripleFree, hfree]
  all_goals simp only [ManagerOp.prog, Prog.map]
  -- Those that write: every write comes after the read that makes it portable.
  case createOrg =>
    simp only [TenantManager.createOrg, Prog.bind_assoc, Prog.along_ofExcept_bind,
      along_store_bind, Prog.along_ensure_bind]
    refine fun _ _ _ _ => ⟨hfree.1, ?_⟩
    rintro _ ⟨⟩ hnone
    exact ⟨⟨hfree.1, Option.isNone_iff_eq_none.mp hnone⟩, fun _ _ => Prog.along_done _ _⟩
  case updateOrg =>
    simp only [TenantManager.updateOrg, Prog.bind_assoc]
    apply along_getOrg_bind hfree.1
    intro o horg
    obtain ⟨-, rfl⟩ := hs.orgs _ _ horg
    rw [along_store_bind]
    exact ⟨⟨hfree.1, Option.isSome_of_eq_some horg⟩, fun _ _ => Prog.along_done _ _⟩
  case createFormation =>
    simp only [TenantManager.createFormation, Prog.bind_assoc, Prog.along_ofExcept_bind]
    refine fun _ _ => along_getOrg_bind hfree.1 ?_
    intro o horg
    simp only [along_store_bind, Prog.along_ensure_bind, Prog.along_ofExcept_bind]
    refine ⟨hfree.1, ?_⟩
    rintro _ ⟨⟩ -
    refine ⟨hfree, ?_⟩
    rintro _ ⟨⟩ hnone
    intro stored _
    have horg := Option.isSome_of_eq_some horg
    exact ⟨⟨hfree, horg, Option.isNone_iff_eq_none.mp hnone⟩, fun _ _ =>
      ⟨⟨hfree, horg⟩, fun _ _ => Prog.along_done _ _⟩⟩
  case createToken =>
    simp only [TenantManager.createToken, Prog.bind_assoc, Prog.along_ofExcept_bind]
    refine fun _ _ => along_getOrg_bind hfree.1 fun o horg =>
      along_getFormation_bind ⟨hfree.1, hfree.2.1⟩ ?_
    intro _
    rw [along_store_bind]
    exact ⟨⟨⟨hfree.1, nulFree_tokenId _⟩, Option.isSome_of_eq_some horg, hop⟩,
      fun _ _ => Prog.along_done _ _⟩
  case revokeToken =>
    simp only [TenantManager.revokeToken, Prog.bind_assoc]
    apply along_getToken_bind hs hfree
    intro t ht hget
    simp only [Prog.along_ensure_bind, along_store_bind]
    exact fun _ => ⟨⟨ht, hget⟩, fun _ _ => Prog.along_done _ _⟩
  case validateAndConsumeToken =>
    simp only [TenantManager.validateAndConsumeToken, Prog.bind_assoc]
    refine along_getToken_bind hs ⟨hfree.1, hfree.2.2⟩ ?_
    intro t ht hget
    simp only [Prog.along_ensure_bind, along_store_bind]
    exact fun _ _ _ _ => ⟨⟨ht, hget⟩, fun _ _ => Prog.along_done _ _⟩
  case createSink =>
    simp only [TenantManager.createSink, Prog.bind_assoc, Prog.along_ofExcept_bind]
    refine fun _ _ => along_getOrg_bind hfree.1 ?_
    intro o horg
    simp only [along_store_bind, Prog.along_ensure_bind]
    refine ⟨hfree.1, ?_⟩
    rintro _ ⟨⟩ -
    exact ⟨⟨⟨hfree.1, nulFree_hexEncode _⟩, Option.isSome_of_eq_some horg, hop⟩,
      fun _ _ => Prog.along_done _ _⟩
  case toggleSink =>
    simp only [TenantManager.toggleSink, Prog.bind_assoc]
    apply along_getSink_bind hs hfree
    intro k hk hget
    rw [along_store_bind]
    exact ⟨⟨hk, hget⟩, fun _ _ => Prog.along_done _ _⟩
  case createIdp =>
    simp only [TenantManager.createIdp, Prog.bind_assoc, Prog.along_ofExcept_bind]
    refine fun _ _ _ _ _ _ => along_getOrg_bind hfree.1 ?_
    intro o horg
    rw [along_store_bind]
    exact ⟨⟨⟨hfree.1, nulFree_hexEncode _⟩, Option.isSome_of_eq_some horg, hop⟩,
      fun _ _ => Prog.along_done _ _⟩
  case toggleIdp =>
    simp only [TenantManager.toggleIdp, Prog.bind_assoc]
    apply along_getIdp_bind hs hfree
    intro k hk hget
    rw [along_store_bind]
    exact ⟨⟨hk, hget⟩, fun _ _ => Prog.along_done _ _⟩
  case createPolicyRule =>
    simp only [TenantManager.createPolicyRule, Prog.bind_assoc]
    apply along_getOrg_bind hfree.1
    intro o horg
    rw [along_store_bind]
    exact ⟨⟨⟨hfree.1, nulFree_hexEncode _⟩, Option.isSome_of_eq_some horg, hop⟩,
      fun _ _ => Prog.along_done _ _⟩
  case setCursor =>
    simp [TenantManager.setCursor, PeatGateway.Portable, PairFree, TripleFree, hfree, hop]

end Along

/-! ### Serial runs -/

/-- A run of operations, one after the other: what each returns, and the store at the
end. -/
def serial {G σ : Type} (h : Backend σ) :
    List (TenantManager G × ManagerOp) → σ → List (Except Error (Outcome G)) × σ
  | [], s => ([], s)
  | (mgr, op) :: ops, s =>
    let (r, s') := (op.prog mgr).run h s
    let (rs, s'') := serial h ops s'
    (r :: rs, s'')

/-- Every operation of the serial run on redb is portable in the store it starts from. -/
def PortableRun {G : Type} : List (TenantManager G × ManagerOp) → Redb → Prop
  | [], _ => True
  | (mgr, op) :: ops, s => op.Portable s ∧ PortableRun ops ((op.prog mgr).run Redb.exec s).2

/-- One operation returns the same on both backends. -/
theorem interchange_op {G : Type} (mgr : TenantManager G) {op : ManagerOp} {s : Redb}
    {t : Postgres} (hs : s.Keyed) (h : Same s t) (hop : op.Portable s) :
    ((op.prog mgr).run Postgres.exec t).1 = ((op.prog mgr).run Redb.exec s).1 ∧
      ((op.prog mgr).run Redb.exec s).2.Keyed ∧
      Same ((op.prog mgr).run Redb.exec s).2 ((op.prog mgr).run Postgres.exec t).2 := by
  have hmeets : (op.prog mgr).Meets (callSpec fun _ => True) fun _ => True :=
    op.meets mgr fun _ _ _ _ => trivial
  obtain ⟨hres, hsame⟩ := Prog.run_sim (R := Same) (fun c _ _ hR hpre => same_exec hR c hpre) _ h
    (ManagerOp.along_portable hs mgr hop)
  exact ⟨hres, (Prog.run_meets (callSpec_sound _) hmeets hs).1, hsame⟩

/-- **The backends are interchangeable**: a serial run of portable operations from an empty
store returns the same at every step. -/
theorem serial_interchange {G : Type} {ops : List (TenantManager G × ManagerOp)}
    (hops : PortableRun ops .empty) :
    (serial Postgres.exec ops .empty).1 = (serial Redb.exec ops .empty).1 := by
  suffices ∀ s t, s.Keyed → Same s t → PortableRun ops s →
      (serial Postgres.exec ops t).1 = (serial Redb.exec ops s).1 from
    this _ _ Redb.keyed_empty same_empty hops
  clear hops
  induction ops with
  | nil => exact fun _ _ _ _ _ => rfl
  | cons p ops ih =>
    intro s t hs h hp
    obtain ⟨mgr, op⟩ := p
    obtain ⟨hres, hs', h'⟩ := interchange_op mgr hs h hp.1
    exact congrArg₂ List.cons hres (ih _ _ hs' h' hp.2)

/-- A token is issued, used up and refused, on both backends alike. -/
theorem serial_interchange_token :
    let ops : List (TenantManager Bytes × ManagerOp) :=
      [.createOrg 1 "a" "A", .createFormation ⟨[9], ⟨.replicate 32 0, .replicate 12 0, []⟩⟩ "a" "f"
          .controlled,
        .createToken (.replicate 16 1) 2 "a" "f" "once" (some 1) none,
        .validateAndConsumeToken 3 "a" "f" "peat_01010101010101010101010101010101",
        .validateAndConsumeToken 4 "a" "f" "peat_01010101010101010101010101010101",
        .deleteOrg "a", .listOrgs].map fun op => (seedManager, op)
    PortableRun ops .empty ∧
      (serial Postgres.exec ops .empty).1 = (serial Redb.exec ops .empty).1 := by
  intro ops
  have hops : PortableRun ops .empty := by
    refine ⟨?_, ?_, ?_, ?_, ?_, ?_, ?_, trivial⟩
    all_goals exact ⟨by decide, by trivial⟩
  exact ⟨hops, serial_interchange hops⟩

end PeatGateway
