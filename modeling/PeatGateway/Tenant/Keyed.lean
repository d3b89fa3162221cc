import PeatGateway.Tenant.Calls

/-!
# Every record lies under its own key

The read-modify-write operations take the key of what they write from the record they
have read, not from the request.  That is harmless as long as every record lies under
the key made of its own ids, and the organization in it is an accepted identifier, hence
free of the NUL that separates the parts of a key.

The identifiers of records are arbitrary strings: path segments reach the manager
unchecked, so they may hold NULs.

## Main definitions

* `Redb.Keyed` — the invariant.
* `callSpec scope` — the calls that keep it and touch only organizations in `scope`, and
  what may be relied on about what is read.

## Main results

* `callSpec_sound` — each storage call keeps the invariant.
* `ManagerOp.meets` — **every operation makes only such calls**, in the scope of the
  organization it is addressed to.
* `Reachable.keyed` — **every reachable store satisfies the invariant**.
-/

namespace PeatGateway

open Effect Text

/-! ### Reading keys -/

theorem belongsTo_iff {orgId key : String} :
    belongsTo orgId key = true ↔ ∃ x, key = nulKey orgId x := startsWith_glue_iff

@[simp] theorem belongsTo_nulKey (orgId x : String) : belongsTo orgId (nulKey orgId x) = true :=
  belongsTo_iff.mpr ⟨x, rfl⟩

theorem nulKey_inj {a a' b b' : String} (ha : IsIdentifier a) (ha' : IsIdentifier a')
    (h : nulKey a b = nulKey a' b') : a = a' ∧ b = b' :=
  glue_inj ha.nulFree ha'.nulFree h

/-- A key of one organization does not belong to another. -/
theorem not_belongsTo_nulKey {a b x : String} (ha : IsIdentifier a) (hb : IsIdentifier b)
    (hab : a ≠ b) : belongsTo b (nulKey a x) = false := by
  rw [Bool.eq_false_iff]
  exact fun h => hab ((startsWith_glue ha.nulFree hb.nulFree).mp h)

/-- No key belongs to two organizations. -/
theorem not_belongsTo_of_belongsTo {a b key : String} (ha : IsIdentifier a) (hb : IsIdentifier b)
    (hab : a ≠ b) (h : belongsTo b key = true) : belongsTo a key = false := by
  obtain ⟨x, rfl⟩ := belongsTo_iff.mp h
  exact not_belongsTo_nulKey hb ha hab.symm

/-! ### The invariant -/

/-- Every record lies under the key made of its own ids, in an organization whose id is an
accepted identifier.  A formation does not name its organization; audit entries and
cursors are written without a look at the organization. -/
structure Redb.Keyed (s : Redb) : Prop where
  orgs : s.orgs.Forall fun k o => IsIdentifier k ∧ o.orgId = k
  formations : s.formations.Forall fun k f => IsIdentifier f.appId ∧
    ∃ orgId, IsIdentifier orgId ∧ k = formationKey orgId f.appId
  tokens : s.tokens.Forall fun k t => IsIdentifier t.orgId ∧ k = tokenKey t.orgId t.tokenId
  sinks : s.sinks.Forall fun k t => IsIdentifier t.orgId ∧ k = sinkKey t.orgId t.sinkId
  idps : s.idps.Forall fun k i => IsIdentifier i.orgId ∧ k = idpKey i.orgId i.idpId
  policyRules : s.policyRules.Forall fun k r => IsIdentifier r.orgId ∧
    k = policyRuleKey r.orgId r.ruleId
  audit : s.audit.Forall fun k e => k = auditKey e.orgId e.timestampMs e.auditId
  genesis : s.genesis.Forall fun k _ => ∃ orgId appId, IsIdentifier orgId ∧ IsIdentifier appId ∧
    k = formationKey orgId appId

theorem Redb.keyed_empty : Redb.empty.Keyed where
  orgs := Table.forall_empty _
  formations := Table.forall_empty _
  tokens := Table.forall_empty _
  sinks := Table.forall_empty _
  idps := Table.forall_empty _
  policyRules := Table.forall_empty _
  audit := Table.forall_empty _
  genesis := Table.forall_empty _

theorem Redb.Keyed.deleteOrg {s : Redb} (h : s.Keyed) (orgId : String) :
    (s.deleteOrg orgId).Keyed where
  orgs := h.orgs.erase orgId
  formations := h.formations.removeAll _
  tokens := h.tokens.removeAll _
  sinks := h.sinks.removeAll _
  idps := h.idps.removeAll _
  policyRules := h.policyRules.removeAll _
  audit := h.audit.removeAll _
  genesis := h.genesis.removeAll _

section Ids

variable {s : Redb} (hs : s.Keyed) {orgId x : String} (ho : Free '\x00' orgId)

include hs ho

/-- A record found under an id carries that id. -/
theorem Redb.Keyed.token_ids {t : EnrollmentToken} (h : s.tokens[tokenKey orgId x]? = some t) :
    t.orgId = orgId ∧ t.tokenId = x := by
  obtain ⟨hid, hk⟩ := hs.tokens _ _ h
  exact glue_inj hid.nulFree ho hk.symm

theorem Redb.Keyed.sink_ids {k : CdcSinkConfig} (h : s.sinks[sinkKey orgId x]? = some k) :
    k.orgId = orgId ∧ k.sinkId = x := by
  obtain ⟨hid, hk⟩ := hs.sinks _ _ h
  exact glue_inj hid.nulFree ho hk.symm

theorem Redb.Keyed.idp_ids {i : IdpConfig} (h : s.idps[idpKey orgId x]? = some i) :
    i.orgId = orgId ∧ i.idpId = x := by
  obtain ⟨hid, hk⟩ := hs.idps _ _ h
  exact glue_inj hid.nulFree ho hk.symm

end Ids

/-! ### What the calls need and grant -/

/-- The calls that keep records under their own keys and write only in `scope`. -/
def callPre (scope : String → Prop) : StorageCall → Prop
  | .createOrg org | .updateOrg org => IsIdentifier org.orgId ∧ scope org.orgId
  | .deleteOrg orgId => scope orgId
  | .createFormation orgId f => IsIdentifier orgId ∧ IsIdentifier f.appId ∧ scope orgId
  | .deleteFormation orgId _ => scope orgId
  | .createToken t | .updateToken t => IsIdentifier t.orgId ∧ scope t.orgId
  | .deleteToken orgId _ => scope orgId
  | .createSink t | .updateSink t => IsIdentifier t.orgId ∧ scope t.orgId
  | .deleteSink orgId _ => scope orgId
  | .createIdp i | .updateIdp i => IsIdentifier i.orgId ∧ scope i.orgId
  | .deleteIdp orgId _ => scope orgId
  | .createPolicyRule r => IsIdentifier r.orgId ∧ scope r.orgId
  | .deletePolicyRule orgId _ => scope orgId
  | .appendAudit e => scope e.orgId
  | .storeGenesis orgId appId _ => IsIdentifier orgId ∧ IsIdentifier appId ∧ scope orgId
  | .deleteGenesis orgId _ => scope orgId
  | .setCursor orgId _ _ _ => scope orgId
  | .getOrg _ | .listOrgs | .getFormation _ _ | .listFormations _ | .getToken _ _
  | .listTokens _ _ | .getSink _ _ | .listSinks _ | .getIdp _ _ | .listIdps _
  | .listPolicyRules _ | .listAudit _ _ _ | .getGenesis _ _ | .getCursor _ _ _ => True

/-- What may be relied on about a record that is read. -/
def callPost : (c : StorageCall) → c.Res → Prop
  | .getOrg orgId, r => ∀ o, r = some o → IsIdentifier orgId ∧ o.orgId = orgId
  | .listOrgs, r => ∀ o ∈ r, IsIdentifier o.orgId
  | .listFormations _, r => ∀ f ∈ r, IsIdentifier f.appId
  | .getToken orgId tokenId, r => ∀ t, r = some t →
    IsIdentifier t.orgId ∧ tokenKey orgId tokenId = tokenKey t.orgId t.tokenId
  | .getSink orgId sinkId, r => ∀ t, r = some t →
    IsIdentifier t.orgId ∧ sinkKey orgId sinkId = sinkKey t.orgId t.sinkId
  | .getIdp orgId idpId, r => ∀ i, r = some i →
    IsIdentifier i.orgId ∧ idpKey orgId idpId = idpKey i.orgId i.idpId
  | _, _ => True

/-- The specification of the storage calls, for operations on the organizations in
`scope`. -/
def callSpec (scope : String → Prop) : Spec Storage := ⟨callPre scope, callPost⟩

/-- **Each storage call keeps the invariant**, and what is read lies under its key. -/
theorem callSpec_sound (scope : String → Prop) : (callSpec scope).Sound Redb.exec Redb.Keyed := by
  intro c s hs hpre
  -- Writes put a record under its own key, deletions remove keys, reads report what is there.
  cases c with
  | createOrg org => exact ⟨{ hs with orgs := hs.orgs.insert ⟨hpre.1, rfl⟩ }, fun _ _ => trivial⟩
  | getOrg orgId =>
    refine ⟨hs, ?_⟩
    rintro _ ⟨⟩ o ho
    exact hs.orgs _ _ ho
  | listOrgs =>
    refine ⟨hs, ?_⟩
    rintro _ ⟨⟩ o ho
    obtain ⟨⟨k, o'⟩, hmem, rfl⟩ := List.mem_map.mp ho
    obtain ⟨hk, heq⟩ := hs.orgs k o' (Std.ExtTreeMap.mem_toList_iff_getElem?_eq_some.mp hmem)
    exact heq ▸ hk
  | updateOrg org => exact ⟨{ hs with orgs := hs.orgs.insert ⟨hpre.1, rfl⟩ }, fun _ _ => trivial⟩
  | deleteOrg orgId => exact ⟨hs.deleteOrg orgId, fun _ _ => trivial⟩
  | createFormation orgId f =>
    exact ⟨{ hs with formations := hs.formations.insert ⟨hpre.2.1, orgId, hpre.1, rfl⟩ },
      fun _ _ => trivial⟩
  | getFormation orgId appId => exact ⟨hs, fun _ _ => trivial⟩
  | listFormations orgId =>
    refine ⟨hs, ?_⟩
    rintro _ ⟨⟩ f hf
    obtain ⟨k, -, hk⟩ := Table.mem_scan.mp hf
    exact (hs.formations k f hk).1
  | deleteFormation orgId appId =>
    exact ⟨{ hs with formations := hs.formations.erase _ }, fun _ _ => trivial⟩
  | createToken t =>
    exact ⟨{ hs with tokens := hs.tokens.insert ⟨hpre.1, rfl⟩ }, fun _ _ => trivial⟩
  | getToken orgId tokenId =>
    refine ⟨hs, ?_⟩
    rintro _ ⟨⟩ t ht
    exact hs.tokens _ _ ht
  | listTokens orgId appId => exact ⟨hs, fun _ _ => trivial⟩
  | updateToken t =>
    exact ⟨{ hs with tokens := hs.tokens.insert ⟨hpre.1, rfl⟩ }, fun _ _ => trivial⟩
  | deleteToken orgId tokenId =>
    exact ⟨{ hs with tokens := hs.tokens.erase _ }, fun _ _ => trivial⟩
  | createSink t => exact ⟨{ hs with sinks := hs.sinks.insert ⟨hpre.1, rfl⟩ }, fun _ _ => trivial⟩
  | getSink orgId sinkId =>
    refine ⟨hs, ?_⟩
    rintro _ ⟨⟩ t ht
    exact hs.sinks _ _ ht
  | listSinks orgId => exact ⟨hs, fun _ _ => trivial⟩
  | updateSink t => exact ⟨{ hs with sinks := hs.sinks.insert ⟨hpre.1, rfl⟩ }, fun _ _ => trivial⟩
  | deleteSink orgId sinkId =>
    exact ⟨{ hs with sinks := hs.sinks.erase _ }, fun _ _ => trivial⟩
  | createIdp i => exact ⟨{ hs with idps := hs.idps.insert ⟨hpre.1, rfl⟩ }, fun _ _ => trivial⟩
  | getIdp orgId idpId =>
    refine ⟨hs, ?_⟩
    rintro _ ⟨⟩ i hi
    exact hs.idps _ _ hi
  | listIdps orgId => exact ⟨hs, fun _ _ => trivial⟩
  | updateIdp i => exact ⟨{ hs with idps := hs.idps.insert ⟨hpre.1, rfl⟩ }, fun _ _ => trivial⟩
  | deleteIdp orgId idpId => exact ⟨{ hs with idps := hs.idps.erase _ }, fun _ _ => trivial⟩
  | createPolicyRule r =>
    exact ⟨{ hs with policyRules := hs.policyRules.insert ⟨hpre.1, rfl⟩ }, fun _ _ => trivial⟩
  | listPolicyRules orgId => exact ⟨hs, fun _ _ => trivial⟩
  | deletePolicyRule orgId ruleId =>
    exact ⟨{ hs with policyRules := hs.policyRules.erase _ }, fun _ _ => trivial⟩
  | appendAudit e => exact ⟨{ hs with audit := hs.audit.insert rfl }, fun _ _ => trivial⟩
  | listAudit orgId appId limit => exact ⟨hs, fun _ _ => trivial⟩
  | storeGenesis orgId appId encoded =>
    exact ⟨{ hs with genesis := hs.genesis.insert ⟨orgId, appId, hpre.1, hpre.2.1, rfl⟩ },
      fun _ _ => trivial⟩
  | getGenesis orgId appId => exact ⟨hs, fun _ _ => trivial⟩
  | deleteGenesis orgId appId =>
    exact ⟨{ hs with genesis := hs.genesis.erase _ }, fun _ _ => trivial⟩
  | getCursor orgId appId documentId => exact ⟨hs, fun _ _ => trivial⟩
  | setCursor orgId appId documentId changeHash => exact ⟨{ hs with }, fun _ _ => trivial⟩

/-! ### What the operations do -/

section Meets

variable {scope : String → Prop} {orgId : String}

/-- `scope` holds what an operation addressed to `orgId` may write: the organization
itself, or anything at all if `orgId` is no identifier, for then nothing is found. -/
def InScope (scope : String → Prop) (orgId : String) : Prop :=
  ∀ o, (IsIdentifier orgId → o = orgId) → scope o

theorem InScope.self (h : InScope scope orgId) : scope orgId := h orgId fun _ => rfl

theorem InScope.of_nulKey (h : InScope scope orgId) {o x y : String} (ho : IsIdentifier o)
    (hk : nulKey orgId x = nulKey o y) : scope o :=
  h o fun hi => ((nulKey_inj hi ho hk).1).symm

/-- **Every operation makes only calls that keep the invariant**, and writes only in the
organization it is addressed to. -/
theorem ManagerOp.meets {G : Type} (mgr : TenantManager G) (op : ManagerOp)
    (hs : ∀ orgId, op.orgId = some orgId → InScope scope orgId) :
    (op.prog mgr).Meets (callSpec scope) fun _ => True := by
  have hself : ∀ orgId, op.orgId = some orgId → scope orgId := fun _ h => (hs _ h).self
  apply ManagerOp.meets_of_needs
  cases op
  case createOrg => exact fun hid _ => ⟨trivial, isIdentifier_of_validate hid, hself _ rfl⟩
  -- an organization that is found has an identifier
  case updateOrg =>
    refine ⟨trivial, ?_⟩
    intro org horg
    obtain ⟨hid, rfl⟩ := horg org rfl
    exact ⟨hid, hself _ rfl⟩
  case createFormation =>
    refine fun happ => ⟨trivial, ?_⟩
    intro org horg
    have hid := (horg org rfl).1
    have happ := isIdentifier_of_validate happ
    refine ⟨trivial, trivial, ?_, fun _ => ⟨hid, happ, hself _ rfl⟩⟩
    rintro f rfl
    exact ⟨hid, happ, hself _ rfl⟩
  case createToken =>
    refine fun _ => ⟨trivial, fun org horg => ⟨trivial, ?_⟩⟩
    rintro t rfl -
    exact ⟨(horg org rfl).1, hself _ rfl⟩
  case createSink =>
    refine fun _ => ⟨trivial, fun org horg => ⟨trivial, ?_⟩⟩
    rintro k rfl -
    exact ⟨(horg org rfl).1, hself _ rfl⟩
  case createIdp =>
    refine fun _ _ _ => ⟨trivial, fun org horg => ?_⟩
    rintro i rfl - - -
    exact ⟨(horg org rfl).1, hself _ rfl⟩
  case createPolicyRule =>
    refine ⟨trivial, fun org horg => ?_⟩
    rintro r rfl
    exact ⟨(horg org rfl).1, hself _ rfl⟩
  -- a record that is found lies under its own key
  case revokeToken | validateAndConsumeToken | toggleSink | toggleIdp =>
    refine ⟨trivial, ?_⟩
    intro x hx
    obtain ⟨hid, hkey⟩ := hx x rfl
    exact ⟨hid, (hs _ rfl).of_nulKey hid hkey⟩
  case listOrgs => trivial
  -- the others read, or delete in the organization they name
  all_goals simp [Needs, callSpec, callPre, hself _ rfl]

theorem meets_migrateFormations {A : Aead} {provider : KeyProvider} {dryRun : Bool}
    {draws : ℕ → MigrateDraw} (hid : IsIdentifier orgId) (hs : scope orgId)
    {fs : List FormationConfig} (hfs : ∀ f ∈ fs, IsIdentifier f.appId) (n : Counters) :
    (migrateFormations A provider dryRun draws orgId fs n).Meets (callSpec scope)
      fun _ => True := by
  induction fs generalizing n with
  | nil => simp [migrateFormations]
  | cons f fs ih =>
    have ih := fun n => ih (fun g hg => hfs g (List.mem_cons_of_mem _ hg)) n
    simp only [migrateFormations, migrateRecord, Prog.meets_bind, meets_store]
    refine ⟨trivial, ?_⟩
    intro r _
    cases r with
    | none => simp [ih]
    | some raw =>
      dsimp only
      split
      · simp [ih]
      · split
        · simp [ih]
        · simp only [Prog.meets_bind, Prog.meets_ofExcept, meets_store, Prog.meets_pure]
          exact fun _ _ => ⟨⟨hid, hfs f List.mem_cons_self, hs⟩, fun _ _ => ih _⟩

theorem meets_migrateOrgs {A : Aead} {provider : KeyProvider} {dryRun : Bool}
    {draws : ℕ → MigrateDraw} (hs : ∀ o, scope o) {os : List Organization}
    (hos : ∀ o ∈ os, IsIdentifier o.orgId) (n : Counters) :
    (migrateOrgs A provider dryRun draws os n).Meets (callSpec scope) fun _ => True := by
  induction os generalizing n with
  | nil => simp [migrateOrgs]
  | cons o os ih =>
    have ih := fun n => ih (fun g hg => hos g (List.mem_cons_of_mem _ hg)) n
    simp only [migrateOrgs, Prog.meets_bind, meets_store]
    refine ⟨trivial, ?_⟩
    intro fs hfs
    exact (meets_migrateFormations (hos o List.mem_cons_self) (hs _) hfs n).mono fun n _ => ih n

/-- The migration makes only calls that keep the invariant. -/
theorem meets_migrateKeys (hs : ∀ o, scope o) (env : KeyEnv) (config : KeyConfig)
    (draws : ℕ → MigrateDraw) (dryRun : Bool) :
    (migrateKeys env config draws dryRun).Meets (callSpec scope) fun _ => True := by
  simp only [migrateKeys, Prog.meets_bind, Prog.meets_ofExcept, Prog.meets_ensure, meets_store]
  exact fun _ _ _ => ⟨trivial, fun _ hos => meets_migrateOrgs hs hos _⟩

end Meets

/-- Every program of the gateway makes only calls that keep the invariant. -/
theorem IsProgram.meets {G : Type} {p : StoreProg (Outcome G)} (h : IsProgram G p) :
    p.Meets (callSpec fun _ => True) fun _ => True := by
  cases h with
  | op mgr op => exact op.meets mgr fun _ _ _ _ => trivial
  | migrate env config draws dryRun =>
    exact (Prog.meets_map _ _ _).mpr (meets_migrateKeys (fun _ => trivial) env config draws dryRun)

/-- **Every reachable store satisfies the invariant.** -/
theorem Reachable.keyed {G : Type} {s : Redb} (h : Reachable G s) : s.Keyed := by
  obtain ⟨l, hl, rfl⟩ := h
  refine (Pool.acts_meets (Q := fun _ => True) (callSpec_sound fun _ => True) Redb.keyed_empty
    ?_ fun p hp => (hl p hp).meets).1
  intro p hp
  cases hp

end PeatGateway
