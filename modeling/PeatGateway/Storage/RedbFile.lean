import PeatGateway.Lib.Alike
import PeatGateway.Lib.JsonText
import PeatGateway.Lib.Lockstep
import PeatGateway.Serde
import PeatGateway.Storage.Redb

/-!
# The file under the redb backend

A row of the file is a text in JSON, written by the backend of this or of an earlier version.
Every call that returns records reads rows, and fails at the first it cannot read; calls that
remove rows, or write them, read none.

The text format is that of the crate `serde_json`: what is asked of it is that a value is read
back from the text it is written as.

## Main definitions

* `JsonFormat` — the text format.
* `RedbFile`, `RedbFile.exec` — the tables of rows, and the backend that reads and writes them.
* `RedbFile.Stores` — the rows of some organizations are read as records.

## Main results

* `JsonFormat.holds_encode` — **a record is read back from its row**.
* `RedbFile.exec_stores` — calls on rows that can be read are answered from the records.
* `redbFile_refines` — **over a file all of whose rows can be read, every run is as over the
  records**.
-/

namespace PeatGateway

open Effect

/-! ### Rows -/

/-- `serde_json::to_vec` and `serde_json::from_slice`, on values in the model of the text. -/
structure JsonFormat where
  write : Json → Bytes
  read : Bytes → Except Error Json
  /-- The error of a row whose value is not one of the type asked for. -/
  mismatch : Bytes → Error
  read_write : ∀ j, j.wellFormed = true → read (write j) = .ok j

namespace JsonFormat

variable (fmt : JsonFormat) {α : Type}

/-- The row of a record. -/
def encode (c : Codec α) (a : α) : Bytes := fmt.write (c.write a)

/-- The record of a row. -/
def decode (c : Codec α) (row : Bytes) : Except Error α := do
  match c.read (← fmt.read row) with
  | some a => .ok a
  | none => .error (fmt.mismatch row)

/-- The row is read as the record. -/
def Holds (c : Codec α) (row : Bytes) (a : α) : Prop := fmt.decode c row = .ok a

variable {fmt}

/-- A row is read as what its value is read as. -/
theorem holds_write {c : Codec α} {j : Json} {a : α} (hj : j.wellFormed = true)
    (h : c.read j = some a) : fmt.Holds c (fmt.write j) a := by
  unfold Holds decode
  simp only [fmt.read_write j hj, bind, Except.bind, h]

/-- **A record is read back from its row.** -/
theorem holds_encode {c : Codec α} (hc : c.WellFormed) (a : α) :
    fmt.Holds c (fmt.encode c a) a := holds_write (hc a) (c.read_write a)

/-- The format of compact texts. -/
def compact : JsonFormat where
  write := Json.toBytes
  read row :=
    match Json.ofBytes row with
    | some j => .ok j
    | none => .error "expected value"
  mismatch _ := "invalid type"
  read_write j hj := by rw [Json.ofBytes_toBytes hj]

end JsonFormat

/-! ### What the codecs write -/

theorem OrgQuotas.codec_wellFormed : OrgQuotas.codec.WellFormed := by
  intro q
  simp [OrgQuotas.codec, Json.wellFormed, Json.fieldsWellFormed]

theorem Organization.codec_wellFormed : Organization.codec.WellFormed := by
  intro o
  simp [Organization.codec, Json.wellFormed, Json.fieldsWellFormed,
    OrgQuotas.codec_wellFormed o.quotas]

theorem FormationConfig.codec_wellFormed : FormationConfig.codec.WellFormed := by
  intro f
  have hpolicy : (EnrollmentPolicy.codec.write f.enrollmentPolicy).wellFormed = true := by
    cases f.enrollmentPolicy <;> rfl
  simp [FormationConfig.codec, Json.wellFormed, Json.fieldsWellFormed, hpolicy]

theorem EnrollmentToken.codec_wellFormed : EnrollmentToken.codec.WellFormed := by
  intro t
  have hmax : (optionalU32.write t.maxUses).wellFormed = true :=
    Codec.WellFormed.option Codec.wellFormed_uint32 t.maxUses
  have hexpires : (optionalU64.write t.expiresAt).wellFormed = true :=
    Codec.WellFormed.option Codec.wellFormed_uint64 t.expiresAt
  simp [EnrollmentToken.codec, Json.wellFormed, Json.fieldsWellFormed, hmax, hexpires]

theorem CdcSinkConfig.codec_wellFormed : CdcSinkConfig.codec.WellFormed := by
  intro k
  have htype : (CdcSinkType.codec.write k.sinkType).wellFormed = true := by
    cases k.sinkType <;> rfl
  simp [CdcSinkConfig.codec, Json.wellFormed, Json.fieldsWellFormed, htype]

theorem IdpConfig.codec_wellFormed : IdpConfig.codec.WellFormed := by
  intro i
  simp [IdpConfig.codec, Json.wellFormed, Json.fieldsWellFormed]

theorem MeshTier.codec_wellFormed : MeshTier.codec.WellFormed := by
  intro t
  cases t <;> rfl

theorem PolicyRule.codec_wellFormed : PolicyRule.codec.WellFormed := by
  intro r
  simp [PolicyRule.codec, Json.wellFormed, Json.fieldsWellFormed, MeshTier.codec_wellFormed r.tier]

theorem EnrollmentDecision.codec_wellFormed : EnrollmentDecision.codec.WellFormed := by
  intro d
  cases d with
  | approved tier permissions =>
    simp [EnrollmentDecision.codec, Json.wellFormed, Json.fieldsWellFormed,
      MeshTier.codec_wellFormed tier]
  | denied reason => rfl

theorem EnrollmentAuditEntry.codec_wellFormed : EnrollmentAuditEntry.codec.WellFormed := by
  intro e
  simp [EnrollmentAuditEntry.codec, Json.wellFormed, Json.fieldsWellFormed,
    EnrollmentDecision.codec_wellFormed e.decision]

/-! ### The file -/

/-- The nine tables.  Cursors are texts, and the genesis of a formation is kept as it is given. -/
structure RedbFile where
  orgs : Table String Bytes
  formations : Table String Bytes
  tokens : Table String Bytes
  sinks : Table String Bytes
  cursors : Table String String
  idps : Table String Bytes
  policyRules : Table String Bytes
  audit : Table String Bytes
  genesis : Table String Bytes

namespace RedbFile

section Exec

variable (fmt : JsonFormat)

/-- The record under a key, if there is a row. -/
def find {α : Type} (c : Codec α) (t : Table String Bytes) (key : String) :
    Except Error (Option α) :=
  match t[key]? with
  | some row => (fmt.decode c row).map some
  | none => .ok none

/-- The records under the keys of an organization. -/
def list {α : Type} (c : Codec α) (t : Table String Bytes) (orgId : String) :
    Except Error (List α) :=
  (t.scan (belongsTo orgId)).mapM (fmt.decode c)

/-- `delete_org`: no row is read. -/
def deleteOrg (f : RedbFile) (orgId : String) : RedbFile where
  orgs := f.orgs.erase orgId
  formations := f.formations.removeAll (belongsTo orgId)
  tokens := f.tokens.removeAll (belongsTo orgId)
  sinks := f.sinks.removeAll (belongsTo orgId)
  idps := f.idps.removeAll (belongsTo orgId)
  policyRules := f.policyRules.removeAll (belongsTo orgId)
  audit := f.audit.removeAll (belongsTo orgId)
  genesis := f.genesis.removeAll (belongsTo orgId)
  cursors := f.cursors.removeAll (belongsTo orgId)

/-- The loop of `list_audit`.  A row of the organization is read before its formation is looked
at. -/
def auditLoop (orgId : String) (appId : Option String) (limit : ℕ) :
    List (String × Bytes) → List EnrollmentAuditEntry → Except Error (List EnrollmentAuditEntry)
  | [], entries => .ok entries
  | (key, row) :: rows, entries =>
    if belongsTo orgId key then do
      let e ← fmt.decode EnrollmentAuditEntry.codec row
      if appId.all (e.appId == ·) then
        if (entries ++ [e]).length ≥ limit then .ok (entries ++ [e])
        else auditLoop orgId appId limit rows (entries ++ [e])
      else auditLoop orgId appId limit rows entries
    else auditLoop orgId appId limit rows entries

/-- The backend. -/
def exec : Backend RedbFile
  | .createOrg org, f | .updateOrg org, f =>
    (.ok (), { f with orgs := f.orgs.insert org.orgId (fmt.encode Organization.codec org) })
  | .getOrg orgId, f => (find fmt Organization.codec f.orgs orgId, f)
  | .listOrgs, f => ((f.orgs.toList.map Prod.snd).mapM (fmt.decode Organization.codec), f)
  | .deleteOrg orgId, f => (.ok f.orgs[orgId]?.isSome, f.deleteOrg orgId)
  | .createFormation orgId x, f =>
    (.ok (), { f with
      formations := f.formations.insert (formationKey orgId x.appId)
        (fmt.encode FormationConfig.codec x) })
  | .getFormation orgId appId, f =>
    (find fmt FormationConfig.codec f.formations (formationKey orgId appId), f)
  | .listFormations orgId, f => (list fmt FormationConfig.codec f.formations orgId, f)
  | .deleteFormation orgId appId, f =>
    (.ok f.formations[formationKey orgId appId]?.isSome,
      { f with formations := f.formations.erase (formationKey orgId appId) })
  | .createToken t, f | .updateToken t, f =>
    (.ok (), { f with
      tokens := f.tokens.insert (tokenKey t.orgId t.tokenId) (fmt.encode EnrollmentToken.codec t) })
  | .getToken orgId tokenId, f =>
    (find fmt EnrollmentToken.codec f.tokens (tokenKey orgId tokenId), f)
  | .listTokens orgId appId, f =>
    ((list fmt EnrollmentToken.codec f.tokens orgId).map fun ts => ts.filter (·.appId == appId), f)
  | .deleteToken orgId tokenId, f =>
    (.ok f.tokens[tokenKey orgId tokenId]?.isSome,
      { f with tokens := f.tokens.erase (tokenKey orgId tokenId) })
  | .createSink k, f | .updateSink k, f =>
    (.ok (), { f with
      sinks := f.sinks.insert (sinkKey k.orgId k.sinkId) (fmt.encode CdcSinkConfig.codec k) })
  | .getSink orgId sinkId, f => (find fmt CdcSinkConfig.codec f.sinks (sinkKey orgId sinkId), f)
  | .listSinks orgId, f => (list fmt CdcSinkConfig.codec f.sinks orgId, f)
  | .deleteSink orgId sinkId, f =>
    (.ok f.sinks[sinkKey orgId sinkId]?.isSome,
      { f with sinks := f.sinks.erase (sinkKey orgId sinkId) })
  | .createIdp i, f | .updateIdp i, f =>
    (.ok (), { f with
      idps := f.idps.insert (idpKey i.orgId i.idpId) (fmt.encode IdpConfig.codec i) })
  | .getIdp orgId idpId, f => (find fmt IdpConfig.codec f.idps (idpKey orgId idpId), f)
  | .listIdps orgId, f => (list fmt IdpConfig.codec f.idps orgId, f)
  | .deleteIdp orgId idpId, f =>
    (.ok f.idps[idpKey orgId idpId]?.isSome,
      { f with idps := f.idps.erase (idpKey orgId idpId) })
  | .createPolicyRule r, f =>
    (.ok (), { f with
      policyRules := f.policyRules.insert (policyRuleKey r.orgId r.ruleId)
        (fmt.encode PolicyRule.codec r) })
  | .listPolicyRules orgId, f => (list fmt PolicyRule.codec f.policyRules orgId, f)
  | .deletePolicyRule orgId ruleId, f =>
    (.ok f.policyRules[policyRuleKey orgId ruleId]?.isSome,
      { f with policyRules := f.policyRules.erase (policyRuleKey orgId ruleId) })
  | .appendAudit e, f =>
    (.ok (), { f with
      audit := f.audit.insert (auditKey e.orgId e.timestampMs e.auditId)
        (fmt.encode EnrollmentAuditEntry.codec e) })
  | .listAudit orgId appId limit, f =>
    (auditLoop fmt orgId appId limit.toNat f.audit.toList.reverse [], f)
  | .storeGenesis orgId appId encoded, f =>
    (.ok (), { f with genesis := f.genesis.insert (formationKey orgId appId) encoded })
  | .getGenesis orgId appId, f => (.ok f.genesis[formationKey orgId appId]?, f)
  | .deleteGenesis orgId appId, f =>
    (.ok f.genesis[formationKey orgId appId]?.isSome,
      { f with genesis := f.genesis.erase (formationKey orgId appId) })
  | .getCursor orgId appId documentId, f => (.ok f.cursors[cursorKey orgId appId documentId]?, f)
  | .setCursor orgId appId documentId changeHash, f =>
    (.ok (), { f with cursors := f.cursors.insert (cursorKey orgId appId documentId) changeHash })

end Exec

/-! ### Rows that can be read -/

/-- The rows under the keys that pass the tests are read as the records: `p` for the keys of
organizations, `q` for all others. -/
structure Stores (fmt : JsonFormat) (p q : String → Bool) (f : RedbFile) (s : Redb) : Prop where
  orgs : Table.AlikeOn p (fmt.Holds Organization.codec) f.orgs s.orgs
  formations : Table.AlikeOn q (fmt.Holds FormationConfig.codec) f.formations s.formations
  tokens : Table.AlikeOn q (fmt.Holds EnrollmentToken.codec) f.tokens s.tokens
  sinks : Table.AlikeOn q (fmt.Holds CdcSinkConfig.codec) f.sinks s.sinks
  cursors : Table.AlikeOn q Eq f.cursors s.cursors
  idps : Table.AlikeOn q (fmt.Holds IdpConfig.codec) f.idps s.idps
  policyRules : Table.AlikeOn q (fmt.Holds PolicyRule.codec) f.policyRules s.policyRules
  audit : Table.AlikeOn q (fmt.Holds EnrollmentAuditEntry.codec) f.audit s.audit
  genesis : Table.AlikeOn q Eq f.genesis s.genesis

section Lookup

variable {fmt : JsonFormat} {α : Type} {c : Codec α} {p q : String → Bool}
  {t : Table String Bytes} {t' : Table String α}

theorem find_eq (h : Table.AlikeOn q (fmt.Holds c) t t') {key : String} (hkey : q key = true) :
    find fmt c t key = .ok t'[key]? := by
  have hrel := h key hkey
  unfold find
  generalize t[key]? = o at hrel
  generalize t'[key]? = o' at hrel
  cases hrel with
  | none => rfl
  | some hrow =>
    unfold JsonFormat.Holds at hrow
    dsimp only
    rw [hrow]
    rfl

theorem mapM_decode {rows : List Bytes} {as : List α} (h : List.Forall₂ (fmt.Holds c) rows as) :
    rows.mapM (fmt.decode c) = .ok as := by
  induction h with
  | nil => rfl
  | cons hrow _ ih =>
    unfold JsonFormat.Holds at hrow
    rw [List.mapM_cons, hrow, ih]
    rfl

theorem list_eq (h : Table.AlikeOn q (fmt.Holds c) t t') {orgId : String}
    (hkeys : ∀ k, belongsTo orgId k = true → q k = true) :
    list fmt c t orgId = .ok (t'.scan (belongsTo orgId)) :=
  mapM_decode (h.scan hkeys)

end Lookup

section AuditLoop

variable {fmt : JsonFormat} {orgId : String} {appId : Option String} {limit : ℕ}

/-- The loop passes over the rows of others. -/
theorem auditLoop_filter (rows : List (String × Bytes)) (entries : List EnrollmentAuditEntry) :
    auditLoop fmt orgId appId limit (rows.filter fun x => belongsTo orgId x.1) entries =
      auditLoop fmt orgId appId limit rows entries := by
  induction rows generalizing entries with
  | nil => rfl
  | cons x rows ih =>
    obtain ⟨key, row⟩ := x
    rw [List.filter_cons]
    dsimp only
    by_cases hkey : belongsTo orgId key = true
    · rw [if_pos hkey]
      simp only [auditLoop, hkey, if_true, ih]
    · rw [if_neg hkey, ih, auditLoop, if_neg hkey]

end AuditLoop

end RedbFile

/-- The loop over records passes over those of others, too. -/
theorem Redb.auditLoop_filter {orgId : String} {appId : Option String} {limit : ℕ}
    (rows : List (String × EnrollmentAuditEntry)) (entries : List EnrollmentAuditEntry) :
    Redb.auditLoop orgId appId limit (rows.filter fun x => belongsTo orgId x.1) entries =
      Redb.auditLoop orgId appId limit rows entries := by
  have hmatch : (rows.filter fun x => belongsTo orgId x.1).filter (Redb.auditMatch orgId appId) =
      rows.filter (Redb.auditMatch orgId appId) := by
    rw [List.filter_filter]
    apply List.filter_congr
    intro x _
    rw [Bool.eq_iff_iff, Bool.and_eq_true]
    exact and_iff_left_of_imp fun h => (Bool.and_eq_true_iff.mp h).1
  rw [Redb.auditLoop_eq, Redb.auditLoop_eq, hmatch]

namespace RedbFile

/-- **The loop over rows that can be read collects their records.** -/
theorem auditLoop_eq {fmt : JsonFormat} (orgId : String) (appId : Option String) (limit : ℕ)
    {rows : List (String × Bytes)} {rows' : List (String × EnrollmentAuditEntry)}
    (h : List.Forall₂ (Entrywise (fmt.Holds EnrollmentAuditEntry.codec)) rows rows')
    (entries : List EnrollmentAuditEntry) :
    auditLoop fmt orgId appId limit rows entries =
      .ok (Redb.auditLoop orgId appId limit rows' entries) := by
  induction h generalizing entries with
  | nil => rfl
  | @cons x y rows rows' hxy _ ih =>
    obtain ⟨key, row⟩ := x
    obtain ⟨key', e⟩ := y
    obtain ⟨hkey, hrow⟩ := hxy
    obtain rfl : key = key' := hkey
    have hrow : fmt.decode EnrollmentAuditEntry.codec row = .ok e := hrow
    rw [auditLoop, Redb.auditLoop]
    by_cases hbelongs : belongsTo orgId key = true
    · rw [if_pos hbelongs, hrow]
      simp only [hbelongs, Bool.true_and]
      change (if _ then if _ then _ else _ else _) = _
      split
      · split
        · rfl
        · exact ih _
      · exact ih _
    · rw [if_neg hbelongs]
      simp only [hbelongs, Bool.false_and]
      exact ih _

/-- The rows a call reads are under keys that pass the tests. -/
def Covers (p q : String → Bool) : StorageCall → Prop
  | .getOrg orgId | .deleteOrg orgId => p orgId = true
  | .listOrgs => ∀ k, p k = true
  | .getFormation orgId appId | .deleteFormation orgId appId | .getGenesis orgId appId
  | .deleteGenesis orgId appId => q (formationKey orgId appId) = true
  | .getToken orgId tokenId | .deleteToken orgId tokenId => q (tokenKey orgId tokenId) = true
  | .getSink orgId sinkId | .deleteSink orgId sinkId => q (sinkKey orgId sinkId) = true
  | .getIdp orgId idpId | .deleteIdp orgId idpId => q (idpKey orgId idpId) = true
  | .deletePolicyRule orgId ruleId => q (policyRuleKey orgId ruleId) = true
  | .getCursor orgId appId documentId => q (cursorKey orgId appId documentId) = true
  | .listFormations orgId | .listTokens orgId _ | .listSinks orgId | .listIdps orgId
  | .listPolicyRules orgId | .listAudit orgId _ _ => ∀ k, belongsTo orgId k = true → q k = true
  | _ => True

section Refinement

variable {fmt : JsonFormat} {p q : String → Bool} {f : RedbFile} {s : Redb}

theorem Stores.deleteOrg (h : Stores fmt p q f s) (orgId : String) :
    Stores fmt p q (f.deleteOrg orgId) (s.deleteOrg orgId) where
  orgs := h.orgs.erase _
  formations := h.formations.removeAll _
  tokens := h.tokens.removeAll _
  sinks := h.sinks.removeAll _
  cursors := h.cursors.removeAll _
  idps := h.idps.removeAll _
  policyRules := h.policyRules.removeAll _
  audit := h.audit.removeAll _
  genesis := h.genesis.removeAll _

/-- Whether a row is there is whether the record is. -/
theorem isSome_eq {V : Type} {R : Bytes → V → Prop} {t : Table String Bytes} {t' : Table String V}
    (h : Table.AlikeOn q R t t') {key : String} (hkey : q key = true) :
    (Except.ok t[key]?.isSome : Except Error Bool) = .ok t'[key]?.isSome :=
  congrArg Except.ok (isSome_eq_of_rel (h key hkey))

theorem get_eq {V : Type} {t t' : Table String V} (h : Table.AlikeOn q Eq t t') {key : String}
    (hkey : q key = true) : t[key]? = t'[key]? := by
  have hrel := h key hkey
  generalize t[key]? = o at hrel
  generalize t'[key]? = o' at hrel
  cases hrel with
  | none => rfl
  | some h => rw [h]

/-- **A call that reads rows that can be read is answered from their records**, and what it writes
can be read. -/
theorem exec_stores (h : Stores fmt p q f s) {c : StorageCall} (hc : Covers p q c) :
    (exec fmt c f).1 = (Redb.exec c s).1 ∧
      Stores fmt p q (exec fmt c f).2 (Redb.exec c s).2 := by
  cases c with
  | createOrg o | updateOrg o =>
    exact ⟨rfl, { h with
      orgs := h.orgs.insert _ (JsonFormat.holds_encode Organization.codec_wellFormed o) }⟩
  | getOrg o => exact ⟨find_eq h.orgs hc, h⟩
  | listOrgs => exact ⟨mapM_decode (forall₂_map_snd (h.orgs.toList hc)), h⟩
  | deleteOrg o => exact ⟨isSome_eq h.orgs hc, h.deleteOrg o⟩
  | createFormation o x =>
    exact ⟨rfl, { h with
      formations := h.formations.insert _
        (JsonFormat.holds_encode FormationConfig.codec_wellFormed x) }⟩
  | getFormation o a => exact ⟨find_eq h.formations hc, h⟩
  | listFormations o => exact ⟨list_eq h.formations hc, h⟩
  | deleteFormation o a =>
    exact ⟨isSome_eq h.formations hc, { h with formations := h.formations.erase _ }⟩
  | createToken t | updateToken t =>
    exact ⟨rfl, { h with
      tokens := h.tokens.insert _ (JsonFormat.holds_encode EnrollmentToken.codec_wellFormed t) }⟩
  | getToken o x => exact ⟨find_eq h.tokens hc, h⟩
  | listTokens o a =>
    refine ⟨?_, h⟩
    change (list fmt EnrollmentToken.codec f.tokens o).map _ = _
    rw [list_eq h.tokens hc]
    rfl
  | deleteToken o x => exact ⟨isSome_eq h.tokens hc, { h with tokens := h.tokens.erase _ }⟩
  | createSink k | updateSink k =>
    exact ⟨rfl, { h with
      sinks := h.sinks.insert _ (JsonFormat.holds_encode CdcSinkConfig.codec_wellFormed k) }⟩
  | getSink o x => exact ⟨find_eq h.sinks hc, h⟩
  | listSinks o => exact ⟨list_eq h.sinks hc, h⟩
  | deleteSink o x => exact ⟨isSome_eq h.sinks hc, { h with sinks := h.sinks.erase _ }⟩
  | createIdp i | updateIdp i =>
    exact ⟨rfl, { h with
      idps := h.idps.insert _ (JsonFormat.holds_encode IdpConfig.codec_wellFormed i) }⟩
  | getIdp o x => exact ⟨find_eq h.idps hc, h⟩
  | listIdps o => exact ⟨list_eq h.idps hc, h⟩
  | deleteIdp o x => exact ⟨isSome_eq h.idps hc, { h with idps := h.idps.erase _ }⟩
  | createPolicyRule r =>
    exact ⟨rfl, { h with
      policyRules := h.policyRules.insert _
        (JsonFormat.holds_encode PolicyRule.codec_wellFormed r) }⟩
  | listPolicyRules o => exact ⟨list_eq h.policyRules hc, h⟩
  | deletePolicyRule o x =>
    exact ⟨isSome_eq h.policyRules hc, { h with policyRules := h.policyRules.erase _ }⟩
  | appendAudit e =>
    exact ⟨rfl, { h with
      audit := h.audit.insert _
        (JsonFormat.holds_encode EnrollmentAuditEntry.codec_wellFormed e) }⟩
  | listAudit o a limit =>
    -- of the rows of others it is not known whether they can be read
    have hrows := List.rel_reverse (h.audit.filter_toList (q := belongsTo o) hc)
    rw [← List.filter_reverse, ← List.filter_reverse] at hrows
    have hloop := auditLoop_eq o a limit.toNat hrows []
    rw [auditLoop_filter, Redb.auditLoop_filter] at hloop
    exact ⟨hloop, h⟩
  | storeGenesis o a b => exact ⟨rfl, { h with genesis := h.genesis.insert _ rfl }⟩
  | getGenesis o a => exact ⟨congrArg Except.ok (get_eq h.genesis hc), h⟩
  | deleteGenesis o a =>
    exact ⟨isSome_eq h.genesis hc, { h with genesis := h.genesis.erase _ }⟩
  | getCursor o a d => exact ⟨congrArg Except.ok (get_eq h.cursors hc), h⟩
  | setCursor o a d v => exact ⟨rfl, { h with cursors := h.cursors.insert _ rfl }⟩

end Refinement

/-- The calls that read rows under keys that pass the tests. -/
def coveredSpec (p q : String → Bool) : Spec Storage := ⟨Covers p q, fun _ _ => True⟩

theorem coveredSpec_sound (fmt : JsonFormat) (p q : String → Bool) :
    (Pairing.same (coveredSpec p q)).Sound (exec fmt) Redb.exec (Stores fmt p q) := by
  rintro c _ f s h ⟨rfl, hc⟩
  obtain ⟨hanswer, h'⟩ := exec_stores h hc
  exact ⟨⟨heq_of_eq hanswer, fun _ _ => trivial⟩, h'⟩

/-- A file all of whose rows can be read. -/
abbrev Reads (fmt : JsonFormat) (f : RedbFile) (s : Redb) : Prop :=
  Stores fmt (fun _ => true) (fun _ => true) f s

/-- **Over a file all of whose rows can be read, every run is as over the records**: whatever
programs are started, and in whatever order they make their calls, they return the same, and the
rows go on being read as the records. -/
theorem redbFile_refines {α : Type} (fmt : JsonFormat) {f : RedbFile} {s : Redb}
    (h : f.Reads fmt s) (l : List (Act Storage Error α)) :
    (Pool.acts (exec fmt) ⟨f, []⟩ l).store.Reads fmt (Pool.acts Redb.exec ⟨s, []⟩ l).store ∧
      ∀ i : ℕ, (Pool.acts (exec fmt) ⟨f, []⟩ l).threads[i]?.bind Prog.returned =
        (Pool.acts Redb.exec ⟨s, []⟩ l).threads[i]?.bind Prog.returned := by
  have hall : ∀ c, (coveredSpec (fun _ => true) fun _ => true).pre c := by
    intro c
    cases c <;> simp [coveredSpec, Covers]
  exact Pool.acts_same (coveredSpec_sound fmt _ _) h fun x _ => Prog.meets_of_pre hall x

end RedbFile

/-! ### Rows of an earlier version -/

/-- Quotas as they were written before there was a limit on enrollments. -/
def OrgQuotas.writeWithoutRate (q : OrgQuotas) : Json := .object [
  ("max_formations", Codec.uint32.write q.maxFormations),
  ("max_peers_per_formation", Codec.uint32.write q.maxPeersPerFormation),
  ("max_documents_per_formation", Codec.uint32.write q.maxDocumentsPerFormation),
  ("max_cdc_sinks", Codec.uint32.write q.maxCdcSinks)]

/-- An organization as it was written then. -/
def Organization.writeWithoutRate (o : Organization) : Json := .object [
  ("org_id", Codec.string.write o.orgId),
  ("display_name", Codec.string.write o.displayName),
  ("quotas", o.quotas.writeWithoutRate),
  ("created_at", Codec.uint64.write o.createdAt)]

/-- An organization with the limit that stands for none. -/
def Organization.withDefaultRate (o : Organization) : Organization :=
  { o with quotas := { o.quotas with maxEnrollmentsPerHour := defaultMaxEnrollmentsPerHour } }

theorem OrgQuotas.read_writeWithoutRate (q : OrgQuotas) :
    OrgQuotas.codec.read q.writeWithoutRate =
      some { q with maxEnrollmentsPerHour := defaultMaxEnrollmentsPerHour } := by
  simp [OrgQuotas.codec, OrgQuotas.writeWithoutRate, Codec.field_cons_self,
    Codec.field_cons_of_ne]

/-- **An organization of an earlier version is read with the default limit.** -/
theorem Organization.read_writeWithoutRate (o : Organization) :
    Organization.codec.read o.writeWithoutRate = some o.withDefaultRate := by
  simp [Organization.codec, Organization.writeWithoutRate, Organization.withDefaultRate,
    Codec.field_cons_self, Codec.field_cons_of_ne, OrgQuotas.read_writeWithoutRate]

theorem Organization.writeWithoutRate_wellFormed (o : Organization) :
    o.writeWithoutRate.wellFormed = true := by
  simp [Organization.writeWithoutRate, OrgQuotas.writeWithoutRate, Json.wellFormed,
    Json.fieldsWellFormed]

namespace RedbFile

/-- The file of a store, in which the organizations for which `old` holds were written by an
earlier version. -/
def ofRecords (fmt : JsonFormat) (old : String → Bool) (s : Redb) : RedbFile where
  orgs := s.orgs.map fun k o =>
    if old k then fmt.write o.writeWithoutRate else fmt.encode Organization.codec o
  formations := s.formations.map fun _ => fmt.encode FormationConfig.codec
  tokens := s.tokens.map fun _ => fmt.encode EnrollmentToken.codec
  sinks := s.sinks.map fun _ => fmt.encode CdcSinkConfig.codec
  cursors := s.cursors
  idps := s.idps.map fun _ => fmt.encode IdpConfig.codec
  policyRules := s.policyRules.map fun _ => fmt.encode PolicyRule.codec
  audit := s.audit.map fun _ => fmt.encode EnrollmentAuditEntry.codec
  genesis := s.genesis

/-- The store as it is read from that file. -/
def upgraded (old : String → Bool) (s : Redb) : Redb :=
  { s with orgs := s.orgs.map fun k o => if old k then o.withDefaultRate else o }

theorem alike_map {V : Type} {R : Bytes → V → Prop} {t : Table String V} {row : String → V → Bytes}
    {seen : String → V → V} (h : ∀ k v, R (row k v) (seen k v)) :
    Table.Alike R (t.map row) (t.map seen) := by
  intro k _
  rw [Std.ExtTreeMap.getElem?_map, Std.ExtTreeMap.getElem?_map]
  cases t[k]? with
  | none => exact .none
  | some v => exact .some (h k v)

/-- The rows of a table that the codec has written. -/
theorem alike_encode {fmt : JsonFormat} {V : Type} {c : Codec V} (hc : c.WellFormed)
    (t : Table String V) : Table.Alike (fmt.Holds c) (t.map fun _ => fmt.encode c) t := by
  intro k _
  rw [Std.ExtTreeMap.getElem?_map]
  cases t[k]? with
  | none => exact .none
  | some v => exact .some (JsonFormat.holds_encode hc v)

theorem alike_refl {V : Type} (t : Table String V) : Table.Alike Eq t t := by
  intro k _
  cases t[k]? with
  | none => exact .none
  | some v => exact .some rfl

/-- **The file of a store can be read.** -/
theorem reads_ofRecords (fmt : JsonFormat) (old : String → Bool) (s : Redb) :
    (ofRecords fmt old s).Reads fmt (upgraded old s) where
  orgs := alike_map fun k o => by
    split
    · exact JsonFormat.holds_write o.writeWithoutRate_wellFormed o.read_writeWithoutRate
    · exact JsonFormat.holds_encode Organization.codec_wellFormed o
  formations := alike_encode FormationConfig.codec_wellFormed _
  tokens := alike_encode EnrollmentToken.codec_wellFormed _
  sinks := alike_encode CdcSinkConfig.codec_wellFormed _
  cursors := alike_refl _
  idps := alike_encode IdpConfig.codec_wellFormed _
  policyRules := alike_encode PolicyRule.codec_wellFormed _
  audit := alike_encode EnrollmentAuditEntry.codec_wellFormed _
  genesis := alike_refl _

/-- **A database of an earlier version is served as if all its organizations had the default
limit**: whatever programs are started over its file, and in whatever order they make their calls,
they return what they would return over the records, and so they do over the file that is left. -/
theorem redbFile_upgrade {α : Type} (fmt : JsonFormat) (old : String → Bool) (s : Redb)
    (l : List (Act Storage Error α)) :
    (Pool.acts (exec fmt) ⟨ofRecords fmt old s, []⟩ l).store.Reads fmt
        (Pool.acts Redb.exec ⟨upgraded old s, []⟩ l).store ∧
      ∀ i : ℕ, (Pool.acts (exec fmt) ⟨ofRecords fmt old s, []⟩ l).threads[i]?.bind Prog.returned =
        (Pool.acts Redb.exec ⟨upgraded old s, []⟩ l).threads[i]?.bind Prog.returned :=
  redbFile_refines fmt (reads_ofRecords fmt old s) l

end RedbFile

end PeatGateway
