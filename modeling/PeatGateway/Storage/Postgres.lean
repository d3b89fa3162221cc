import PeatGateway.Lib.Rows
import PeatGateway.Storage.Backend

/-!
# The Postgres backend

One relation per kind of record, each with its primary key; all but the first refer to
the organization by a foreign key with `ON DELETE CASCADE`.  A statement that violates a
constraint fails and changes nothing.  Text is ordered by its bytes.

## Main definitions

* `AuditRow` — the columns of the enrollment log.
* `Postgres` — the nine relations.
* `Postgres.exec` — the backend: one statement for each storage call.
-/

namespace PeatGateway

open Effect

/-- A row of `enrollment_audit`: two columns copied from the entry, and the entry.  The
time is cast to `BIGINT`. -/
structure AuditRow where
  appId : String
  timestampMs : Int64
  data : EnrollmentAuditEntry
  deriving DecidableEq

/-- The nine relations. -/
structure Postgres where
  orgs : Rows String Organization
  formations : Rows (String × String) FormationConfig
  tokens : Rows (String × String) EnrollmentToken
  sinks : Rows (String × String) CdcSinkConfig
  cursors : Rows (String × String × String) String
  idps : Rows (String × String) IdpConfig
  policyRules : Rows (String × String) PolicyRule
  genesis : Rows (String × String) Bytes
  audit : Rows (String × String) AuditRow

namespace Postgres

/-- The relations after `connect` has created them. -/
def empty : Postgres := ⟨.empty, .empty, .empty, .empty, .empty, .empty, .empty, .empty, .empty⟩

/-- The error of a duplicate primary key. -/
def duplicateKey (table : String) : Error :=
  s!"error returned from database: duplicate key value violates unique constraint \"{table}_pkey\""

/-- The error of a reference to an organization that does not exist. -/
def missingOrg (table : String) : Error :=
  s!"error returned from database: insert or update on table \"{table}\" violates foreign key constraint \"{table}_org_id_fkey\""

/-- `INSERT` into a relation that refers to the organization. -/
def insertChild {κ V : Type} [DecidableEq κ] (s : Postgres) (table : String) (t : Rows κ V)
    (orgId : String) (k : κ) (v : V) : Except Error (Rows κ V) :=
  match t.insert k v with
  | none => .error (duplicateKey table)
  | some t' => if (s.orgs.select orgId).isSome then .ok t' else .error (missingOrg table)

section Insert

variable {κ V : Type} [DecidableEq κ] {s : Postgres} {table orgId : String} {t : Rows κ V} {k : κ}
  {v : V}

/-- An insert that is not rejected found its key new and the organization there. -/
theorem insertChild_eq_ok {t' : Rows κ V} (h : s.insertChild table t orgId k v = .ok t') :
    t.insert k v = some t' ∧ (s.orgs.select orgId).isSome = true := by
  unfold insertChild at h
  split at h
  · cases h
  · next t₁ hins =>
    split at h
    · next horg => exact ⟨Except.ok.inj h ▸ hins, horg⟩
    · cases h

/-- An insertion of a new key under an organization that exists. -/
theorem insertChild_ok (table : String) (hk : t.select k = none)
    (horg : (s.orgs.select orgId).isSome = true) :
    ∃ t', s.insertChild table t orgId k v = .ok t' ∧
      ∀ k', t'.select k' = if k = k' then some v else t.select k' := by
  cases hi : t.insert k v with
  | none =>
    have hsome := Rows.insert_eq_none.mp hi
    rw [hk] at hsome
    cases hsome
  | some t' =>
    refine ⟨t', ?_, Rows.select_insert hi⟩
    simp only [insertChild, hi, horg, if_true]

end Insert

/-- `INSERT … ON CONFLICT DO UPDATE` into a relation that refers to the organization.  The
columns of the reference are not updated. -/
def upsertChild {κ V : Type} [DecidableEq κ] (s : Postgres) (table : String) (t : Rows κ V)
    (orgId : String) (k : κ) (v : V) : Except Error (Rows κ V) :=
  if (t.select k).isSome || (s.orgs.select orgId).isSome then .ok (t.upsert k v)
  else .error (missingOrg table)

/-- The outcome of a statement that rewrites one relation. -/
def commit {T : Type} (s : Postgres) (r : Except Error T) (f : T → Postgres) :
    Except Error Unit × Postgres :=
  match r with
  | .ok t => (.ok (), f t)
  | .error e => (.error e, s)

/-- What holds of the store before a statement and after one that succeeds. -/
theorem commit_ind {T : Type} {s : Postgres} {r : Except Error T} {f : T → Postgres}
    {Q : Postgres → Prop} (hs : Q s) (hf : ∀ t, r = .ok t → Q (f t)) : Q (commit s r f).2 := by
  unfold commit
  split
  · exact hf _ rfl
  · exact hs

/-- `DELETE FROM orgs`, with the rows that refer to the organization. -/
def deleteOrg (s : Postgres) (orgId : String) : Postgres where
  orgs := s.orgs.delete orgId
  formations := s.formations.deleteWhere (·.1 == orgId)
  tokens := s.tokens.deleteWhere (·.1 == orgId)
  sinks := s.sinks.deleteWhere (·.1 == orgId)
  cursors := s.cursors.deleteWhere (·.1 == orgId)
  idps := s.idps.deleteWhere (·.1 == orgId)
  policyRules := s.policyRules.deleteWhere (·.1 == orgId)
  genesis := s.genesis.deleteWhere (·.1 == orgId)
  audit := s.audit.deleteWhere (·.1 == orgId)

/-- The rows a query of the log selects, newest first. -/
def auditRows (s : Postgres) (orgId : String) (appId : Option String) : List AuditRow :=
  ((s.audit.rows.filter fun r => r.1.1 == orgId && appId.all (r.2.appId == ·)).map
    Prod.snd).insertionSort fun a b => b.timestampMs ≤ a.timestampMs

/-- `list_audit`.  The limit is cast to a signed parameter; a negative one is rejected. -/
def listAudit (s : Postgres) (orgId : String) (appId : Option String) (limit : UInt64) :
    Except Error (List EnrollmentAuditEntry) :=
  if limit.toInt64 < 0 then .error "error returned from database: LIMIT must not be negative"
  else .ok (((s.auditRows orgId appId).take limit.toInt64.toNatClampNeg).map AuditRow.data)

/-- The backend. -/
def exec : Backend Postgres
  | .createOrg org, s =>
    commit s (match s.orgs.insert org.orgId org with
      | none => .error (duplicateKey "orgs")
      | some t => .ok t) fun t => { s with orgs := t }
  | .getOrg orgId, s => (.ok (s.orgs.select orgId), s)
  | .listOrgs, s => (.ok (s.orgs.orderBy (fun _ => true) id), s)
  | .updateOrg org, s => (.ok (), { s with orgs := s.orgs.update org.orgId org })
  | .deleteOrg orgId, s =>
    (.ok (s.orgs.select orgId).isSome,
      if (s.orgs.select orgId).isSome then s.deleteOrg orgId else s)
  | .createFormation orgId f, s =>
    commit s (s.insertChild "formations" s.formations orgId (orgId, f.appId) f)
      fun t => { s with formations := t }
  | .getFormation orgId appId, s => (.ok (s.formations.select (orgId, appId)), s)
  | .listFormations orgId, s => (.ok (s.formations.orderBy (·.1 == orgId) Prod.snd), s)
  | .deleteFormation orgId appId, s =>
    (.ok (s.formations.select (orgId, appId)).isSome,
      { s with formations := s.formations.delete (orgId, appId) })
  | .createToken t, s =>
    commit s (s.insertChild "enrollment_tokens" s.tokens t.orgId (t.orgId, t.tokenId) t)
      fun ts => { s with tokens := ts }
  | .getToken orgId tokenId, s => (.ok (s.tokens.select (orgId, tokenId)), s)
  | .listTokens orgId appId, s =>
    (.ok ((s.tokens.orderBy (·.1 == orgId) Prod.snd).filter (·.appId == appId)), s)
  | .updateToken t, s =>
    (.ok (), { s with tokens := s.tokens.update (t.orgId, t.tokenId) t })
  | .deleteToken orgId tokenId, s =>
    (.ok (s.tokens.select (orgId, tokenId)).isSome,
      { s with tokens := s.tokens.delete (orgId, tokenId) })
  | .createSink k, s =>
    commit s (s.insertChild "cdc_sinks" s.sinks k.orgId (k.orgId, k.sinkId) k)
      fun t => { s with sinks := t }
  | .getSink orgId sinkId, s => (.ok (s.sinks.select (orgId, sinkId)), s)
  | .listSinks orgId, s => (.ok (s.sinks.orderBy (·.1 == orgId) Prod.snd), s)
  | .updateSink k, s => (.ok (), { s with sinks := s.sinks.update (k.orgId, k.sinkId) k })
  | .deleteSink orgId sinkId, s =>
    (.ok (s.sinks.select (orgId, sinkId)).isSome,
      { s with sinks := s.sinks.delete (orgId, sinkId) })
  | .createIdp i, s =>
    commit s (s.insertChild "idp_configs" s.idps i.orgId (i.orgId, i.idpId) i)
      fun t => { s with idps := t }
  | .getIdp orgId idpId, s => (.ok (s.idps.select (orgId, idpId)), s)
  | .listIdps orgId, s => (.ok (s.idps.orderBy (·.1 == orgId) Prod.snd), s)
  | .updateIdp i, s => (.ok (), { s with idps := s.idps.update (i.orgId, i.idpId) i })
  | .deleteIdp orgId idpId, s =>
    (.ok (s.idps.select (orgId, idpId)).isSome,
      { s with idps := s.idps.delete (orgId, idpId) })
  | .createPolicyRule r, s =>
    commit s (s.insertChild "policy_rules" s.policyRules r.orgId (r.orgId, r.ruleId) r)
      fun t => { s with policyRules := t }
  | .listPolicyRules orgId, s => (.ok (s.policyRules.orderBy (·.1 == orgId) Prod.snd), s)
  | .deletePolicyRule orgId ruleId, s =>
    (.ok (s.policyRules.select (orgId, ruleId)).isSome,
      { s with policyRules := s.policyRules.delete (orgId, ruleId) })
  | .appendAudit e, s =>
    commit s (s.insertChild "enrollment_audit" s.audit e.orgId (e.orgId, e.auditId)
      ⟨e.appId, e.timestampMs.toInt64, e⟩) fun t => { s with audit := t }
  | .listAudit orgId appId limit, s => (s.listAudit orgId appId limit, s)
  | .storeGenesis orgId appId encoded, s =>
    commit s (s.upsertChild "genesis" s.genesis orgId (orgId, appId) encoded)
      fun t => { s with genesis := t }
  | .getGenesis orgId appId, s => (.ok (s.genesis.select (orgId, appId)), s)
  | .deleteGenesis orgId appId, s =>
    (.ok (s.genesis.select (orgId, appId)).isSome,
      { s with genesis := s.genesis.delete (orgId, appId) })
  | .getCursor orgId appId documentId, s =>
    (.ok (s.cursors.select (orgId, appId, documentId)), s)
  | .setCursor orgId appId documentId changeHash, s =>
    commit s (s.upsertChild "cdc_cursors" s.cursors orgId (orgId, appId, documentId) changeHash)
      fun t => { s with cursors := t }

end Postgres

end PeatGateway
