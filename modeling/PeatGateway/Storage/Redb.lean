import Mathlib.Algebra.Group.Nat.Defs
import PeatGateway.Lib.Scan
import PeatGateway.Lib.Text
import PeatGateway.Storage.Backend

/-!
# The redb backend

One flat table per kind of record, keyed by strings: an organization by its id, all
else by the id of its organization, a NUL and the id of the record.  Listing what
belongs to an organization walks the whole table and tests the key.  redb orders
string keys by their bytes, which is the order of `String`; a value that is written
is read back as it was.

## Main definitions

* `formationKey`, `tokenKey`, … — the composite keys.
* `Redb` — the nine tables.
* `Redb.exec` — the backend: one transaction for each storage call.

## Main results

* `auditLoop_eq` — the loop of `list_audit` takes a bounded number of the matching
  entries.
-/

namespace PeatGateway

open Effect Text

/-! ### Keys -/

/-- The composite key of two parts: `format!("{}\0{}", a, b)`. -/
def nulKey (a b : String) : String := glue '\x00' a b

/-- Composite key for formations, and for the genesis of a formation. -/
def formationKey (orgId appId : String) : String := nulKey orgId appId

/-- What every composite key of an organization starts with. -/
def formationPrefix (orgId : String) : String := nulKey orgId ""

/-- Composite key for tokens. -/
def tokenKey (orgId tokenId : String) : String := nulKey orgId tokenId

/-- Composite key for sinks. -/
def sinkKey (orgId sinkId : String) : String := nulKey orgId sinkId

/-- Composite key for cursors: `format!("{}\0{}\0{}", org_id, app_id, document_id)`. -/
def cursorKey (orgId appId documentId : String) : String :=
  nulKey orgId (nulKey appId documentId)

/-- Composite key for identity providers. -/
def idpKey (orgId idpId : String) : String := nulKey orgId idpId

/-- Composite key for policy rules. -/
def policyRuleKey (orgId ruleId : String) : String := nulKey orgId ruleId

/-- `format!("{:020}", n)`: decimal, padded with zeros to twenty digits. -/
def pad20 (n : UInt64) : String :=
  String.ofList (List.leftpad 20 '0' (Nat.toDigits 10 n.toNat))

/-- Composite key for audit entries: `format!("{}\0{:020}\0{}", org_id, timestamp_ms, audit_id)`. -/
def auditKey (orgId : String) (timestampMs : UInt64) (auditId : String) : String :=
  nulKey orgId (nulKey (pad20 timestampMs) auditId)

/-- The test of every scan for the records of an organization. -/
def belongsTo (orgId key : String) : Bool := startsWith key (formationPrefix orgId)

/-! ### The store -/

/-- The nine tables. -/
structure Redb where
  orgs : Table String Organization
  formations : Table String FormationConfig
  tokens : Table String EnrollmentToken
  sinks : Table String CdcSinkConfig
  cursors : Table String String
  idps : Table String IdpConfig
  policyRules : Table String PolicyRule
  audit : Table String EnrollmentAuditEntry
  genesis : Table String Bytes

namespace Redb

/-- The tables of a new database. -/
def empty : Redb := ⟨∅, ∅, ∅, ∅, ∅, ∅, ∅, ∅, ∅⟩

/-- `delete_org`: the organization, then everything whose key starts with its prefix. -/
def deleteOrg (s : Redb) (orgId : String) : Redb where
  orgs := s.orgs.erase orgId
  formations := s.formations.removeAll (belongsTo orgId)
  tokens := s.tokens.removeAll (belongsTo orgId)
  sinks := s.sinks.removeAll (belongsTo orgId)
  idps := s.idps.removeAll (belongsTo orgId)
  policyRules := s.policyRules.removeAll (belongsTo orgId)
  audit := s.audit.removeAll (belongsTo orgId)
  genesis := s.genesis.removeAll (belongsTo orgId)
  cursors := s.cursors.removeAll (belongsTo orgId)

/-- The loop of `list_audit` over the rows, newest first.  The limit is looked at after
each entry that is taken. -/
def auditLoop (orgId : String) (appId : Option String) (limit : ℕ) :
    List (String × EnrollmentAuditEntry) → List EnrollmentAuditEntry → List EnrollmentAuditEntry
  | [], entries => entries
  | (key, e) :: rows, entries =>
    if belongsTo orgId key && appId.all (e.appId == ·) then
      if (entries ++ [e]).length ≥ limit then entries ++ [e]
      else auditLoop orgId appId limit rows (entries ++ [e])
    else auditLoop orgId appId limit rows entries

/-- `list_audit`. -/
def listAudit (s : Redb) (orgId : String) (appId : Option String) (limit : UInt64) :
    List EnrollmentAuditEntry :=
  auditLoop orgId appId limit.toNat s.audit.toList.reverse []

/-- What `list_audit` looks for. -/
def auditMatch (orgId : String) (appId : Option String)
    (row : String × EnrollmentAuditEntry) : Bool :=
  belongsTo orgId row.1 && appId.all (row.2.appId == ·)

/-- **What the loop collects**: the first matching rows up to the limit, and one row even
if the limit is zero, since the limit is looked at too late. -/
theorem auditLoop_eq (orgId : String) (appId : Option String) (limit : ℕ)
    (rows : List (String × EnrollmentAuditEntry)) (entries : List EnrollmentAuditEntry) :
    auditLoop orgId appId limit rows entries =
      entries ++ ((rows.filter (auditMatch orgId appId)).map Prod.snd).take
        (max 1 (limit - entries.length)) := by
  induction rows generalizing entries with
  | nil => simp [auditLoop]
  | cons row rows ih =>
    obtain ⟨key, e⟩ := row
    rw [auditLoop]
    change (if auditMatch orgId appId (key, e) = true then _ else _) = _
    split
    · next hm =>
      rw [List.filter_cons_of_pos hm, List.map_cons]
      simp only [List.length_append, List.length_singleton]
      split
      -- The loop stops, and keeps this row even if the limit was reached before it.
      · next hge =>
        rw [Nat.max_eq_left (by omega)]
        simp
      · next hlt =>
        obtain ⟨k, hk⟩ : ∃ k, limit - entries.length = k + 1 + 1 :=
          ⟨limit - entries.length - 2, by omega⟩
        rw [ih, hk, List.length_append, List.length_singleton,
          show limit - (entries.length + 1) = k + 1 by omega, Nat.max_eq_right (by omega),
          Nat.max_eq_right (by omega), List.take_succ_cons, List.append_assoc]
        rfl
    · next hm => rw [ih, List.filter_cons_of_neg hm]

/-- `list_audit` in one expression. -/
theorem listAudit_eq (s : Redb) (orgId : String) (appId : Option String) (limit : UInt64) :
    s.listAudit orgId appId limit =
      ((s.audit.toList.reverse.filter (auditMatch orgId appId)).map Prod.snd).take
        (max 1 limit.toNat) := by
  rw [listAudit, auditLoop_eq]
  simp

/-- The largest limit there is lists the whole log of the organization, latest first, if a
`usize` can count it. -/
theorem listAudit_max {s : Redb} {orgId : String}
    (hlen : (s.audit.scan (belongsTo orgId)).length < 2 ^ 64) :
    s.listAudit orgId none 0xFFFFFFFFFFFFFFFF = (s.audit.scan (belongsTo orgId)).reverse := by
  have hmatch : s.audit.toList.reverse.filter (auditMatch orgId none) =
      (s.audit.toList.filter fun kv => belongsTo orgId kv.1).reverse := by
    rw [List.filter_reverse]
    refine congrArg List.reverse (List.filter_congr ?_)
    intro kv _
    rw [auditMatch, Option.all_none, Bool.and_true]
  rw [listAudit_eq, hmatch, List.map_reverse, List.take_of_length_le]
  · rfl
  · rw [List.length_reverse]
    exact le_trans (Nat.le_of_lt_succ hlen) (Nat.le_max_right _ _)

/-- The backend.  An update is a creation, since an insert overwrites. -/
def exec : Backend Redb
  | .createOrg org, s | .updateOrg org, s =>
    (.ok (), { s with orgs := s.orgs.insert org.orgId org })
  | .getOrg orgId, s => (.ok s.orgs[orgId]?, s)
  | .listOrgs, s => (.ok (s.orgs.toList.map Prod.snd), s)
  | .deleteOrg orgId, s => (.ok s.orgs[orgId]?.isSome, s.deleteOrg orgId)
  | .createFormation orgId f, s =>
    (.ok (), { s with formations := s.formations.insert (formationKey orgId f.appId) f })
  | .getFormation orgId appId, s => (.ok s.formations[formationKey orgId appId]?, s)
  | .listFormations orgId, s => (.ok (s.formations.scan (belongsTo orgId)), s)
  | .deleteFormation orgId appId, s =>
    (.ok s.formations[formationKey orgId appId]?.isSome,
      { s with formations := s.formations.erase (formationKey orgId appId) })
  | .createToken t, s | .updateToken t, s =>
    (.ok (), { s with tokens := s.tokens.insert (tokenKey t.orgId t.tokenId) t })
  | .getToken orgId tokenId, s => (.ok s.tokens[tokenKey orgId tokenId]?, s)
  | .listTokens orgId appId, s =>
    (.ok ((s.tokens.scan (belongsTo orgId)).filter (·.appId == appId)), s)
  | .deleteToken orgId tokenId, s =>
    (.ok s.tokens[tokenKey orgId tokenId]?.isSome,
      { s with tokens := s.tokens.erase (tokenKey orgId tokenId) })
  | .createSink k, s | .updateSink k, s =>
    (.ok (), { s with sinks := s.sinks.insert (sinkKey k.orgId k.sinkId) k })
  | .getSink orgId sinkId, s => (.ok s.sinks[sinkKey orgId sinkId]?, s)
  | .listSinks orgId, s => (.ok (s.sinks.scan (belongsTo orgId)), s)
  | .deleteSink orgId sinkId, s =>
    (.ok s.sinks[sinkKey orgId sinkId]?.isSome,
      { s with sinks := s.sinks.erase (sinkKey orgId sinkId) })
  | .createIdp i, s | .updateIdp i, s =>
    (.ok (), { s with idps := s.idps.insert (idpKey i.orgId i.idpId) i })
  | .getIdp orgId idpId, s => (.ok s.idps[idpKey orgId idpId]?, s)
  | .listIdps orgId, s => (.ok (s.idps.scan (belongsTo orgId)), s)
  | .deleteIdp orgId idpId, s =>
    (.ok s.idps[idpKey orgId idpId]?.isSome,
      { s with idps := s.idps.erase (idpKey orgId idpId) })
  | .createPolicyRule r, s =>
    (.ok (), { s with policyRules := s.policyRules.insert (policyRuleKey r.orgId r.ruleId) r })
  | .listPolicyRules orgId, s => (.ok (s.policyRules.scan (belongsTo orgId)), s)
  | .deletePolicyRule orgId ruleId, s =>
    (.ok s.policyRules[policyRuleKey orgId ruleId]?.isSome,
      { s with policyRules := s.policyRules.erase (policyRuleKey orgId ruleId) })
  | .appendAudit e, s =>
    (.ok (), { s with audit := s.audit.insert (auditKey e.orgId e.timestampMs e.auditId) e })
  | .listAudit orgId appId limit, s => (.ok (s.listAudit orgId appId limit), s)
  | .storeGenesis orgId appId encoded, s =>
    (.ok (), { s with genesis := s.genesis.insert (formationKey orgId appId) encoded })
  | .getGenesis orgId appId, s => (.ok s.genesis[formationKey orgId appId]?, s)
  | .deleteGenesis orgId appId, s =>
    (.ok s.genesis[formationKey orgId appId]?.isSome,
      { s with genesis := s.genesis.erase (formationKey orgId appId) })
  | .getCursor orgId appId documentId, s => (.ok s.cursors[cursorKey orgId appId documentId]?, s)
  | .setCursor orgId appId documentId changeHash, s =>
    (.ok (), { s with cursors := s.cursors.insert (cursorKey orgId appId documentId) changeHash })

end Redb

end PeatGateway
