import PeatGateway.Storage.Open
import PeatGateway.Lib.Text

/-!
# The two backends answer alike

The backends differ call by call: an insertion overwrites on redb and fails on Postgres,
an update creates on redb and does nothing on Postgres.  They answer alike where a call
is *portable*: an insertion is of a key that is not there yet, an update of one that is,
and what belongs to an organization is written only while that exists.

## Main definitions

* `ChildOf` — a table of redb and a relation of Postgres hold the same records, all of
  them of organizations that exist.
* `Same` — the stores hold the same records.
* `Portable` — the calls both backends answer alike.

## Main results

* `same_exec` — **a portable call is answered alike and leaves stores that hold the same
  records**.
-/

namespace PeatGateway

open Effect Text

/-! ### Keys of both backends -/

/-- Strings that Postgres stores: those without NUL. -/
abbrev NulFree (x : String) : Prop := Free '\x00' x

/-- Both parts of a primary key are free of NUL. -/
def PairFree (k : String × String) : Prop := NulFree k.1 ∧ NulFree k.2

/-- All parts of the primary key of a cursor are free of NUL. -/
def TripleFree (k : String × String × String) : Prop := NulFree k.1 ∧ PairFree k.2

/-- The key on redb of a primary key of two parts. -/
def pairKey (k : String × String) : String := nulKey k.1 k.2

/-- The key on redb of the primary key of a cursor. -/
def tripleKey (k : String × String × String) : String := nulKey k.1 (pairKey k.2)

theorem idKey_injOn : Rows.InjOn NulFree (fun k : String => k) := fun _ _ _ _ h => h

theorem pairKey_injOn : Rows.InjOn PairFree pairKey := by
  intro k k' hk hk' h
  obtain ⟨h₁, h₂⟩ := glue_inj hk.1 hk'.1 h
  exact Prod.ext h₁ h₂

theorem tripleKey_injOn : Rows.InjOn TripleFree tripleKey := by
  intro k k' hk hk' h
  obtain ⟨h₁, h₂⟩ := glue_inj hk.1 hk'.1 h
  exact Prod.ext h₁ (pairKey_injOn _ _ hk.2 hk'.2 h₂)

theorem belongsTo_pairKey {orgId : String} (ho : NulFree orgId) (k : String × String)
    (hk : PairFree k) : belongsTo orgId (pairKey k) = (k.1 == orgId) := by
  rw [Bool.eq_iff_iff, beq_iff_eq]
  exact startsWith_glue hk.1 ho

theorem belongsTo_tripleKey {orgId : String} (ho : NulFree orgId) (k : String × String × String)
    (hk : TripleFree k) : belongsTo orgId (tripleKey k) = (k.1 == orgId) := by
  rw [Bool.eq_iff_iff, beq_iff_eq]
  exact startsWith_glue hk.1 ho

theorem compare_string (a b : String) :
    compare a b = if a < b then .lt else if a = b then .eq else .gt :=
  rfl

/-- Keys of one organization are ordered by their second part. -/
theorem compare_pairKey {k k' : String × String} (h : k.1 = k'.1) :
    compare (pairKey k) (pairKey k') = compare k.2 k'.2 := by
  obtain ⟨a, b⟩ := k
  obtain ⟨a', b'⟩ := k'
  obtain rfl : a = a' := h
  have heq : pairKey (a, b) = pairKey (a, b') ↔ b = b' :=
    ⟨fun h => by simpa [pairKey, nulKey, glue] using h, fun h => h ▸ rfl⟩
  rw [compare_string, compare_string]
  exact if_congr glue_lt_glue rfl (if_congr heq rfl rfl)

/-! ### Stores that hold the same records -/

section Child

variable {κ V : Type} [DecidableEq κ] {orgs orgs' : Rows String Organization}
  {good : κ → Prop} {enc : κ → String} {orgOf : κ → String} {t : Rows κ V} {T : Table String V}

/-- The relation and the table hold the same records, and the organization of each is in
`orgs`. -/
structure ChildOf (orgs : Rows String Organization) (good : κ → Prop) (enc : κ → String)
    (orgOf : κ → String) (t : Rows κ V) (T : Table String V) : Prop where
  same : t.Matches good enc T
  parent : ∀ k v, t.select k = some v → (orgs.select (orgOf k)).isSome = true

/-- More organizations do no harm. -/
theorem ChildOf.mono (h : ChildOf orgs good enc orgOf t T)
    (ho : ∀ o, (orgs.select o).isSome = true → (orgs'.select o).isSome = true) :
    ChildOf orgs' good enc orgOf t T :=
  ⟨h.same, fun k v hv => ho _ (h.parent k v hv)⟩

theorem ChildOf.insert (h : ChildOf orgs good enc orgOf t T) (hinj : Rows.InjOn good enc)
    {k : κ} {v : V} {t' : Rows κ V} (hk : good k) (ho : (orgs.select (orgOf k)).isSome = true)
    (ht : ∀ k', t'.select k' = if k = k' then some v else t.select k') :
    ChildOf orgs good enc orgOf t' (T.insert (enc k) v) := by
  refine ⟨h.same.insert hinj hk ht, ?_⟩
  intro k' v' hv
  rw [ht] at hv
  split at hv
  · next heq => exact heq ▸ ho
  · exact h.parent k' v' hv

theorem ChildOf.update (h : ChildOf orgs good enc orgOf t T) (hinj : Rows.InjOn good enc)
    {k : κ} {v : V} (hk : (t.select k).isSome = true) :
    ChildOf orgs good enc orgOf (t.update k v) (T.insert (enc k) v) := by
  refine ⟨h.same.update hinj hk, ?_⟩
  intro k' v' hv
  rw [Rows.select_update] at hv
  split at hv
  · obtain ⟨w, hw, -⟩ := Option.map_eq_some_iff.mp hv
    exact h.parent k' w hw
  · exact h.parent k' v' hv

theorem ChildOf.delete (h : ChildOf orgs good enc orgOf t T) (hinj : Rows.InjOn good enc)
    {k : κ} (hk : good k) :
    ChildOf orgs good enc orgOf (t.delete k) (T.erase (enc k)) := by
  refine ⟨h.same.delete hinj hk, ?_⟩
  intro k' v hv
  rw [Rows.select_delete] at hv
  split at hv
  · cases hv
  · exact h.parent k' v hv

/-- The rows of an organization go with it, by the foreign key here and by the prefix of
their keys there. -/
theorem ChildOf.cascade (h : ChildOf orgs good enc orgOf t T) {o : String}
    (hp : ∀ k, good k → belongsTo o (enc k) = (orgOf k == o)) :
    ChildOf (orgs.delete o) good enc orgOf (t.deleteWhere (orgOf · == o))
      (T.removeAll (belongsTo o)) := by
  refine ⟨h.same.deleteWhere hp, ?_⟩
  intro k v hv
  rw [Rows.select_deleteWhere] at hv
  split at hv
  · cases hv
  · next hne =>
    rw [Rows.select_delete, if_neg fun heq => hne (beq_iff_eq.mpr heq.symm)]
    exact h.parent k v hv

/-- An organization that does not exist has no rows. -/
theorem ChildOf.cascade_absent (h : ChildOf orgs good enc orgOf t T) {o : String}
    (ho : orgs.select o = none) (hp : ∀ k, good k → belongsTo o (enc k) = (orgOf k == o)) :
    ChildOf orgs good enc orgOf t (T.removeAll (belongsTo o)) := by
  refine ⟨⟨?_, ?_, h.same.isGood⟩, h.parent⟩
  · intro k hk
    rw [Table.get_removeAll, hp k hk, h.same.get k hk]
    split
    · next heq =>
      rw [eq_comm, Option.eq_none_iff_forall_ne_some]
      intro v hv
      have := h.parent k v hv
      rw [beq_iff_eq.mp heq, ho] at this
      cases this
    · rfl
  · intro k' v hv
    rw [Table.get_removeAll] at hv
    split at hv
    · cases hv
    · exact h.same.key k' v hv

theorem childOf_empty : ChildOf orgs good enc orgOf (Rows.empty : Rows κ V) ∅ :=
  ⟨Rows.matches_empty, fun k v hv => by simp at hv⟩

end Child

/-- The stores hold the same records, the enrollment log apart. -/
structure Same (s : Redb) (t : Postgres) : Prop where
  orgs : t.orgs.Matches NulFree (fun k => k) s.orgs
  formations : ChildOf t.orgs PairFree pairKey Prod.fst t.formations s.formations
  tokens : ChildOf t.orgs PairFree pairKey Prod.fst t.tokens s.tokens
  sinks : ChildOf t.orgs PairFree pairKey Prod.fst t.sinks s.sinks
  cursors : ChildOf t.orgs TripleFree tripleKey Prod.fst t.cursors s.cursors
  idps : ChildOf t.orgs PairFree pairKey Prod.fst t.idps s.idps
  policyRules : ChildOf t.orgs PairFree pairKey Prod.fst t.policyRules s.policyRules
  genesis : ChildOf t.orgs PairFree pairKey Prod.fst t.genesis s.genesis

theorem same_empty : Same .empty .empty where
  orgs := Rows.matches_empty
  formations := childOf_empty
  tokens := childOf_empty
  sinks := childOf_empty
  cursors := childOf_empty
  idps := childOf_empty
  policyRules := childOf_empty
  genesis := childOf_empty

namespace Same

variable {s : Redb} {t : Postgres}

theorem hasOrg (h : Same s t) {o : String} (ho : NulFree o) (hs : s.orgs[o]?.isSome = true) :
    (t.orgs.select o).isSome = true := by
  rw [← h.orgs.get o ho]
  exact hs

section Child

variable {κ V : Type} [DecidableEq κ] {good : κ → Prop} {enc : κ → String} {orgOf : κ → String}
  {r : Rows κ V} {T : Table String V} {k : κ}

/-- A new row under an organization that exists is inserted, here and there. -/
theorem insertChild (h : Same s t) (hr : ChildOf t.orgs good enc orgOf r T)
    (hinj : Rows.InjOn good enc) (hk : good k) (hfree : NulFree (orgOf k))
    (ho : s.orgs[orgOf k]?.isSome = true) (hnew : T[enc k]? = none) (table : String) (v : V) :
    ∃ r', t.insertChild table r (orgOf k) k v = .ok r' ∧
      ChildOf t.orgs good enc orgOf r' (T.insert (enc k) v) := by
  have horg := h.hasOrg hfree ho
  obtain ⟨r', hr', hsel⟩ := Postgres.insertChild_ok table (v := v)
    ((hr.same.get k hk).symm.trans hnew) horg
  exact ⟨r', hr', hr.insert hinj hk horg hsel⟩

/-- A row under an organization that exists is written, here and there. -/
theorem upsertChild (h : Same s t) (hr : ChildOf t.orgs good enc orgOf r T)
    (hinj : Rows.InjOn good enc) (hk : good k) (hfree : NulFree (orgOf k))
    (ho : s.orgs[orgOf k]?.isSome = true) (table : String) (v : V) :
    t.upsertChild table r (orgOf k) k v = .ok (r.upsert k v) ∧
      ChildOf t.orgs good enc orgOf (r.upsert k v) (T.insert (enc k) v) := by
  have horg := h.hasOrg hfree ho
  refine ⟨?_, hr.insert hinj hk horg fun k' => Rows.select_upsert _ _ k' v⟩
  rw [Postgres.upsertChild, horg, Bool.or_true, if_pos rfl]

end Child

/-- Organizations are rewritten and none is lost. -/
theorem withOrgs (h : Same s t) {orgs : Rows String Organization} {T : Table String Organization}
    (hm : orgs.Matches NulFree (fun k => k) T)
    (ho : ∀ o, (t.orgs.select o).isSome = true → (orgs.select o).isSome = true) :
    Same { s with orgs := T } { t with orgs := orgs } where
  orgs := hm
  formations := h.formations.mono ho
  tokens := h.tokens.mono ho
  sinks := h.sinks.mono ho
  cursors := h.cursors.mono ho
  idps := h.idps.mono ho
  policyRules := h.policyRules.mono ho
  genesis := h.genesis.mono ho

theorem deleteOrg (h : Same s t) {o : String} (ho : NulFree o) :
    Same (s.deleteOrg o) (t.deleteOrg o) where
  orgs := h.orgs.delete idKey_injOn ho
  formations := h.formations.cascade (belongsTo_pairKey ho)
  tokens := h.tokens.cascade (belongsTo_pairKey ho)
  sinks := h.sinks.cascade (belongsTo_pairKey ho)
  cursors := h.cursors.cascade (belongsTo_tripleKey ho)
  idps := h.idps.cascade (belongsTo_pairKey ho)
  policyRules := h.policyRules.cascade (belongsTo_pairKey ho)
  genesis := h.genesis.cascade (belongsTo_pairKey ho)

theorem deleteOrg_absent (h : Same s t) {o : String} (ho : NulFree o)
    (hn : t.orgs.select o = none) : Same (s.deleteOrg o) t where
  orgs := by
    have := h.orgs.delete idKey_injOn ho
    refine ⟨?_, this.key, h.orgs.isGood⟩
    intro k hk
    apply (this.get k hk).trans
    rw [Rows.select_delete]
    split
    · next heq => rw [← heq, hn]
    · rfl
  formations := h.formations.cascade_absent hn (belongsTo_pairKey ho)
  tokens := h.tokens.cascade_absent hn (belongsTo_pairKey ho)
  sinks := h.sinks.cascade_absent hn (belongsTo_pairKey ho)
  cursors := h.cursors.cascade_absent hn (belongsTo_tripleKey ho)
  idps := h.idps.cascade_absent hn (belongsTo_pairKey ho)
  policyRules := h.policyRules.cascade_absent hn (belongsTo_pairKey ho)
  genesis := h.genesis.cascade_absent hn (belongsTo_pairKey ho)

end Same

/-! ### Calls that are answered alike -/

/-- The calls both backends answer alike.  The log is left out: its order and its limits
differ. -/
def Portable : StorageCall → Redb → Prop
  | .createOrg org, s => NulFree org.orgId ∧ s.orgs[org.orgId]? = none
  | .updateOrg org, s => NulFree org.orgId ∧ s.orgs[org.orgId]?.isSome = true
  | .getOrg o, _ | .deleteOrg o, _ | .listFormations o, _ | .listTokens o _, _ | .listSinks o, _
  | .listIdps o, _ | .listPolicyRules o, _ => NulFree o
  | .listOrgs, _ => True
  | .getFormation o x, _ | .deleteFormation o x, _ | .getToken o x, _ | .deleteToken o x, _
  | .getSink o x, _ | .deleteSink o x, _ | .getIdp o x, _ | .deleteIdp o x, _
  | .deletePolicyRule o x, _ | .getGenesis o x, _ | .deleteGenesis o x, _ => PairFree (o, x)
  | .createFormation o f, s => PairFree (o, f.appId) ∧ s.orgs[o]?.isSome = true ∧
    s.formations[formationKey o f.appId]? = none
  | .createToken k, s => PairFree (k.orgId, k.tokenId) ∧ s.orgs[k.orgId]?.isSome = true ∧
    s.tokens[tokenKey k.orgId k.tokenId]? = none
  | .updateToken k, s => PairFree (k.orgId, k.tokenId) ∧
    s.tokens[tokenKey k.orgId k.tokenId]?.isSome = true
  | .createSink k, s => PairFree (k.orgId, k.sinkId) ∧ s.orgs[k.orgId]?.isSome = true ∧
    s.sinks[sinkKey k.orgId k.sinkId]? = none
  | .updateSink k, s => PairFree (k.orgId, k.sinkId) ∧
    s.sinks[sinkKey k.orgId k.sinkId]?.isSome = true
  | .createIdp k, s => PairFree (k.orgId, k.idpId) ∧ s.orgs[k.orgId]?.isSome = true ∧
    s.idps[idpKey k.orgId k.idpId]? = none
  | .updateIdp k, s => PairFree (k.orgId, k.idpId) ∧
    s.idps[idpKey k.orgId k.idpId]?.isSome = true
  | .createPolicyRule k, s => PairFree (k.orgId, k.ruleId) ∧ s.orgs[k.orgId]?.isSome = true ∧
    s.policyRules[policyRuleKey k.orgId k.ruleId]? = none
  | .storeGenesis o x _, s => PairFree (o, x) ∧ s.orgs[o]?.isSome = true
  | .getCursor o a d, _ => TripleFree (o, a, d)
  | .setCursor o a d _, s => TripleFree (o, a, d) ∧ s.orgs[o]?.isSome = true
  | .appendAudit _, _ | .listAudit _ _ _, _ => False

/-- A listing by the organization is a scan for its prefix. -/
theorem ChildOf.orderBy {V : Type} {orgs : Rows String Organization}
    {t : Rows (String × String) V} {T : Table String V}
    (h : ChildOf orgs PairFree pairKey Prod.fst t T) {o : String} (ho : NulFree o) :
    t.orderBy (·.1 == o) Prod.snd = T.scan (belongsTo o) := by
  apply h.same.orderBy pairKey_injOn (belongsTo_pairKey ho)
  intro k k' _ _ hk hk'
  exact compare_pairKey ((beq_iff_eq.mp hk).trans (beq_iff_eq.mp hk').symm)

/-- **A portable call is answered alike**, and leaves stores that hold the same records. -/
theorem same_exec {s : Redb} {t : Postgres} (h : Same s t) (c : StorageCall) (hc : Portable c s) :
    (Postgres.exec c t).1 = (Redb.exec c s).1 ∧
      Same (Redb.exec c s).2 (Postgres.exec c t).2 := by
  cases c with
  | createOrg org =>
    obtain ⟨hfree, hnew⟩ := hc
    have hsel := (h.orgs.get _ hfree).symm.trans hnew
    cases hi : t.orgs.insert org.orgId org with
    | none =>
      have := Rows.insert_eq_none.mp hi
      rw [hsel] at this
      cases this
    | some rows =>
      simp only [Postgres.exec, hi, Postgres.commit]
      refine ⟨rfl, h.withOrgs (h.orgs.insert idKey_injOn hfree (Rows.select_insert hi)) ?_⟩
      intro o ho
      rw [Rows.select_insert hi]
      split
      · rfl
      · exact ho
  | getOrg o => exact ⟨congrArg Except.ok (h.orgs.get o hc).symm, h⟩
  -- On both sides rows come in the order of their keys.
  | listOrgs =>
    have hscan : t.orgs.orderBy (fun _ => true) id = s.orgs.scan fun _ => true :=
      h.orgs.orderBy idKey_injOn (fun _ _ => rfl) fun _ _ _ _ _ _ => rfl
    refine ⟨congrArg Except.ok (hscan.trans ?_), h⟩
    rw [Table.scan, List.filter_eq_self.mpr fun _ _ => rfl]
  | updateOrg org =>
    obtain ⟨hfree, hold⟩ := hc
    have hk := (congrArg Option.isSome (h.orgs.get _ hfree)).symm.trans hold
    refine ⟨rfl, h.withOrgs (h.orgs.update idKey_injOn hk) ?_⟩
    intro o ho
    rw [Rows.select_update]
    split
    · rw [Option.isSome_map]
      exact ho
    · exact ho
  -- redb sweeps by prefix, Postgres cascades, and only if the organization is there.
  | deleteOrg o =>
    have hget := h.orgs.get o hc
    refine ⟨congrArg (fun r => Except.ok (Option.isSome r)) hget.symm, ?_⟩
    simp only [Redb.exec, Postgres.exec]
    cases ho : t.orgs.select o with
    | none => exact h.deleteOrg_absent hc ho
    | some org => exact h.deleteOrg hc
  | createFormation o f =>
    obtain ⟨hfree, horg, hnew⟩ := hc
    obtain ⟨rows, hrows, hnext⟩ :=
      h.insertChild (k := (o, f.appId)) h.formations pairKey_injOn hfree hfree.1 horg hnew
        "formations" f
    simp only [Redb.exec, Postgres.exec, hrows, Postgres.commit]
    exact ⟨trivial, { h with formations := hnext }⟩
  | getFormation o x => exact ⟨congrArg Except.ok (h.formations.same.get (o, x) hc).symm, h⟩
  | listFormations o => exact ⟨congrArg Except.ok (h.formations.orderBy hc), h⟩
  | deleteFormation o x =>
    exact ⟨congrArg (fun r => Except.ok (Option.isSome r)) (h.formations.same.get (o, x) hc).symm,
      { h with formations := h.formations.delete pairKey_injOn hc }⟩
  | createToken k =>
    obtain ⟨hfree, horg, hnew⟩ := hc
    obtain ⟨rows, hrows, hnext⟩ :=
      h.insertChild (k := (k.orgId, k.tokenId)) h.tokens pairKey_injOn hfree hfree.1 horg hnew
        "enrollment_tokens" k
    simp only [Redb.exec, Postgres.exec, hrows, Postgres.commit]
    exact ⟨trivial, { h with tokens := hnext }⟩
  | getToken o x => exact ⟨congrArg Except.ok (h.tokens.same.get (o, x) hc).symm, h⟩
  | listTokens o appId =>
    refine ⟨?_, h⟩
    simp only [Redb.exec, Postgres.exec, h.tokens.orderBy hc]
  | updateToken k =>
    obtain ⟨hfree, hold⟩ := hc
    have hk := (congrArg Option.isSome (h.tokens.same.get _ hfree)).symm.trans hold
    exact ⟨rfl, { h with tokens := h.tokens.update pairKey_injOn hk }⟩
  | deleteToken o x =>
    exact ⟨congrArg (fun r => Except.ok (Option.isSome r)) (h.tokens.same.get (o, x) hc).symm,
      { h with tokens := h.tokens.delete pairKey_injOn hc }⟩
  | createSink k =>
    obtain ⟨hfree, horg, hnew⟩ := hc
    obtain ⟨rows, hrows, hnext⟩ :=
      h.insertChild (k := (k.orgId, k.sinkId)) h.sinks pairKey_injOn hfree hfree.1 horg hnew
        "cdc_sinks" k
    simp only [Redb.exec, Postgres.exec, hrows, Postgres.commit]
    exact ⟨trivial, { h with sinks := hnext }⟩
  | getSink o x => exact ⟨congrArg Except.ok (h.sinks.same.get (o, x) hc).symm, h⟩
  | listSinks o => exact ⟨congrArg Except.ok (h.sinks.orderBy hc), h⟩
  | updateSink k =>
    obtain ⟨hfree, hold⟩ := hc
    have hk := (congrArg Option.isSome (h.sinks.same.get _ hfree)).symm.trans hold
    exact ⟨rfl, { h with sinks := h.sinks.update pairKey_injOn hk }⟩
  | deleteSink o x =>
    exact ⟨congrArg (fun r => Except.ok (Option.isSome r)) (h.sinks.same.get (o, x) hc).symm,
      { h with sinks := h.sinks.delete pairKey_injOn hc }⟩
  | createIdp k =>
    obtain ⟨hfree, horg, hnew⟩ := hc
    obtain ⟨rows, hrows, hnext⟩ :=
      h.insertChild (k := (k.orgId, k.idpId)) h.idps pairKey_injOn hfree hfree.1 horg hnew
        "idp_configs" k
    simp only [Redb.exec, Postgres.exec, hrows, Postgres.commit]
    exact ⟨trivial, { h with idps := hnext }⟩
  | getIdp o x => exact ⟨congrArg Except.ok (h.idps.same.get (o, x) hc).symm, h⟩
  | listIdps o => exact ⟨congrArg Except.ok (h.idps.orderBy hc), h⟩
  | updateIdp k =>
    obtain ⟨hfree, hold⟩ := hc
    have hk := (congrArg Option.isSome (h.idps.same.get _ hfree)).symm.trans hold
    exact ⟨rfl, { h with idps := h.idps.update pairKey_injOn hk }⟩
  | deleteIdp o x =>
    exact ⟨congrArg (fun r => Except.ok (Option.isSome r)) (h.idps.same.get (o, x) hc).symm,
      { h with idps := h.idps.delete pairKey_injOn hc }⟩
  | createPolicyRule k =>
    obtain ⟨hfree, horg, hnew⟩ := hc
    obtain ⟨rows, hrows, hnext⟩ :=
      h.insertChild (k := (k.orgId, k.ruleId)) h.policyRules pairKey_injOn hfree hfree.1 horg hnew
        "policy_rules" k
    simp only [Redb.exec, Postgres.exec, hrows, Postgres.commit]
    exact ⟨trivial, { h with policyRules := hnext }⟩
  | listPolicyRules o => exact ⟨congrArg Except.ok (h.policyRules.orderBy hc), h⟩
  | deletePolicyRule o x =>
    exact ⟨congrArg (fun r => Except.ok (Option.isSome r)) (h.policyRules.same.get (o, x) hc).symm,
      { h with policyRules := h.policyRules.delete pairKey_injOn hc }⟩
  -- The two that Postgres writes as an upsert need the organization, but no free key.
  | storeGenesis o x encoded =>
    obtain ⟨hfree, horg⟩ := hc
    obtain ⟨hrow, hnext⟩ := h.upsertChild (k := (o, x)) h.genesis pairKey_injOn hfree hfree.1 horg
      "genesis" encoded
    simp only [Redb.exec, Postgres.exec, hrow, Postgres.commit]
    exact ⟨trivial, { h with genesis := hnext }⟩
  | getGenesis o x => exact ⟨congrArg Except.ok (h.genesis.same.get (o, x) hc).symm, h⟩
  | deleteGenesis o x =>
    exact ⟨congrArg (fun r => Except.ok (Option.isSome r)) (h.genesis.same.get (o, x) hc).symm,
      { h with genesis := h.genesis.delete pairKey_injOn hc }⟩
  | getCursor o a d => exact ⟨congrArg Except.ok (h.cursors.same.get (o, a, d) hc).symm, h⟩
  | setCursor o a d hash =>
    obtain ⟨hfree, horg⟩ := hc
    obtain ⟨hrow, hnext⟩ :=
      h.upsertChild (k := (o, a, d)) h.cursors tripleKey_injOn hfree hfree.1 horg "cdc_cursors"
        hash
    simp only [Redb.exec, Postgres.exec, hrow, Postgres.commit]
    exact ⟨trivial, { h with cursors := hnext }⟩
  | appendAudit e => exact hc.elim
  | listAudit o a l => exact hc.elim

end PeatGateway
