import PeatGateway.Api.EnrollSound

/-!
# Every row has its organization

On redb nothing ties a row to the organization it belongs to but the order of the calls:
an operation looks for the organization in one transaction and writes its row in a later
one, and in between the organization may be deleted with all it owns.  The row that is
written then has no organization, and whoever creates one under the same id inherits it.

## Main definitions

* `Redb.uses` — a key is in use in one of the nine tables.
* `StorageCall.writes` — the row a call writes.
* `Redb.Owned` — every row has its organization.
* `Redb.CleanStart` — whoever creates an organization finds no rows of an earlier one.
* `StorageCall.OwnerIn` — the row a call writes has its organization.

## Main results

* `uses_exec`, `uses_orgs_exec` — what a call does to the keys in use.
* `Redb.Owned.exec_iff` — **a call keeps every row owned exactly if the row it writes is**.
* `owned_iff` — **in all states of a run every row has its organization, exactly if every row
  is written while it has**.
-/

namespace PeatGateway

open Effect Text

/-! ### Keys in use -/

/-- The nine tables. -/
inductive TableName
  | orgs
  | formations
  | tokens
  | sinks
  | cursors
  | idps
  | policyRules
  | audit
  | genesis
  deriving DecidableEq, Repr

/-- The key is in use in the table. -/
def Redb.uses (s : Redb) (key : String) : TableName → Bool
  | .orgs => s.orgs[key]?.isSome
  | .formations => s.formations[key]?.isSome
  | .tokens => s.tokens[key]?.isSome
  | .sinks => s.sinks[key]?.isSome
  | .cursors => s.cursors[key]?.isSome
  | .idps => s.idps[key]?.isSome
  | .policyRules => s.policyRules[key]?.isSome
  | .audit => s.audit[key]?.isSome
  | .genesis => s.genesis[key]?.isSome

/-- The table a call writes a row of, and the key of the row. -/
def StorageCall.writes : StorageCall → Option (TableName × String)
  | .createOrg org | .updateOrg org => some (.orgs, org.orgId)
  | .createFormation orgId f => some (.formations, formationKey orgId f.appId)
  | .createToken t | .updateToken t => some (.tokens, tokenKey t.orgId t.tokenId)
  | .createSink k | .updateSink k => some (.sinks, sinkKey k.orgId k.sinkId)
  | .createIdp i | .updateIdp i => some (.idps, idpKey i.orgId i.idpId)
  | .createPolicyRule r => some (.policyRules, policyRuleKey r.orgId r.ruleId)
  | .appendAudit e => some (.audit, auditKey e.orgId e.timestampMs e.auditId)
  | .storeGenesis orgId appId _ => some (.genesis, formationKey orgId appId)
  | .setCursor orgId appId documentId _ => some (.cursors, cursorKey orgId appId documentId)
  | _ => none

section Tables

variable {V : Type} {t : Table String V} {k k' : String} {v : V} {p : String → Bool}

theorem isSome_insert : (t.insert k v)[k']?.isSome = true ↔ k = k' ∨ t[k']?.isSome = true := by
  rw [Table.get_insert]
  split <;> simp [*]

theorem isSome_of_insert (T : TableName) (h : (t.insert k v)[k']?.isSome = true) :
    t[k']?.isSome = true ∨ some (T, k) = some (T, k') := by
  rcases isSome_insert.mp h with rfl | h
  · exact Or.inr rfl
  · exact Or.inl h

theorem isSome_of_erase (h : (t.erase k)[k']?.isSome = true) : t[k']?.isSome = true := by
  rw [Table.get_erase] at h
  split at h
  · cases h
  · exact h

theorem isSome_removeAll :
    (t.removeAll p)[k]?.isSome = true ↔ p k = false ∧ t[k]?.isSome = true := by
  rw [Table.get_removeAll]
  split <;> simp_all

end Tables

section Exec

variable {s : Redb} {c : StorageCall} {key orgId : String} {T : TableName}

/-- **No call makes a key be used but that of the row it writes.** -/
theorem uses_exec (h : (Redb.exec c s).2.uses key T = true) :
    s.uses key T = true ∨ c.writes = some (T, key) := by
  cases c
  case deleteOrg =>
    cases T
    all_goals first
      | exact Or.inl h
      | exact Or.inl (isSome_of_erase h)
      | exact Or.inl (isSome_removeAll.mp h).2
  case deleteFormation | deleteToken | deleteSink | deleteIdp | deletePolicyRule | deleteGenesis =>
    cases T
    all_goals first
      | exact Or.inl h
      | exact Or.inl (isSome_of_erase h)
  case createOrg | updateOrg | createFormation | createToken | updateToken | createSink |
      updateSink | createIdp | updateIdp | createPolicyRule | appendAudit | storeGenesis |
      setCursor =>
    cases T
    all_goals first
      | exact Or.inl h
      | exact isSome_of_insert _ h
  -- the others only read
  all_goals exact Or.inl h

/-- The key of the row that is written is in use. -/
theorem uses_of_writes (h : c.writes = some (T, key)) :
    (Redb.exec c s).2.uses key T = true := by
  cases c
  all_goals first
    | cases h; exact isSome_insert.mpr (Or.inl rfl)
    | cases h

/-- An organization stays, unless it is deleted. -/
theorem uses_orgs_exec (h : s.uses orgId .orgs = true) (hc : c ≠ .deleteOrg orgId) :
    (Redb.exec c s).2.uses orgId .orgs = true := by
  cases c
  case createOrg | updateOrg => exact isSome_insert.mpr (Or.inr h)
  case deleteOrg o =>
    have hne : o ≠ orgId := fun heq => hc (heq ▸ rfl)
    change (s.orgs.erase o)[orgId]?.isSome = true
    rwa [Table.get_erase_of_ne hne]
  all_goals exact h

/-- Of what belongs to an organization, nothing is left when it is deleted. -/
theorem not_belongsTo_of_uses_deleteOrg (hT : T ≠ .orgs)
    (h : (s.deleteOrg orgId).uses key T = true) : belongsTo orgId key = false := by
  cases T
  case orgs => exact absurd rfl hT
  all_goals exact (isSome_removeAll.mp h).1

end Exec

/-! ### Owners -/

/-- Every row has its organization.  Ids with NUL are left out: a key with several separators
starts with several prefixes, and the first is its organization. -/
def Redb.Owned (s : Redb) : Prop :=
  ∀ orgId key T, T ≠ .orgs → Free '\x00' orgId → belongsTo orgId key = true →
    s.uses key T = true → s.uses orgId .orgs = true

/-- The row the call writes has its organization. -/
def StorageCall.OwnerIn (c : StorageCall) (s : Redb) : Prop :=
  ∀ orgId key T, c.writes = some (T, key) → T ≠ .orgs → Free '\x00' orgId →
    belongsTo orgId key = true → s.uses orgId .orgs = true

/-- **A call keeps every row owned exactly if the row it writes is.** -/
theorem Redb.Owned.exec_iff {s : Redb} (h : s.Owned) (c : StorageCall) :
    (Redb.exec c s).2.Owned ↔ c.OwnerIn s := by
  constructor
  · intro h' orgId key T hw hT hfree hb
    rcases uses_exec (h' orgId key T hT hfree hb (uses_of_writes hw)) with horg | hw'
    · exact horg
    · rw [hw] at hw'
      cases hw'
      exact absurd rfl hT
  · intro hown orgId key T hT hfree hb hu
    have horg : s.uses orgId .orgs = true := by
      rcases uses_exec hu with hu | hw
      · exact h orgId key T hT hfree hb hu
      · exact hown orgId key T hw hT hfree hb
    apply uses_orgs_exec horg
    rintro rfl
    rw [not_belongsTo_of_uses_deleteOrg hT hu] at hb
    cases hb

/-- Whoever creates the organization finds no rows of an earlier one. -/
def Redb.CleanStart (s : Redb) : Prop :=
  ∀ now orgId name key T, Free '\x00' orgId → s.uses orgId .orgs = false → T ≠ .orgs →
    belongsTo orgId key = true →
    ((TenantManager.createOrg now orgId name).run Redb.exec s).2.uses key T = false

theorem Redb.Owned.cleanStart {s : Redb} (h : s.Owned) : s.CleanStart := by
  intro now orgId name key T hfree hnone hT hb
  have hs : s.uses key T = false := by
    rw [Bool.eq_false_iff]
    intro hu
    rw [h orgId key T hT hfree hb hu] at hnone
    cases hnone
  -- the operation writes to the first table only
  have horgs : ∀ t, ({ s with orgs := t } : Redb).uses key T = false := by
    intro t
    cases T
    case orgs => exact absurd rfl hT
    all_goals exact hs
  refine Prog.Wp.state (I := fun s : Redb => s.uses key T = false) ?_
  simp only [TenantManager.createOrg, Prog.wp_bind, Prog.wp_ofExcept, Prog.wp_ensure, Prog.wp_pure,
    wp_store, Redb.exec, Prog.post_ok]
  exact ⟨fun _ _ => ⟨fun _ _ => ⟨fun _ => horgs _, fun _ => hs⟩, fun _ _ => hs⟩, fun _ _ => hs⟩

theorem Redb.owned_empty : Redb.empty.Owned := by
  intro orgId key T _ _ _ hu
  cases T <;> simp [Redb.uses, Redb.empty] at hu

/-- **In every state of a run every row has its organization, exactly if every row is written
while it has.** -/
theorem owned_iff {α : Type} (l : List (Act Storage Error α)) :
    (∀ l₁ l₂, l = l₁ ++ l₂ → (Pool.acts Redb.exec ⟨.empty, []⟩ l₁).store.Owned ∧
      (Pool.acts Redb.exec ⟨.empty, []⟩ l₁).store.CleanStart) ↔
      Pool.Always Redb.exec (Pool.Makes StorageCall.OwnerIn) ⟨.empty, []⟩ l := by
  rw [← Pool.forall_store_iff_makes (fun c _ hs => hs.exec_iff c) Redb.owned_empty]
  refine forall₃_congr fun l₁ l₂ _ => ⟨And.left, fun h => ⟨h, h.cleanStart⟩⟩

/-- A sink is created while its organization is deleted. -/
def orphanSchedule : Schedule Bytes :=
  [.start ((ManagerOp.createOrg 1 "acme" "Acme").prog seedManager), .step 0, .step 0,
    .start ((ManagerOp.createSink (.replicate 8 7) 2 "acme"
      (.webhook "https://hooks.example")).prog seedManager), .step 1, .step 1,
    .start ((ManagerOp.deleteOrg "acme").prog seedManager), .step 2, .step 1]

/-- **A sink without an organization**: it was looked for before it was deleted. -/
theorem owned_broken :
    ¬ ∀ l : Schedule Bytes, (∀ p, Act.start p ∈ l → IsGatewayProgram Bytes p) →
      (Pool.acts Redb.exec ⟨.empty, []⟩ l).store.Owned := by
  intro h
  have hprograms : ∀ p, Act.start p ∈ orphanSchedule → IsGatewayProgram Bytes p := by
    simp only [orphanSchedule, Act.forall_start_start, Act.forall_start_step, Act.forall_start_nil]
    exact ⟨.program (.op _ _), .program (.op _ _), .program (.op _ _), trivial⟩
  have horg := h orphanSchedule hprograms "acme" "acme\x000707070707070707" .sinks (by decide)
    (by decide) (by decide) (by decide +kernel)
  revert horg
  decide +kernel

end PeatGateway
