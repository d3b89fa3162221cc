import PeatGateway.Tenant.Core

/-!
# Stored records are valid

The operations that create records check their fields.  What is stored stays as it was
checked under every operation but one: `update_org` writes a display name nobody has looked
at.

## Main definitions

* `Record`, `Record.Valid` — a stored record, and that its fields pass the checks.
* `AnyStore.Stores` — a store of either kind holds the record.
* `StorageCall.record` — the record a call writes.
* `ManagerOp.NameChecked` — the operation sets no display name that would be refused.

## Main results

* `stores_exec` — **what a store holds after a call it has held before, or the call writes it**.
* `ManagerOp.meets_valid` — the operations write valid records only, as long as what they read
  is valid.
* `records_valid` — **every record is valid, however the operations are interleaved**.
-/

namespace PeatGateway

open Effect

/-! ### Records -/

/-- A record with fields that are checked. -/
inductive Record
  | org (org : Organization)
  | formation (formation : FormationConfig)
  | token (token : EnrollmentToken)
  | sink (sink : CdcSinkConfig)
  | idp (idp : IdpConfig)

/-- The fields pass the checks of the operation that creates the record. -/
def Record.Valid : Record → Prop
  | org o =>
    validateIdentifier o.orgId "org_id" = .ok () ∧ validateDisplayName o.displayName = .ok ()
  | formation f => validateIdentifier f.appId "app_id" = .ok ()
  | token t => validateNonEmpty t.label "label" = .ok ()
  | sink k => validateSinkType k.sinkType = .ok ()
  | idp i => validateIssuerUrl i.issuerUrl = .ok () ∧
      validateNonEmpty i.clientId "client_id" = .ok () ∧
      validateNonEmpty i.clientSecret "client_secret" = .ok ()

/-- The record a call writes. -/
def StorageCall.record : StorageCall → Option Record
  | .createOrg o | .updateOrg o => some (.org o)
  | .createFormation _ f => some (.formation f)
  | .createToken t | .updateToken t => some (.token t)
  | .createSink k | .updateSink k => some (.sink k)
  | .createIdp i | .updateIdp i => some (.idp i)
  | _ => none

/-- The store holds the record. -/
def AnyStore.Stores : AnyStore → Record → Prop
  | .redb s, .org o => Table.Has s.orgs o
  | .redb s, .formation f => Table.Has s.formations f
  | .redb s, .token t => Table.Has s.tokens t
  | .redb s, .sink k => Table.Has s.sinks k
  | .redb s, .idp i => Table.Has s.idps i
  | .postgres s, .org o => Rows.Has s.orgs o
  | .postgres s, .formation f => Rows.Has s.formations f
  | .postgres s, .token t => Rows.Has s.tokens t
  | .postgres s, .sink k => Rows.Has s.sinks k
  | .postgres s, .idp i => Rows.Has s.idps i

/-! ### What a call does to the records -/

section Exec

/-- A value that is held or written is a record that is held or written. -/
theorem recorded {V : Type} {v w : V} {held : Prop} (f : V → Record) (h : held ∨ v = w) :
    held ∨ some (f v) = some (f w) :=
  h.imp_right fun heq => congrArg (fun v => some (f v)) heq

theorem stores_redb {s : Redb} {c : StorageCall} {r : Record}
    (h : (AnyStore.exec c (.redb s)).2.Stores r) :
    (AnyStore.redb s).Stores r ∨ c.record = some r := by
  cases c
  case deleteOrg | deleteFormation | deleteToken | deleteSink | deleteIdp =>
    cases r
    all_goals first
      | exact Or.inl h
      | exact Or.inl (Table.Has.of_erase h)
      | exact Or.inl (Table.Has.of_removeAll h)
  case createOrg | updateOrg | createFormation | createToken | updateToken | createSink |
      updateSink | createIdp | updateIdp =>
    cases r
    all_goals first
      | exact Or.inl h
      | exact recorded _ (Table.Has.of_insert h)
  -- the others leave these tables alone
  all_goals
    cases r
    all_goals exact Or.inl h

theorem stores_commit {T : Type} {s : Postgres} {res : Except Error T} {f : T → Postgres}
    {r : Record} {Q : Prop} (h : (AnyStore.postgres (Postgres.commit s res f).2).Stores r)
    (hold : (AnyStore.postgres s).Stores r → Q)
    (hnew : ∀ t, res = .ok t → (AnyStore.postgres (f t)).Stores r → Q) : Q := by
  unfold Postgres.commit at h
  split at h
  · exact hnew _ rfl h
  · exact hold h

theorem has_of_insertChild {κ V : Type} [DecidableEq κ] {s : Postgres} {table orgId : String}
    {t t' : Rows κ V} {k : κ} {v w : V} (ht : s.insertChild table t orgId k v = .ok t')
    (h : t'.Has w) : t.Has w ∨ v = w :=
  Rows.Has.of_insert (Postgres.insertChild_eq_ok ht).1 h

theorem stores_postgres {s : Postgres} {c : StorageCall} {r : Record}
    (h : (AnyStore.exec c (.postgres s)).2.Stores r) :
    (AnyStore.postgres s).Stores r ∨ c.record = some r := by
  cases c
  case createOrg o =>
    refine stores_commit h Or.inl ?_
    intro t ht h
    split at ht
    · cases ht
    · next t₁ hins =>
      obtain rfl := Except.ok.inj ht
      cases r
      case org => exact recorded _ (Rows.Has.of_insert hins h)
      all_goals exact Or.inl h
  case createFormation | createToken | createSink | createIdp =>
    refine stores_commit h Or.inl ?_
    intro t ht h
    cases r
    all_goals first
      | exact Or.inl h
      | exact recorded _ (has_of_insertChild ht h)
  -- They commit too, but to tables that hold no record of this kind.
  case createPolicyRule | appendAudit | storeGenesis | setCursor =>
    exact stores_commit h Or.inl fun _ _ h => Or.inl (by cases r <;> exact h)
  case updateOrg | updateToken | updateSink | updateIdp =>
    cases r
    all_goals first
      | exact Or.inl h
      | exact recorded _ (Rows.Has.of_update h)
  case deleteOrg o =>
    simp only [AnyStore.exec, Postgres.exec] at h
    split at h
    · refine Or.inl ?_
      cases r
      all_goals exact Rows.Has.of_deleteWhere h
    · exact Or.inl h
  case deleteFormation | deleteToken | deleteSink | deleteIdp =>
    refine Or.inl ?_
    cases r
    all_goals first
      | exact h
      | exact Rows.Has.of_deleteWhere h
  all_goals exact Or.inl (by cases r <;> exact h)

/-- **What a store holds after a call it has held before, or the call writes it.** -/
theorem stores_exec {st : AnyStore} {c : StorageCall} {r : Record}
    (h : (AnyStore.exec c st).2.Stores r) : st.Stores r ∨ c.record = some r := by
  cases st with
  | redb s => exact stores_redb h
  | postgres s => exact stores_postgres h

end Exec

/-! ### The specification -/

/-- Every record of the store is valid. -/
def AnyStore.AllValid (st : AnyStore) : Prop := ∀ r, st.Stores r → r.Valid

/-- The records that are read to be written back are valid. -/
def validPost : (c : StorageCall) → c.Res → Prop
  | .getOrg _, r => ∀ o, r = some o → (Record.org o).Valid
  | .getToken _ _, r => ∀ t, r = some t → (Record.token t).Valid
  | .getSink _ _, r => ∀ k, r = some k → (Record.sink k).Valid
  | .getIdp _ _, r => ∀ i, r = some i → (Record.idp i).Valid
  | _, _ => True

/-- The specification of programs that write valid records only. -/
def validSpec : Spec Storage := ⟨fun c => ∀ r, c.record = some r → r.Valid, validPost⟩

/-- A call that writes a valid record may be made. -/
theorem validSpec_pre {c : StorageCall} {r : Record} (h : c.record = some r) (hr : r.Valid) :
    validSpec.pre c := by
  intro r' hr'
  obtain rfl : r = r' := Option.some.inj (h.symm.trans hr')
  exact hr

/-- So may a call that writes none. -/
theorem validSpec_pre_none {c : StorageCall} (h : c.record = none) : validSpec.pre c := by
  intro r hr
  rw [h] at hr
  cases hr

/-- **Calls that write valid records keep all records valid.** -/
theorem validSpec_sound : validSpec.Sound AnyStore.exec AnyStore.AllValid := by
  intro c st hst hpre
  refine ⟨?_, ?_⟩
  · intro r hr
    rcases stores_exec hr with hr | hr
    · exact hst r hr
    · exact hpre r hr
  -- What is read is stored, so it is valid.
  · intro x hx
    cases c
    case getOrg o =>
      rintro v rfl
      apply hst (.org v)
      cases st <;> exact ⟨_, Except.ok.inj hx⟩
    case getToken o t =>
      rintro v rfl
      apply hst (.token v)
      cases st <;> exact ⟨_, Except.ok.inj hx⟩
    case getSink o t =>
      rintro v rfl
      apply hst (.sink v)
      cases st <;> exact ⟨_, Except.ok.inj hx⟩
    case getIdp o t =>
      rintro v rfl
      apply hst (.idp v)
      cases st <;> exact ⟨_, Except.ok.inj hx⟩
    all_goals trivial

/-! ### The operations -/

/-- The operation sets no display name that would be refused. -/
def ManagerOp.NameChecked : ManagerOp → Prop
  | .updateOrg _ (some name) _ => validateDisplayName name = .ok ()
  | _ => True

/-- **The operations write valid records only**, as long as what they read is valid. -/
theorem ManagerOp.meets_valid {G : Type} (mgr : TenantManager G) (op : ManagerOp)
    (h : op.NameChecked) : (op.prog mgr).Meets validSpec fun _ => True := by
  apply ManagerOp.meets_of_needs
  cases op
  case updateOrg o name quotas =>
    refine ⟨validSpec_pre_none rfl, ?_⟩
    intro org horg
    obtain ⟨hid, hname⟩ := horg org rfl
    refine validSpec_pre rfl ⟨hid, ?_⟩
    cases name with
    | none => exact hname
    | some name => exact h
  case createOrg =>
    exact fun hid hname => ⟨validSpec_pre_none rfl, validSpec_pre rfl ⟨hid, hname⟩⟩
  case createFormation =>
    refine fun happ => ⟨validSpec_pre_none rfl, fun _ _ => ⟨validSpec_pre_none rfl,
      validSpec_pre_none rfl, ?_, fun _ => validSpec_pre_none rfl⟩⟩
    rintro f rfl
    exact validSpec_pre rfl happ
  case createToken =>
    refine fun hlabel => ⟨validSpec_pre_none rfl, fun _ _ => ⟨validSpec_pre_none rfl, ?_⟩⟩
    rintro t - rfl
    exact validSpec_pre rfl hlabel
  case createSink =>
    refine fun htype => ⟨validSpec_pre_none rfl, fun _ _ => ⟨validSpec_pre_none rfl, ?_⟩⟩
    rintro k - rfl
    exact validSpec_pre rfl htype
  case createIdp =>
    refine fun hurl hclient hsecret => ⟨validSpec_pre_none rfl, fun _ _ => ?_⟩
    rintro i - rfl rfl rfl
    exact validSpec_pre rfl ⟨hurl, hclient, hsecret⟩
  -- what is read is valid, and what is checked of it is not changed
  case revokeToken | validateAndConsumeToken | toggleSink | toggleIdp =>
    exact ⟨validSpec_pre_none rfl, fun x hx => validSpec_pre rfl (hx x rfl)⟩
  -- the others write no such record
  all_goals simp [Needs, Spec.Finds, validSpec, StorageCall.record]

/-! ### Runs -/

theorem AnyStore.IsEmpty.allValid {st : AnyStore} (h : st.IsEmpty) : st.AllValid := by
  intro r hr
  cases h with
  | redb => cases r <;> simp [Stores, Table.Has, Redb.empty] at hr
  | postgres =>
    cases r <;> (obtain ⟨_, hrow⟩ := hr; cases hrow)

/-- **Every record is valid, however the operations are interleaved**, if none sets a display
name that would be refused. -/
theorem records_valid {G : Type} {st : AnyStore} (hst : st.IsEmpty) {l : Schedule G}
    (hl : l.Starts ManagerOp.NameChecked) :
    ∀ l₁ l₂, l = l₁ ++ l₂ → (Pool.acts AnyStore.exec ⟨st, []⟩ l₁).store.AllValid := by
  rintro l₁ l₂ rfl
  refine (Pool.acts_meets (Q := fun _ => True) validSpec_sound hst.allValid ?_ ?_).1
  · intro p hp
    cases hp
  · intro p hp
    obtain ⟨mgr, op, hop, rfl⟩ := hl p (List.mem_append_left _ hp)
    exact op.meets_valid mgr hop

/-- An organization is created and gets another name. -/
def renameSchedule (name : String) : Schedule Bytes :=
  [.start ((ManagerOp.createOrg 1 "acme" "Acme").prog seedManager), .step 0, .step 0,
    .start ((ManagerOp.updateOrg "acme" (some name) none).prog seedManager), .step 1, .step 1]

theorem renameSchedule_starts {P : ManagerOp → Prop} {name : String}
    (hcreate : P (.createOrg 1 "acme" "Acme")) (hupdate : P (.updateOrg "acme" (some name) none)) :
    (renameSchedule name).Starts P := by
  simp only [Schedule.Starts, renameSchedule, Act.forall_start_start, Act.forall_start_step,
    Act.forall_start_nil]
  exact ⟨⟨_, _, hcreate, rfl⟩, ⟨_, _, hupdate, rfl⟩, trivial⟩

/-- A name that would have been accepted. -/
theorem records_valid_renamed :
    (Record.org ⟨"acme", "Acme Inc.", .default, 1⟩).Valid := by
  have hname : validateDisplayName "Acme Inc." = .ok () := by decide +kernel
  refine records_valid .redb (renameSchedule_starts trivial hname) _ []
    (List.append_nil (renameSchedule "Acme Inc.")).symm (.org _) ⟨"acme", ?_⟩
  decide +kernel

/-- **An organization without a name**: an update is not checked. -/
theorem records_invalid_renamed :
    ¬ ∀ (st : AnyStore) (l : Schedule Bytes), st.IsEmpty → l.Starts (fun _ => True) →
      (Pool.acts AnyStore.exec ⟨st, []⟩ l).store.AllValid := by
  intro h
  have hvalid := h _ (renameSchedule "") .redb (renameSchedule_starts trivial trivial)
    (.org ⟨"acme", "", .default, 1⟩) ⟨"acme", by decide +kernel⟩
  exact absurd hvalid.2 (by decide)

end PeatGateway
