import PeatGateway.Api.Tenants
import PeatGateway.Storage.RedbFile

/-!
# Damage stays where it is

Rows of a redb file may have become unreadable.  A call that has to read such a row fails, and
with it the request that makes it.  Requests of an organization read its own rows only, so as long
as these can be read it is served as from a sound database in which it is alone, whatever has
become of the rows of the others and whatever they ask for.

## Main definitions

* `RedbFile.Keyed` — what can be read lies under its own key.
* `RedbFile.Confined` — the rows of one organization can be read.

## Main results

* `RedbFile.callSpec_sound` — calls keep what can be read under its own key.
* `damage_confined` — **an organization does not notice that rows of others cannot be read**.
-/

namespace PeatGateway

open Effect Text

namespace RedbFile

/-! ### What can be read -/

section Filed

variable {fmt : JsonFormat} {α : Type} {c : Codec α} {P : String → α → Prop}
  {t : Table String Bytes}

/-- What can be read has a property of its key and itself. -/
def Filed (fmt : JsonFormat) (c : Codec α) (P : String → α → Prop) (t : Table String Bytes) :
    Prop := t.Forall fun k row => ∀ a, fmt.Holds c row a → P k a

theorem Filed.insert (h : Filed fmt c P t) (hc : c.WellFormed) {k : String} {a : α} (ha : P k a) :
    Filed fmt c P (t.insert k (fmt.encode c a)) := by
  apply Table.Forall.insert h
  intro b hb
  -- the row is read as the record it was made of
  have hab : Except.ok a = .ok b := (JsonFormat.holds_encode hc a).symm.trans hb
  cases hab
  exact ha

theorem Filed.erase (h : Filed fmt c P t) (k : String) : Filed fmt c P (t.erase k) :=
  Table.Forall.erase h k

theorem Filed.removeAll (h : Filed fmt c P t) (q : String → Bool) :
    Filed fmt c P (t.removeAll q) :=
  Table.Forall.removeAll h q

/-- A record that is found has been read from a row. -/
theorem Filed.find (h : Filed fmt c P t) {key : String} {a : α}
    (ha : find fmt c t key = .ok (some a)) : P key a := by
  unfold RedbFile.find at ha
  split at ha
  · next row hrow =>
    apply h key row hrow a
    unfold JsonFormat.Holds
    cases hdecode : fmt.decode c row with
    | error e =>
      rw [hdecode] at ha
      cases ha
    | ok b =>
      rw [hdecode] at ha
      cases ha
      rfl
  · cases ha

/-- So has each record of a list. -/
theorem holds_of_mapM {rows : List Bytes} {as : List α} (h : rows.mapM (fmt.decode c) = .ok as)
    {a : α} (ha : a ∈ as) : ∃ row ∈ rows, fmt.Holds c row a := by
  induction rows generalizing as with
  | nil =>
    cases h
    cases ha
  | cons row rows ih =>
    rw [List.mapM_cons] at h
    cases hrow : fmt.decode c row with
    | error e =>
      rw [hrow] at h
      cases h
    | ok b =>
      cases hrows : rows.mapM (fmt.decode c) with
      | error e =>
        rw [hrow, hrows] at h
        cases h
      | ok bs =>
        rw [hrow, hrows] at h
        cases h
        rcases List.mem_cons.mp ha with rfl | ha
        · exact ⟨row, List.mem_cons_self, hrow⟩
        · obtain ⟨row', hmem, hholds⟩ := ih hrows ha
          exact ⟨row', List.mem_cons_of_mem _ hmem, hholds⟩

end Filed

/-- What can be read of the records that are read before they are written lies under its own key.
Nothing is asked of rows that cannot be read. -/
structure Keyed (fmt : JsonFormat) (f : RedbFile) : Prop where
  orgs : Filed fmt Organization.codec (fun k o => IsIdentifier k ∧ o.orgId = k) f.orgs
  formations : Filed fmt FormationConfig.codec (fun _ x => IsIdentifier x.appId) f.formations
  tokens : Filed fmt EnrollmentToken.codec
    (fun k t => IsIdentifier t.orgId ∧ k = tokenKey t.orgId t.tokenId) f.tokens
  sinks : Filed fmt CdcSinkConfig.codec
    (fun k t => IsIdentifier t.orgId ∧ k = sinkKey t.orgId t.sinkId) f.sinks
  idps : Filed fmt IdpConfig.codec
    (fun k i => IsIdentifier i.orgId ∧ k = idpKey i.orgId i.idpId) f.idps

section Calls

variable {fmt : JsonFormat} {f : RedbFile}

theorem Keyed.deleteOrg (h : f.Keyed fmt) (orgId : String) : (f.deleteOrg orgId).Keyed fmt where
  orgs := h.orgs.erase _
  formations := h.formations.removeAll _
  tokens := h.tokens.removeAll _
  sinks := h.sinks.removeAll _
  idps := h.idps.removeAll _

/-- **Each storage call keeps what can be read under its own key**, and what is read lies
there. -/
theorem callSpec_sound (fmt : JsonFormat) (scope : String → Prop) :
    (callSpec scope).Sound (exec fmt) (Keyed fmt) := by
  intro c f hf hpre
  cases c with
  | createOrg o | updateOrg o =>
    exact ⟨{ hf with orgs := hf.orgs.insert Organization.codec_wellFormed ⟨hpre.1, rfl⟩ },
      fun _ _ => trivial⟩
  | getOrg o =>
    refine ⟨hf, ?_⟩
    rintro r hr x rfl
    exact hf.orgs.find hr
  | listOrgs =>
    refine ⟨hf, ?_⟩
    rintro r hr x hx
    obtain ⟨row, hrow, hholds⟩ := holds_of_mapM hr hx
    obtain ⟨⟨k, row⟩, hmem, rfl⟩ := List.mem_map.mp hrow
    obtain ⟨hk, heq⟩ := hf.orgs k row
      (Std.ExtTreeMap.mem_toList_iff_getElem?_eq_some.mp hmem) x hholds
    exact heq ▸ hk
  | deleteOrg o => exact ⟨hf.deleteOrg o, fun _ _ => trivial⟩
  | createFormation o x =>
    exact ⟨{ hf with formations := hf.formations.insert FormationConfig.codec_wellFormed hpre.2.1 },
      fun _ _ => trivial⟩
  | listFormations o =>
    refine ⟨hf, ?_⟩
    rintro r hr x hx
    obtain ⟨row, hrow, hholds⟩ := holds_of_mapM hr hx
    obtain ⟨k, -, hk⟩ := Table.mem_scan.mp hrow
    exact hf.formations k row hk x hholds
  | deleteFormation o a =>
    exact ⟨{ hf with formations := hf.formations.erase _ }, fun _ _ => trivial⟩
  | createToken t | updateToken t =>
    exact ⟨{ hf with tokens := hf.tokens.insert EnrollmentToken.codec_wellFormed ⟨hpre.1, rfl⟩ },
      fun _ _ => trivial⟩
  | getToken o x =>
    refine ⟨hf, ?_⟩
    rintro r hr t rfl
    exact hf.tokens.find hr
  | deleteToken o x => exact ⟨{ hf with tokens := hf.tokens.erase _ }, fun _ _ => trivial⟩
  | createSink k | updateSink k =>
    exact ⟨{ hf with sinks := hf.sinks.insert CdcSinkConfig.codec_wellFormed ⟨hpre.1, rfl⟩ },
      fun _ _ => trivial⟩
  | getSink o x =>
    refine ⟨hf, ?_⟩
    rintro r hr t rfl
    exact hf.sinks.find hr
  | deleteSink o x => exact ⟨{ hf with sinks := hf.sinks.erase _ }, fun _ _ => trivial⟩
  | createIdp i | updateIdp i =>
    exact ⟨{ hf with idps := hf.idps.insert IdpConfig.codec_wellFormed ⟨hpre.1, rfl⟩ },
      fun _ _ => trivial⟩
  | getIdp o x =>
    refine ⟨hf, ?_⟩
    rintro r hr i rfl
    exact hf.idps.find hr
  | deleteIdp o x => exact ⟨{ hf with idps := hf.idps.erase _ }, fun _ _ => trivial⟩
  -- the other calls have to do with other tables, or only read
  | createPolicyRule _ | deletePolicyRule _ _ | appendAudit _ | storeGenesis _ _ _
  | deleteGenesis _ _ | setCursor _ _ _ _ => exact ⟨{ hf with }, fun _ _ => trivial⟩
  | _ => exact ⟨hf, fun _ _ => trivial⟩

end Calls

/-! ### The rows of one organization -/

section Confined

variable {fmt : JsonFormat} {A : String} {f : RedbFile} {s : Redb}

/-- The rows of the organization are read as those of the store. -/
abbrev StoresOf (A : String) (fmt : JsonFormat) (f : RedbFile) (s : Redb) : Prop :=
  Stores fmt (· == A) (belongsTo A) f s

/-- What an organization reads are rows of its own. -/
theorem covers_own {c : StorageCall} (hc : c.Own A) : Covers (· == A) (belongsTo A) c := by
  obtain ⟨hpre, hread⟩ := hc
  cases c with
  | getOrg o => exact beq_iff_eq.mpr (hread rfl)
  | deleteOrg o => exact beq_iff_eq.mpr hpre
  | listOrgs => exact (hread rfl).elim
  | getFormation o _ | getToken o _ | getSink o _ | getIdp o _ | getGenesis o _ | getCursor o _ _ =>
    obtain rfl : o = A := hread rfl
    exact belongsTo_nulKey _ _
  | deleteFormation o _ | deleteToken o _ | deleteSink o _ | deleteIdp o _ | deletePolicyRule o _
  | deleteGenesis o _ =>
    obtain rfl : o = A := hpre
    exact belongsTo_nulKey _ _
  | listFormations o | listTokens o _ | listSinks o | listIdps o | listPolicyRules o
  | listAudit o _ _ =>
    obtain rfl : o = A := hread rfl
    exact fun _ hk => hk
  | _ => trivial

theorem storesOf_deleteOrg {B : String} (hA : IsIdentifier A) (hB : IsIdentifier B) (hBA : B ≠ A)
    (h : f.StoresOf A fmt s) : (f.deleteOrg B).StoresOf A fmt s where
  orgs := h.orgs.erase_left (beq_eq_false_iff_ne.mpr hBA)
  formations := h.formations.removeAll_left fun _ => not_belongsTo_of_belongsTo hA hB hBA.symm
  tokens := h.tokens.removeAll_left fun _ => not_belongsTo_of_belongsTo hA hB hBA.symm
  sinks := h.sinks.removeAll_left fun _ => not_belongsTo_of_belongsTo hA hB hBA.symm
  cursors := h.cursors.removeAll_left fun _ => not_belongsTo_of_belongsTo hA hB hBA.symm
  idps := h.idps.removeAll_left fun _ => not_belongsTo_of_belongsTo hA hB hBA.symm
  policyRules := h.policyRules.removeAll_left fun _ => not_belongsTo_of_belongsTo hA hB hBA.symm
  audit := h.audit.removeAll_left fun _ => not_belongsTo_of_belongsTo hA hB hBA.symm
  genesis := h.genesis.removeAll_left fun _ => not_belongsTo_of_belongsTo hA hB hBA.symm

/-- A call of another organization keeps the rows of this one. -/
theorem storesOf_exec {B : String} (hA : IsIdentifier A) (hB : IsIdentifier B) (hBA : B ≠ A)
    (h : f.StoresOf A fmt s) {c : StorageCall} (hc : callPre (· = B) c) :
    (exec fmt c f).2.StoresOf A fmt s := by
  have hkey : ∀ x, belongsTo A (nulKey B x) = false := fun x => not_belongsTo_nulKey hB hA hBA
  have horg : (B == A) = false := beq_eq_false_iff_ne.mpr hBA
  cases c with
  | createOrg o | updateOrg o =>
    obtain ⟨-, rfl⟩ := hc
    exact { h with orgs := h.orgs.insert_left horg _ }
  | deleteOrg o =>
    obtain rfl := hc
    exact storesOf_deleteOrg hA hB hBA h
  | createFormation o x =>
    obtain ⟨-, -, rfl⟩ := hc
    exact { h with formations := h.formations.insert_left (hkey _) _ }
  | deleteFormation o a =>
    obtain rfl := hc
    exact { h with formations := h.formations.erase_left (hkey _) }
  | createToken t | updateToken t =>
    obtain ⟨-, rfl⟩ := hc
    exact { h with tokens := h.tokens.insert_left (hkey _) _ }
  | deleteToken o x =>
    obtain rfl := hc
    exact { h with tokens := h.tokens.erase_left (hkey _) }
  | createSink k | updateSink k =>
    obtain ⟨-, rfl⟩ := hc
    exact { h with sinks := h.sinks.insert_left (hkey _) _ }
  | deleteSink o x =>
    obtain rfl := hc
    exact { h with sinks := h.sinks.erase_left (hkey _) }
  | createIdp i | updateIdp i =>
    obtain ⟨-, rfl⟩ := hc
    exact { h with idps := h.idps.insert_left (hkey _) _ }
  | deleteIdp o x =>
    obtain rfl := hc
    exact { h with idps := h.idps.erase_left (hkey _) }
  | createPolicyRule r =>
    obtain ⟨-, rfl⟩ := hc
    exact { h with policyRules := h.policyRules.insert_left (hkey _) _ }
  | deletePolicyRule o x =>
    obtain rfl := hc
    exact { h with policyRules := h.policyRules.erase_left (hkey _) }
  | appendAudit e =>
    obtain rfl := hc
    exact { h with audit := h.audit.insert_left (hkey _) _ }
  | storeGenesis o a b =>
    obtain ⟨-, -, rfl⟩ := hc
    exact { h with genesis := h.genesis.insert_left (hkey _) _ }
  | deleteGenesis o a =>
    obtain rfl := hc
    exact { h with genesis := h.genesis.erase_left (hkey _) }
  | setCursor o a d v =>
    obtain rfl := hc
    exact { h with cursors := h.cursors.insert_left (hkey _) _ }
  | _ => exact h

/-- A file whose rows may be damaged, and a store with what can be read of the organization. -/
structure Confined (A : String) (fmt : JsonFormat) (f : RedbFile) (s : Redb) : Prop where
  file : f.Keyed fmt
  store : s.Keyed
  rows : f.StoresOf A fmt s

/-- The organization is answered from its rows. -/
theorem confined_sound (A : String) (fmt : JsonFormat) :
    (Pairing.same (ownSpec A)).Sound (exec fmt) Redb.exec (Confined A fmt) := by
  rintro c _ f s h ⟨rfl, hpre⟩
  obtain ⟨hanswer, hrows⟩ := exec_stores h.rows (covers_own hpre)
  obtain ⟨hfile, hpost⟩ := callSpec_sound fmt (· = A) c f h.file hpre.1
  obtain ⟨hstore, -⟩ := PeatGateway.callSpec_sound (· = A) c s h.store hpre.1
  exact ⟨⟨heq_of_eq hanswer, fun x hx => ⟨hpost x hx, trivial⟩⟩, hfile, hstore, hrows⟩

/-- The calls of the others are not noticed. -/
theorem confined_unseen (hA : IsIdentifier A) (fmt : JsonFormat) :
    (callSpec (Other A)).Unseen (exec fmt) (Confined A fmt) := by
  rintro c f s h hpre
  obtain ⟨hfile, hpost⟩ := callSpec_sound fmt (Other A) c f h.file hpre
  refine ⟨⟨hfile, h.store, ?_⟩, hpost⟩
  rcases callPre_other hpre with hread | ⟨B, hB, hcB⟩
  · have hstay : (exec fmt c f).2 = f := by
      cases c <;> first | rfl | cases hread
    rw [hstay]
    exact h.rows
  · exact storesOf_exec hA hB.1 hB.2 h.rows hcB

end Confined

end RedbFile

/-- **Damage stays where it is.**  As long as the rows of an organization can be read, each of its
requests is given the response that it would be given from a sound database if the others had all
asked for a page that does not exist: whatever rows of others cannot be read, whatever they ask for,
and however the storage calls of all requests are interleaved.  Its rows can be read afterwards,
too. -/
theorem damage_confined {G : Type} (gw : Gateway G) (fmt : JsonFormat) {A : String}
    (hA : IsIdentifier A) {f : RedbFile} {s : Redb} (hfs : f.Confined A fmt s) (l : List Move)
    (hids : ∀ req ∈ arrivals l, ∀ o, req.orgId = some o → IsIdentifier o) :
    (served gw (RedbFile.exec fmt) f l).store.Confined A fmt
        (served gw Redb.exec s (l.map (Move.alone A))).store ∧
    ∀ i req, (arrivals l)[i]? = some req → req.orgId = some A →
      responseTo gw (RedbFile.exec fmt) f l i =
        responseTo gw Redb.exec s (l.map (Move.alone A)) i :=
  served_alone gw hA (RedbFile.confined_sound A fmt) (RedbFile.confined_unseen hA fmt) hfs l hids

/-! ### A damaged row -/

/-- A file with nothing in it but the row of `b`, which is no JSON. -/
def damagedFile : RedbFile := ⟨(∅ : Table String Bytes).insert "b" [0], ∅, ∅, ∅, ∅, ∅, ∅, ∅, ∅⟩

theorem damagedFile_confined : damagedFile.Confined "a" .compact .empty where
  file := {
    orgs := Table.Forall.insert (Table.forall_empty _) fun o ho => by
      have hbad : JsonFormat.compact.decode Organization.codec [0] = .error "expected value" := rfl
      cases hbad.symm.trans ho
    formations := Table.forall_empty _
    tokens := Table.forall_empty _
    sinks := Table.forall_empty _
    idps := Table.forall_empty _ }
  store := Redb.keyed_empty
  rows := {
    orgs := (Table.alikeOn_empty _ _).insert_left rfl _
    formations := Table.alikeOn_empty _ _
    tokens := Table.alikeOn_empty _ _
    sinks := Table.alikeOn_empty _ _
    cursors := Table.alikeOn_empty _ _
    idps := Table.alikeOn_empty _ _
    policyRules := Table.alikeOn_empty _ _
    audit := Table.alikeOn_empty _ _
    genesis := Table.alikeOn_empty _ _ }

/-- `b` cannot be made, and `a` is made all the same. -/
theorem damage_confined_two :
    (responseTo seedGateway (RedbFile.exec .compact) damagedFile twoTenants 0).isSome = true ∧
    responseTo seedGateway (RedbFile.exec .compact) damagedFile twoTenants 0 =
      responseTo seedGateway Redb.exec .empty (twoTenants.map (Move.alone "a")) 0 := by
  obtain ⟨-, hsame⟩ := damage_confined seedGateway .compact (A := "a") (by decide +kernel)
    damagedFile_confined twoTenants (by decide +kernel)
  exact ⟨by decide +kernel, hsame 0 _ rfl (by decide +kernel)⟩

end PeatGateway
