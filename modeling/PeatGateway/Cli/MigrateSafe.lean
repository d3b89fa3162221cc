import PeatGateway.Cli.Rewrite

/-!
# The migration is safe, complete and idempotent

Key material is rewritten in place, by a command that may be stopped at any record: by a
provider that cannot be reached, or by a storage call that fails, carried out or not.

## Main definitions

* `KeyProvider.Recovers` — the contract of a provider that may be out of reach: when a
  wrapped key is unwrapped at all, it is the key that was wrapped.
* `OpensTo` — an envelope opens to nothing but the given bytes.

## Main results

* `AnyStore.Sound.distinctListing` — in a store that operations lead to, no record is come
  to twice.
* `Visited.genesisForall` — there, the records that are come to are all there are.
* `migrateKeys_safe` — **the command**: what has become of the store however it ends, what
  success means, and what a dry run does.
* `migrateKeys_counts_twice` — in a store of rows that do not carry the ids they lie under,
  the counters of a dry run may differ.
-/

namespace PeatGateway

open Effect

/-! ### Providers that may be out of reach -/

/-- Whenever a wrapped key is unwrapped, the result is the key that was wrapped. -/
def KeyProvider.Recovers (P : KeyProvider) : Prop :=
  ∀ {w dek wrapped}, dek.length = 32 → P.wrapDek w dek = .ok wrapped →
    ∀ {w' dek'}, P.unwrapDek w' wrapped = .ok dek' → dek' = dek

theorem KeyProvider.Inverts.recovers {P : KeyProvider} (h : P.Inverts) : P.Recovers := by
  intro w dek wrapped hlen hwrap w' dek' hun
  rw [h hlen hwrap w'] at hun
  exact (Except.ok.inj hun).symm

/-- The envelope has been opened to these bytes, and whenever it can be opened it opens to
them. -/
def OpensTo (A : Aead) (P : KeyProvider) (old e : Bytes) : Prop :=
  (∃ w, openEnvelope A P w e = .ok (some old)) ∧
    ∀ w r, openEnvelope A P w e = .ok r → r = some old

/-- Opening what was sealed, when it succeeds. -/
theorem openEnvelope_recovers {A : Aead} (hA : A.Lawful) {P : KeyProvider} (hP : P.Recovers)
    {d : SealDraw} {plaintext e w : Bytes} {r : Option Bytes}
    (h : sealEnvelope A P d plaintext = .ok e) (hr : openEnvelope A P w e = .ok r) :
    r = some plaintext := by
  obtain ⟨wrappedDek, ciphertext, hwrap, hlen, hct, rfl⟩ := sealEnvelope_eq_ok h
  have hctlen := hA.length_encrypt hct
  rw [openEnvelope_assemble A P w hlen (by simp) (by omega), openParts] at hr
  cases hun : P.unwrapDek w wrappedDek with
  | error msg => rw [hun] at hr; cases hr
  | ok dek =>
    obtain rfl := hP (by simp) hwrap hun
    rw [hun] at hr
    change (if _ then _ else _) = _ at hr
    rw [if_neg (by simp), hA.decrypt_encrypt hct] at hr
    exact (Except.ok.inj hr).symm

theorem opensTo_of_sealVerified {A : Aead} (hA : A.Lawful) {P : KeyProvider} (hP : P.Recovers)
    {d : MigrateDraw} {o a : String} {raw e : Bytes} (h : sealVerified A P d o a raw = .ok e) :
    OpensTo A P raw e := by
  obtain ⟨hs, ho⟩ := sealVerified_eq_ok h
  exact ⟨⟨d.verify, ho⟩, fun w r hr => openEnvelope_recovers hA hP hs hr⟩

/-! ### Listings that miss nothing -/

section Listing

variable {st : AnyStore} (h : st.Sound)

include h

/-- The formations there are have their records come to. -/
theorem AnyStore.Sound.mem_listing {o a : String} :
    (o, a) ∈ st.listing ↔ ∃ f, st.core.formation o a = some f := by
  simp only [AnyStore.listing, AnyStore.records, List.mem_flatMap, List.mem_map, Prod.mk.injEq]
  constructor
  · rintro ⟨x, -, f, hf, rfl, rfl⟩
    exact ⟨f, h.mem_formationList.mp hf⟩
  · rintro ⟨f, hf⟩
    obtain ⟨x, hx⟩ := h.closed.formation_org hf
    have hxo := h.closed.orgId hx
    have hfa := h.closed.appId hf
    refine ⟨x, h.mem_orgList.mpr (by rw [hxo]; exact hx), f, ?_, hxo, hfa⟩
    rw [h.mem_formationList, hxo, hfa]
    exact hf

theorem AnyStore.Sound.nodup_listing : st.listing.Nodup := by
  refine List.nodup_flatMap.mpr ⟨?_, ?_⟩
  · intro x _
    apply List.Nodup.of_map Prod.snd
    rw [AnyStore.records, List.map_map]
    exact h.nodup_formationList
  · apply (List.pairwise_map.mp h.nodup_orgList).imp
    intro x y hxy p hp hq
    obtain ⟨_, -, rfl⟩ := List.mem_map.mp hp
    obtain ⟨_, -, heq⟩ := List.mem_map.mp hq
    exact hxy (congrArg Prod.fst heq).symm

/-- **No record is come to twice.** -/
theorem AnyStore.Sound.distinctListing : st.DistinctListing := by
  apply h.nodup_listing.imp_of_mem
  rintro ⟨o, a⟩ ⟨o', a'⟩ hp - hne hsame
  obtain ⟨f, hf⟩ := h.mem_listing.mp hp
  cases st with
  | redb s =>
    obtain ⟨ho, ha, -⟩ := Redb.Keyed.formation_ids h.tidy hf
    obtain ⟨rfl, rfl⟩ := formationKey_inj ho ha hsame
    exact hne rfl
  | postgres s => exact hne hsame

/-- **The records that are come to are all there are.** -/
theorem Visited.genesisForall {S : Bytes → Bytes → Prop} {st' : AnyStore} {n n' : Counters}
    (hv : Visited S st.listing st st' n n') : st'.GenesisForall (isEnvelope · = true) := by
  -- a record of the new store was there before, so it has a formation, which is listed
  have hcov : ∀ {o a b}, st'.core.genesis o a = some b → isEnvelope b = true := by
    intro o a b hb
    have hrel := hv.rewritten.genesis o a
    rw [hb] at hrel
    cases hold : st.core.genesis o a with
    | none => rw [hold] at hrel; cases hrel
    | some b₀ => exact hv.covered (o, a) (h.mem_listing.mpr (h.closed.genesis_formation hold)) b hb
  cases st with
  | redb s =>
    cases st' with
    | redb t =>
      intro k b hb
      have hrel := hv.rewritten.2 k
      rw [hb] at hrel
      cases hold : s.genesis[k]? with
      | none => rw [hold] at hrel; cases hrel
      | some b₀ =>
        obtain ⟨o, a, -, -, rfl⟩ := Redb.Keyed.genesis h.tidy k b₀ hold
        exact hcov (o := o) (a := a) hb
    | postgres t => exact False.elim hv.rewritten
  | postgres s =>
    cases st' with
    | redb t => exact False.elim hv.rewritten
    | postgres t =>
      rintro ⟨o, a⟩ b hb
      exact hcov (o := o) (a := a) hb

end Listing

/-! ### The command -/

/-- **The command is safe, complete and idempotent.**  For every store, every provider whose
unwrapping recovers what was wrapped, whatever it draws, whenever it is out of reach, and
whichever storage calls fail:

* however a run ends, no table but the genesis table has changed, and there every record is
  as before or has been replaced by an envelope that opens to it;
* if it succeeds, every formation has been counted once, the records of listed formations
  have the header, a second run only reads, and if the store was reached by operations of
  managers one after the other, no record at all is without the header;
* a dry run changes nothing, and counts as the run that succeeds, if no record is come to
  twice; in a store reached by operations of managers none is. -/
theorem migrateKeys_safe {G : Type} {env : KeyEnv} {config : KeyConfig} {P : KeyProvider}
    (hA : env.aead.Lawful) (hP : P.Recovers) (hbuild : buildKeyProvider env config = .ok (P, true))
    (st : AnyStore) :
    (∀ draws f r,
      (migrateKeys env config draws false).run (faulty AnyStore.exec f) (st, 0) = r →
      Rewritten (OpensTo env.aead P) st r.2.1 ∧
      ∀ n, r.1 = .ok n →
        n.total = n.migrated + n.alreadyEncrypted + n.missingGenesis ∧
        (∀ x ∈ st.orgList, ∀ φ ∈ st.formationList x.orgId, ∀ b,
          r.2.1.core.genesis x.orgId φ.appId = some b → isEnvelope b = true) ∧
        (∀ draws' dryRun' f',
          (migrateKeys env config draws' dryRun').Along (faulty AnyStore.exec f')
            (fun c _ => c.isRead = true) (r.2.1, 0) ∧
          ((migrateKeys env config draws' dryRun').run (faulty AnyStore.exec f') (r.2.1, 0)).2.1 =
            r.2.1) ∧
        (Served G st → r.2.1.GenesisForall (isEnvelope · = true)) ∧
        (st.DistinctListing → ∀ draws',
          (migrateKeys env config draws' true).run AnyStore.exec st = (.ok n, st))) ∧
    (∀ draws f,
      ((migrateKeys env config draws true).run (faulty AnyStore.exec f) (st, 0)).2.1 = st) ∧
    (Served G st → st.DistinctListing) := by
  refine ⟨?_, ?_, fun h => h.sound.distinctListing⟩
  · rintro draws f r rfl
    -- Everything below is read off one specification of the run, faults included.
    have hwp := wp_migrateKeys hbuild (S := OpensTo env.aead P)
      (fun h => opensTo_of_sealVerified hA hP h) draws f (st, 0)
    refine ⟨?_, ?_⟩
    · exact (hwp.mono (fun _ _ hv => hv.rewritten) fun _ h => h).state
        (I := fun s : AnyStore × ℕ => Rewritten (OpensTo env.aead P) st s.1)
    · intro n hn
      have hv := hwp.of_ok hn
      generalize ((migrateKeys env config draws false).run (faulty AnyStore.exec f) (st, 0)).2.1 =
        st' at hv
      refine ⟨hv.balanced rfl, ?_, ?_, ?_, ?_⟩
      · intro x hx φ hφ b hb
        refine hv.covered (x.orgId, φ.appId) (List.mem_flatMap.mpr ⟨x, hx, ?_⟩) b hb
        exact List.mem_map.mpr ⟨φ, hφ, rfl⟩
      · intro draws' dryRun' f'
        -- the second run lists what the first has listed
        have hlist : st'.listing = st.listing := by
          simp only [AnyStore.listing, AnyStore.records, hv.rewritten.orgList_eq,
            hv.rewritten.formationList_eq]
        have hmeets := meets_migrateKeys_read env config draws' dryRun' st'
          (Or.inr fun p hp => hv.covered p (hlist ▸ hp))
        have hsound := (AnyStore.readSpec_sound st').faulty (f := f')
        exact ⟨hmeets.along hsound rfl, (Prog.run_meets hsound hmeets rfl).1⟩
      · intro h
        exact hv.genesisForall h.sound
      · intro hd draws'
        rw [run_migrateKeys_dry hbuild, hv.counted hd]
  · intro draws f
    exact (Prog.run_meets ((AnyStore.readSpec_sound st).faulty (f := f))
      (meets_migrateKeys_read env config draws true st (Or.inl rfl)) rfl).1

/-! ### Two stores -/

/-- A store with one formation, made without encryption. -/
def plainStore : AnyStore :=
  ((ManagerOp.createFormation ⟨[42], (sampleDraws 0).envelope⟩ "a" "x" .open).prog seedManager).run
    AnyStore.exec (((ManagerOp.createOrg 0 "a" "A").prog seedManager).run AnyStore.exec
      (.redb .empty)).2 |>.2

theorem plainStore_served : Served Bytes plainStore :=
  .op (.op (.empty .redb) seedManager (.createOrg 0 "a" "A")) seedManager _

/-- The migration of that store, and the dry run before it. -/
theorem migrateKeys_safe_plainStore :
    ∃ r, (migrateKeys localEnv localConfig sampleDraws false).run
        (faulty AnyStore.exec fun _ => none) (plainStore, 0) = r ∧ r.1 = .ok ⟨1, 0, 0, 1⟩ ∧
      Rewritten (OpensTo localEnv.aead localProvider) plainStore r.2.1 ∧
      r.2.1.GenesisForall (isEnvelope · = true) ∧
      (migrateKeys localEnv localConfig sampleDraws true).run AnyStore.exec plainStore =
        (.ok ⟨1, 0, 0, 1⟩, plainStore) := by
  obtain ⟨hrun, -, hdistinct⟩ := migrateKeys_safe (G := Bytes) counterAead_lawful
    localProvider_inverts.recovers buildKeyProvider_local plainStore
  have hn : ((migrateKeys localEnv localConfig sampleDraws false).run
      (faulty AnyStore.exec fun _ => none) (plainStore, 0)).1 = .ok ⟨1, 0, 0, 1⟩ := by
    decide +kernel
  generalize hr : (migrateKeys localEnv localConfig sampleDraws false).run
    (faulty AnyStore.exec fun _ => none) (plainStore, 0) = r at hn
  obtain ⟨hrew, hok⟩ := hrun sampleDraws (fun _ => none) r hr
  obtain ⟨-, -, -, hall, hdry⟩ := hok _ hn
  exact ⟨r, rfl, hn, hrew, hall plainStore_served,
    hdry (hdistinct plainStore_served) sampleDraws⟩

/-- A store with two rows for one formation, the second under a key that is not its own. -/
def misfiled : AnyStore := .redb
  { Redb.empty with
    orgs := Redb.empty.orgs.insert "a" ⟨"a", "A", .default, 0⟩
    formations := (Redb.empty.formations.insert (formationKey "a" "x") ⟨"x", "m", .open⟩).insert
      (formationKey "a" "y") ⟨"x", "m", .open⟩
    genesis := Redb.empty.genesis.insert (formationKey "a" "x") [1, 42] }

/-- **The counters may differ** where a record is come to twice: the dry run counts it
twice as to be migrated, the run finds it encrypted the second time. -/
theorem migrateKeys_counts_twice :
    ¬ ∀ (env : KeyEnv) (config : KeyConfig) (P : KeyProvider), env.aead.Lawful → P.Inverts →
      buildKeyProvider env config = .ok (P, true) → ∀ st draws draws' n,
      ((migrateKeys env config draws false).run AnyStore.exec st).1 = .ok n →
      ((migrateKeys env config draws' true).run AnyStore.exec st).1 = .ok n := by
  intro h
  have hreal : ((migrateKeys localEnv localConfig sampleDraws false).run AnyStore.exec misfiled).1 =
      .ok ⟨1, 1, 0, 2⟩ := by decide +kernel
  have hdry : ((migrateKeys localEnv localConfig sampleDraws true).run AnyStore.exec misfiled).1 =
      .ok ⟨2, 0, 0, 2⟩ := by decide +kernel
  have heq := h localEnv localConfig localProvider counterAead_lawful localProvider_inverts
    buildKeyProvider_local misfiled sampleDraws sampleDraws _ hreal
  rw [hdry] at heq
  cases heq

end PeatGateway
