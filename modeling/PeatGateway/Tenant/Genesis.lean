import PeatGateway.Cli.Rewrite

/-!
# The genesis of a formation stays loadable

A formation's genesis is its root key: if it is lost or swapped, so is the formation.  It is
kept in a table of its own, in one of three forms: plaintext from before a key provider was
configured, an envelope made with the formation, or an envelope made by the migration, which
may have stopped halfway.

## Main definitions

* `managerOf` — the manager before and after a key provider is configured.
* `bornAfter` — which genesis was created with each formation.
* `GenesisRun` — runs of operations, with one switch to encryption and migrations after it.
* `Kept` — the invariant: every formation has its own genesis, in a form that can be read.

## Main results

* `Kept.op`, `Kept.migrate` — the steps keep the invariant.
* `genesis_loadable` — **every listed formation loads the genesis it was created with**.
-/

namespace PeatGateway

open Effect

/-- Which genesis was created with the formation under two ids. -/
abbrev Born (G : Type) : Type := String → String → Option G

/-- The genesis a successful `create_formation` makes is the one of its formation. -/
def bornAfter {G : Type} (mgr : TenantManager G) (op : ManagerOp) (r : Except Error (Outcome G))
    (born : Born G) : Born G :=
  match op.newborn mgr, r with
  | some (o, a, g), .ok _ => fun o' a' => if o = o' ∧ a = a' then some g else born o' a'
  | _, _ => born

/-- Unless a formation is made, nothing is born. -/
theorem bornAfter_eq {G : Type} {mgr : TenantManager G} {op : ManagerOp}
    {r : Except Error (Outcome G)} (h : op.newborn mgr = none ∨ ∃ e, r = .error e)
    (born : Born G) : bornAfter mgr op r born = born := by
  obtain h | ⟨e, rfl⟩ := h
  · simp only [bornAfter, h]
  · cases hn : op.newborn mgr with
    | none => simp only [bornAfter, hn]
    | some x => simp only [bornAfter, hn]

section

variable {G : Type} (api : GenesisApi G) (env : KeyEnv) (config : KeyConfig) (P : KeyProvider)

/-- The manager without a key provider, and with one. -/
def managerOf (encryptEnabled : Bool) : TenantManager G :=
  ⟨api, env.aead, if encryptEnabled then P else PlaintextProvider, encryptEnabled⟩

/-- What serial runs lead to: operations without a key provider, then, after a switch,
operations and migrations with one.  Calls of a migration may fail. -/
inductive GenesisRun : Bool → AnyStore → Born G → Prop
  | start {st : AnyStore} (h : st.IsEmpty) : GenesisRun false st fun _ _ => none
  | op {enc : Bool} {st : AnyStore} {born : Born G} (h : GenesisRun enc st born) (op : ManagerOp) :
      GenesisRun enc ((op.prog (managerOf api env P enc)).run AnyStore.exec st).2
        (bornAfter (managerOf api env P enc) op
          ((op.prog (managerOf api env P enc)).run AnyStore.exec st).1 born)
  | switch {st : AnyStore} {born : Born G} (h : GenesisRun false st born) : GenesisRun true st born
  | migrate {st : AnyStore} {born : Born G} (h : GenesisRun true st born) (draws : ℕ → MigrateDraw)
      (dryRun : Bool) (f : Faults Error) :
      GenesisRun true
        ((migrateKeys env config draws dryRun).run (faulty AnyStore.exec f) (st, 0)).2.1 born

/-- The bytes stand for the genesis: its encoding, or, with a key provider, an envelope that
opens to it. -/
def StandsFor (enc : Bool) (g : G) (b : Bytes) : Prop :=
  b = api.encode g ∨ enc = true ∧ isEnvelope b = true ∧
    ∀ w, openEnvelope env.aead P w b = .ok (some (api.encode g))

/-- Every formation has the genesis it was created with, in a form that can be read. -/
structure Kept (enc : Bool) (st : AnyStore) (born : Born G) : Prop where
  sound : st.Sound
  kept : ∀ {o a φ}, st.core.formation o a = some φ → ∃ g b, born o a = some g ∧
    φ.meshId = api.meshId g ∧ st.core.genesis o a = some b ∧ StandsFor api env P enc g b

end

section Steps

variable {G : Type} {api : GenesisApi G} {env : KeyEnv} {config : KeyConfig} {P : KeyProvider}
  {enc : Bool} {st st' : AnyStore} {born : Born G}

theorem kept_empty (h : st.IsEmpty) : Kept api env P false st fun _ _ => none where
  sound := h.sound
  kept hφ := by
    cases h with
    | redb => simp [AnyStore.core, Redb.empty] at hφ
    | postgres => cases hφ

/-- What is readable before the switch is readable after it. -/
theorem Kept.switch (h : Kept api env P false st born) : Kept api env P true st born where
  sound := h.sound
  kept hφ := by
    obtain ⟨g, b, hborn, hmesh, hb, hstands⟩ := h.kept hφ
    refine ⟨g, b, hborn, hmesh, hb, ?_⟩
    obtain heq | ⟨hfalse, -⟩ := hstands
    · exact Or.inl heq
    · cases hfalse

/-- What a new formation stores stands for its genesis. -/
theorem standsFor_protect (hA : env.aead.Lawful) (hP : P.Inverts) {d : SealDraw} {g : G} {b : Bytes}
    (h : (managerOf api env P enc).protect d (api.encode g) = .ok b) :
    StandsFor api env P enc g b := by
  cases enc with
  | false => exact Or.inl (Except.ok.inj h).symm
  | true =>
    have hseal : sealEnvelope env.aead P d (api.encode g) = .ok b := h
    exact Or.inr ⟨rfl, isEnvelope_sealEnvelope hseal, openEnvelope_sealEnvelope hA hP hseal⟩

/-- **An operation keeps every genesis.** -/
theorem Kept.op (hA : env.aead.Lawful) (hP : P.Inverts) (h : Kept api env P enc st born)
    (op : ManagerOp) :
    Kept api env P enc ((op.prog (managerOf api env P enc)).run AnyStore.exec st).2
      (bornAfter (managerOf api env P enc) op
        ((op.prog (managerOf api env P enc)).run AnyStore.exec st).1 born) where
  sound := h.sound.op _ op
  kept {o a φ} hφ := by
    have heff := op_effect (managerOf api env P enc) h.sound op
    have hkept := @h.kept
    -- What the operation did is one of the effects; the programs are not needed any more.
    generalize (op.prog (managerOf api env P enc)).run AnyStore.exec st = r at heff hφ ⊢
    generalize st.core = c at heff hkept
    obtain ⟨res, st'⟩ := r
    dsimp only at heff hφ ⊢
    generalize st'.core = c' at heff hφ ⊢
    cases heff with
    | stay hn =>
      rw [bornAfter_eq hn]
      exact hkept hφ
    | putOrg hn org =>
      rw [bornAfter_eq (Or.inl hn)]
      exact hkept hφ
    | dropOrg hn o' =>
      rw [bornAfter_eq (Or.inl hn)]
      simp only [Core.dropOrg] at hφ ⊢
      split at hφ
      · cases hφ
      · next hne =>
        rw [if_neg hne]
        exact hkept hφ
    | @add draw o' a' policy g b x hg horg hnone hb =>
      subst hg
      simp only [Core.putFormation, Core.putGenesis] at hφ ⊢
      have hborn : bornAfter (managerOf api env P enc) (.createFormation draw o' a' policy) (.ok x)
          born o a = if o' = o ∧ a' = a then
            some ((managerOf api env P enc).api.create a' policy.toMembership draw.genesis)
          else born o a := rfl
      rw [hborn]
      split at hφ
      · next heq =>
        obtain rfl := Option.some.inj hφ
        rw [if_pos heq, if_pos heq]
        exact ⟨_, b, rfl, rfl, rfl, standsFor_protect hA hP hb⟩
      · next hne =>
        rw [if_neg hne, if_neg hne]
        exact hkept hφ
    | remove hn o' a' =>
      rw [bornAfter_eq (Or.inl hn)]
      simp only [Core.dropFormation, Core.dropGenesis] at hφ ⊢
      split at hφ
      · cases hφ
      · next hne =>
        rw [if_neg hne]
        exact hkept hφ

/-- Rewriting keeps the keys readable and the owners in place. -/
theorem Rewritten.sound {S : Bytes → Bytes → Prop} (h : Rewritten S st st') (hs : st.Sound) :
    st'.Sound where
  tidy := by
    cases st with
    | redb s =>
      cases st' with
      | redb t =>
        have hk : s.Keyed := hs.tidy
        change t.Keyed
        rw [h.1]
        refine { hk with genesis := ?_ }
        intro k b hb
        have hrel := h.2 k
        rw [show t.genesis[k]? = some b from hb] at hrel
        cases hold : s.genesis[k]? with
        | none => rw [hold] at hrel; cases hrel
        | some b₀ => exact hk.genesis k b₀ hold
      | postgres t => exact False.elim h
    | postgres s =>
      cases st' with
      | redb t => exact False.elim h
      | postgres t => trivial
  closed :=
    { orgId := by rw [h.org_eq]; exact hs.closed.orgId
      appId := by rw [h.formation_eq]; exact hs.closed.appId
      formation_org := by rw [h.formation_eq, h.org_eq]; exact hs.closed.formation_org
      genesis_formation := by
        intro o a b hb
        have hrel := h.genesis o a
        rw [hb] at hrel
        rw [h.formation_eq]
        cases hold : st.core.genesis o a with
        | none => rw [hold] at hrel; cases hrel
        | some b₀ => exact hs.closed.genesis_formation hold }

/-- **Rewriting keeps every genesis**, if the envelopes open to what they replace. -/
theorem Kept.rewrite (hs : Kept api env P true st born)
    (h : Rewritten (fun old e => ∀ w, openEnvelope env.aead P w e = .ok (some old)) st st') :
    Kept api env P true st' born where
  sound := h.sound hs.sound
  kept {o a φ} hφ := by
    rw [h.formation_eq] at hφ
    obtain ⟨g, b, hborn, hmesh, hb, hstands⟩ := hs.kept hφ
    have hrel := h.genesis o a
    rw [hb] at hrel
    cases hnew : st'.core.genesis o a with
    | none => rw [hnew] at hrel; cases hrel
    | some b' =>
      rw [hnew] at hrel
      refine ⟨g, b', hborn, hmesh, rfl, ?_⟩
      cases hrel with
      | some hrel =>
        obtain rfl | ⟨hplain, henv, hopen⟩ := hrel
        · exact hstands
        · -- what has been replaced had no header, so it was the encoding itself
          obtain rfl | ⟨-, henv', -⟩ := hstands
          · exact Or.inr ⟨rfl, henv, hopen⟩
          · rw [hplain] at henv'
            cases henv'

/-- **A migration keeps every genesis**, wherever it stops. -/
theorem Kept.migrate (hbuild : buildKeyProvider env config = .ok (P, true)) (hA : env.aead.Lawful)
    (hP : P.Inverts) (h : Kept api env P true st born) (draws : ℕ → MigrateDraw) (dryRun : Bool)
    (f : Faults Error) :
    Kept api env P true
      ((migrateKeys env config draws dryRun).run (faulty AnyStore.exec f) (st, 0)).2.1 born := by
  cases dryRun with
  | true =>
    have hsound := (AnyStore.readSpec_sound st).faulty (f := f)
    rw [(Prog.run_meets hsound (meets_migrateKeys_read env config draws true st (Or.inl rfl))
      rfl).1]
    exact h
  | false =>
    have hwp := wp_migrateKeys hbuild
      (S := fun old e => ∀ w, openEnvelope env.aead P w e = .ok (some old))
      (fun hs => openEnvelope_sealEnvelope hA hP (sealVerified_eq_ok hs).1) draws f (st, 0)
    exact h.rewrite ((hwp.mono (fun _ _ hv => hv.rewritten) fun _ hr => hr).state
      (I := fun s : AnyStore × ℕ => Rewritten _ st s.1))

/-- **Every run keeps every genesis.** -/
theorem GenesisRun.keeps (hbuild : buildKeyProvider env config = .ok (P, true))
    (hA : env.aead.Lawful) (hP : P.Inverts) (h : GenesisRun api env config P enc st born) :
    Kept api env P enc st born := by
  induction h with
  | start h => exact kept_empty h
  | op _ op ih => exact ih.op hA hP op
  | switch _ ih => exact ih.switch
  | migrate _ draws dryRun f ih => exact ih.migrate hbuild hA hP draws dryRun f

/-! ### Loading -/

/-- Bytes without the header are not opened. -/
theorem openEnvelope_of_take {A : Aead} {w b : Bytes} (h : b.take 4 ≠ magic) :
    openEnvelope A P w b = .ok none := by
  unfold openEnvelope
  rw [dif_pos (Or.inr h)]

/-- Bytes that stand for a genesis are read as it. -/
theorem unprotect_standsFor (hcodec : ∀ g, api.decode (api.encode g) = .ok g)
    (hmagic : ∀ g, (api.encode g).take 4 ≠ magic) {g : G} {b : Bytes}
    (h : StandsFor api env P enc g b) (w : Bytes) :
    (managerOf api env P enc).unprotect w b = .ok g := by
  cases enc with
  | false =>
    obtain rfl | ⟨hfalse, -⟩ := h
    · change (api.decode (api.encode g)).mapError _ = _
      rw [hcodec]
      rfl
    · cases hfalse
  | true =>
    change (((openEnvelope env.aead P w b).map (·.getD b)) >>= fun plaintext =>
      (api.decode plaintext).mapError _) = _
    have hplain : (openEnvelope env.aead P w b).map (·.getD b) = .ok (api.encode g) := by
      obtain rfl | ⟨-, -, hopen⟩ := h
      · rw [openEnvelope_of_take (hmagic g)]
        rfl
      · rw [hopen w]
        rfl
    rw [hplain]
    change (api.decode (api.encode g)).mapError _ = _
    rw [hcodec]
    rfl

end Steps

/-- **The genesis stays loadable and matching.**  In every state of a run, every formation
listed in an organization loads, whatever the provider draws, the genesis it was created
with, and that genesis has the formation's mesh id. -/
theorem genesis_loadable {G : Type} {api : GenesisApi G} {env : KeyEnv} {config : KeyConfig}
    {P : KeyProvider} (hbuild : buildKeyProvider env config = .ok (P, true))
    (hA : env.aead.Lawful) (hP : P.Inverts) (hcodec : ∀ g, api.decode (api.encode g) = .ok g)
    (hmagic : ∀ g, (api.encode g).take 4 ≠ magic) {enc : Bool} {st : AnyStore} {born : Born G}
    (hrun : GenesisRun api env config P enc st born) {o : String} {fs : List FormationConfig}
    (hfs : ((TenantManager.listFormations o).run AnyStore.exec st).1 = .ok fs)
    {f : FormationConfig} (hf : f ∈ fs) (w : Bytes) :
    ∃ g, ((managerOf api env P enc).loadGenesis w o f.appId).run AnyStore.exec st = (.ok g, st) ∧
      api.meshId g = f.meshId ∧ born o f.appId = some g := by
  have hkept := hrun.keeps hbuild hA hP
  -- `list_formations` reads the organization first, then the table.
  have hlist : fs = st.formationList o := by
    simp only [TenantManager.listFormations, TenantManager.getOrg, Prog.bind_assoc, run_store_bind,
      AnyStore.exec_getOrg, Prog.next_ok, Prog.run_okOrElse_bind] at hfs
    cases horg : st.core.org o with
    | none => rw [horg] at hfs; cases hfs
    | some x =>
      rw [horg] at hfs
      have hrun : ((store (.listFormations o)).run AnyStore.exec st).1 = .ok fs := hfs
      rw [show (store (.listFormations o)).run AnyStore.exec st =
        AnyStore.exec (.listFormations o) st from rfl, AnyStore.exec_listFormations] at hrun
      exact (Except.ok.inj hrun).symm
  subst hlist
  obtain ⟨g, b, hborn, hmesh, hb, hstands⟩ :=
    hkept.kept (hkept.sound.mem_formationList.mp hf)
  refine ⟨g, ?_, hmesh.symm, hborn⟩
  simp only [TenantManager.loadGenesis, run_store_bind, AnyStore.exec_getGenesis, Prog.next_ok,
    Prog.run_okOrElse_bind, hb, Option.elim_some]
  rw [unprotect_standsFor hcodec hmagic hstands w]
  rfl

/-- A formation is made in plaintext, a key is configured, the record is migrated, and the
genesis is what it was. -/
theorem genesis_loadable_migrated :
    ∃ (st : AnyStore) (born : Born Bytes),
      GenesisRun seedGenesis localEnv localConfig localProvider true st born ∧
      ∃ g, ((managerOf seedGenesis localEnv localProvider true).loadGenesis [] "a" "x").run
          AnyStore.exec st = (.ok g, st) ∧ seedGenesis.meshId g = "2a" ∧
        born "a" "x" = some g := by
  have hstart : GenesisRun seedGenesis localEnv localConfig localProvider false (.redb .empty)
      fun _ _ => none := .start .redb
  have hrun := ((hstart.op (.createOrg 0 "a" "A")).op
    (.createFormation ⟨[42], (sampleDraws 0).envelope⟩ "a" "x" .open)).switch.migrate sampleDraws
    false fun _ => none
  obtain ⟨st, born, hrun, hfs⟩ : ∃ st born,
      GenesisRun seedGenesis localEnv localConfig localProvider true st born ∧
      ((TenantManager.listFormations "a").run AnyStore.exec st).1 = .ok [⟨"x", "2a", .open⟩] :=
    ⟨_, _, hrun, by decide +kernel⟩
  refine ⟨st, born, hrun, ?_⟩
  exact genesis_loadable buildKeyProvider_local counterAead_lawful localProvider_inverts
    (fun _ => rfl) (fun _ => by simp [seedGenesis, magic]) hrun hfs (List.mem_singleton_self _) []

end PeatGateway
