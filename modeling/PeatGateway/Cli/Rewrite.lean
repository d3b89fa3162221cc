import PeatGateway.Cli.Migrate
import PeatGateway.Tenant.Core

/-!
# What the migration does to a store

The command replaces records of the genesis table one by one and may stop at any of them.
Whatever it has done until then is one *rewriting* of the store: every record is as before,
or it had no envelope header and has been replaced by an envelope.

## Main definitions

* `Replaced S`, `Rewritten S` — one record, and one store, before and after; `S` says what
  is known of a record and the envelope that replaced it.
* `Counters.count`, `AnyStore.tally` — the counters of a walk that changes nothing.
* `Visited` — what a completed part of the walk has done.
* `readSpec` — programs that only read.

## Main results

* `wp_migrateKeys` — **however it ends, the command has rewritten the store**, and if it
  succeeds it has visited every record it lists.
* `meets_migrateKeys_read` — **a dry run only reads**, and so does any run over records that
  have the header.
-/

namespace PeatGateway

open Effect

/-! ### One record -/

/-- The record is as before, or an envelope that stands for it. -/
def Replaced (S : Bytes → Bytes → Prop) (old new : Bytes) : Prop :=
  new = old ∨ isEnvelope old = false ∧ isEnvelope new = true ∧ S old new

section Replaced

variable {S : Bytes → Bytes → Prop}

theorem Replaced.refl (b : Bytes) : Replaced S b b := Or.inl rfl

/-- A record that has the header is not replaced. -/
theorem Replaced.eq_of_isEnvelope {b b' : Bytes} (h : Replaced S b b') (hb : isEnvelope b = true) :
    b' = b := by
  obtain rfl | ⟨hb', -, -⟩ := h
  · rfl
  · rw [hb] at hb'
    cases hb'

theorem Replaced.trans {b b' b'' : Bytes} (h : Replaced S b b') (h' : Replaced S b' b'') :
    Replaced S b b'' := by
  by_cases hb' : isEnvelope b' = true
  · rw [h'.eq_of_isEnvelope hb']
    exact h
  · obtain rfl | ⟨-, henv, -⟩ := h
    · exact h'
    · exact absurd henv hb'

theorem rel_replaced_refl (b : Option Bytes) : Option.Rel (Replaced S) b b := by
  cases b with
  | none => exact .none
  | some b => exact .some (.refl b)

theorem rel_replaced_trans {b b' b'' : Option Bytes} (h : Option.Rel (Replaced S) b b')
    (h' : Option.Rel (Replaced S) b' b'') : Option.Rel (Replaced S) b b'' := by
  cases h with
  | none => exact h'
  | some h =>
    cases h' with
    | some h' => exact .some (h.trans h')

end Replaced

/-! ### A store -/

/-- Only the genesis table differs, and there each record is as before or an envelope that
stands for it. -/
def Rewritten (S : Bytes → Bytes → Prop) : AnyStore → AnyStore → Prop
  | .redb s, .redb t =>
    t = { s with genesis := t.genesis } ∧
      ∀ k : String, Option.Rel (Replaced S) s.genesis[k]? t.genesis[k]?
  | .postgres s, .postgres t =>
    t = { s with genesis := t.genesis } ∧
      ∀ k, Option.Rel (Replaced S) (s.genesis.select k) (t.genesis.select k)
  | _, _ => False

namespace AnyStore

/-- The two pairs of ids lead to the same genesis record. -/
def SameRecord : AnyStore → String × String → String × String → Prop
  | .redb _, p, q => formationKey p.1 p.2 = formationKey q.1 q.2
  | .postgres _, p, q => p = q

/-- The record has the header, if there is one. -/
def Covered (st : AnyStore) (p : String × String) : Prop :=
  ∀ b, st.core.genesis p.1 p.2 = some b → isEnvelope b = true

/-- Every record of the genesis table satisfies `p`. -/
def GenesisForall (p : Bytes → Prop) : AnyStore → Prop
  | .redb s => ∀ (k : String) (b : Bytes), s.genesis[k]? = some b → p b
  | .postgres s => ∀ k b, s.genesis.select k = some b → p b

end AnyStore

namespace Rewritten

variable {S : Bytes → Bytes → Prop} {st st' st'' : AnyStore}

theorem refl (S : Bytes → Bytes → Prop) (st : AnyStore) : Rewritten S st st := by
  cases st with
  | redb s => exact ⟨rfl, fun k => rel_replaced_refl _⟩
  | postgres s => exact ⟨rfl, fun k => rel_replaced_refl _⟩

theorem trans (h : Rewritten S st st') (h' : Rewritten S st' st'') : Rewritten S st st'' := by
  cases st <;> cases st' <;> cases st''
  case redb.redb.redb =>
    refine ⟨?_, fun k => rel_replaced_trans (h.2 k) (h'.2 k)⟩
    rw [h'.1, h.1]
  case postgres.postgres.postgres =>
    refine ⟨?_, fun k => rel_replaced_trans (h.2 k) (h'.2 k)⟩
    rw [h'.1, h.1]
  all_goals first | exact False.elim h | exact False.elim h'

theorem org_eq (h : Rewritten S st st') : st'.core.org = st.core.org := by
  cases st <;> cases st'
  case redb.redb => rw [h.1]; rfl
  case postgres.postgres => rw [h.1]; rfl
  all_goals exact False.elim h

theorem formation_eq (h : Rewritten S st st') : st'.core.formation = st.core.formation := by
  cases st <;> cases st'
  case redb.redb => rw [h.1]; rfl
  case postgres.postgres => rw [h.1]; rfl
  all_goals exact False.elim h

theorem orgList_eq (h : Rewritten S st st') : st'.orgList = st.orgList := by
  cases st <;> cases st'
  case redb.redb => rw [h.1]; rfl
  case postgres.postgres => rw [h.1]; rfl
  all_goals exact False.elim h

theorem formationList_eq (h : Rewritten S st st') : st'.formationList = st.formationList := by
  cases st <;> cases st'
  case redb.redb => rw [h.1]; rfl
  case postgres.postgres => rw [h.1]; rfl
  all_goals exact False.elim h

theorem sameRecord_eq (h : Rewritten S st st') : st'.SameRecord = st.SameRecord := by
  cases st <;> cases st'
  case redb.redb => rfl
  case postgres.postgres => rfl
  all_goals exact False.elim h

theorem genesis (h : Rewritten S st st') (o a : String) :
    Option.Rel (Replaced S) (st.core.genesis o a) (st'.core.genesis o a) := by
  cases st <;> cases st'
  case redb.redb => exact h.2 _
  case postgres.postgres => exact h.2 _
  all_goals exact False.elim h

/-- A record that has the header stays. -/
theorem covered (h : Rewritten S st st') {p : String × String} (hp : st.Covered p) :
    st'.Covered p := by
  intro b hb
  have hrel := h.genesis p.1 p.2
  rw [hb] at hrel
  cases hold : st.core.genesis p.1 p.2 with
  | none => rw [hold] at hrel; cases hrel
  | some b₀ =>
    rw [hold] at hrel
    cases hrel with
    | some hrel =>
      rw [hrel.eq_of_isEnvelope (hp b₀ hold)]
      exact hp b₀ hold

end Rewritten

/-- **Writing one record** that is there: the call succeeds on either backend, and it
rewrites the store at this record. -/
theorem AnyStore.exec_replace {S : Bytes → Bytes → Prop} {st : AnyStore} {o a : String}
    {raw b : Bytes} (hraw : st.core.genesis o a = some raw) (hb : Replaced S raw b) :
    ∃ st', exec (.storeGenesis o a b) st = (.ok (), st') ∧ Rewritten S st st' ∧
      st'.core.genesis o a = some b ∧
      ∀ q, ¬ st.SameRecord (o, a) q → st'.core.genesis q.1 q.2 = st.core.genesis q.1 q.2 := by
  cases st with
  | redb s =>
    refine ⟨_, rfl, ⟨rfl, ?_⟩, ?_, fun q hq => Table.get_insert_of_ne hq⟩
    · intro k
      change Option.Rel _ _ (s.genesis.insert (formationKey o a) b)[k]?
      rw [Table.get_insert]
      split
      · next hk =>
        subst hk
        rw [show s.genesis[formationKey o a]? = some raw from hraw]
        exact .some hb
      · exact rel_replaced_refl _
    · exact (Table.get_insert _ _ _ _).trans (if_pos rfl)
  | postgres s =>
    -- The row is there, so the foreign key is not looked at.
    have hrow : s.genesis.select (o, a) = some raw := hraw
    refine ⟨.postgres { s with genesis := s.genesis.upsert (o, a) b }, ?_, ⟨rfl, ?_⟩, ?_, ?_⟩
    · simp only [exec, Postgres.exec, Postgres.upsertChild, hrow, Option.isSome_some, Bool.true_or,
        if_true, Postgres.commit]
    · intro k
      change Option.Rel _ _ ((s.genesis.upsert (o, a) b).select k)
      rw [Rows.select_upsert]
      split
      · next hk =>
        subst hk
        rw [hrow]
        exact .some hb
      · exact rel_replaced_refl _
    · exact (Rows.select_upsert _ _ _ _).trans (if_pos rfl)
    · intro q hq
      exact (Rows.select_upsert _ _ _ _).trans (if_neg hq)

/-! ### Counting -/

/-- The counters after one more record, by what is found. -/
def Counters.count (n : Counters) : Option Bytes → Counters
  | none => { n with total := n.total + 1, missingGenesis := n.missingGenesis + 1 }
  | some raw =>
    if isEnvelope raw then
      { n with total := n.total + 1, alreadyEncrypted := n.alreadyEncrypted + 1 }
    else { n with total := n.total + 1, migrated := n.migrated + 1 }

/-- Every record is counted once. -/
def Counters.Balanced (n : Counters) : Prop :=
  n.total = n.migrated + n.alreadyEncrypted + n.missingGenesis

theorem Counters.Balanced.count {n : Counters} (h : n.Balanced) (r : Option Bytes) :
    (n.count r).Balanced := by
  unfold Counters.Balanced at h
  unfold Counters.count
  split
  · change n.total + 1 = n.migrated + n.alreadyEncrypted + (n.missingGenesis + 1)
    omega
  · split
    · change n.total + 1 = n.migrated + (n.alreadyEncrypted + 1) + n.missingGenesis
      omega
    · change n.total + 1 = n.migrated + 1 + n.alreadyEncrypted + n.missingGenesis
      omega

namespace AnyStore

/-- The counters of a walk over the records that changes nothing. -/
def tally (st : AnyStore) (l : List (String × String)) (n : Counters) : Counters :=
  l.foldl (fun n p => n.count (st.core.genesis p.1 p.2)) n

/-- The records of one organization, as the migration comes to them. -/
def records (st : AnyStore) (o : String) : List (String × String) :=
  (st.formationList o).map fun f => (o, f.appId)

/-- All records, as the migration comes to them. -/
def listing (st : AnyStore) : List (String × String) :=
  st.orgList.flatMap fun x => st.records x.orgId

/-- No record is come to twice. -/
def DistinctListing (st : AnyStore) : Prop :=
  st.listing.Pairwise fun p q => ¬ st.SameRecord p q

theorem tally_congr {st st' : AnyStore} {l : List (String × String)}
    (h : ∀ p ∈ l, st'.core.genesis p.1 p.2 = st.core.genesis p.1 p.2) (n : Counters) :
    st'.tally l n = st.tally l n := by
  induction l generalizing n with
  | nil => rfl
  | cons p l ih =>
    rw [tally, tally, List.foldl_cons, List.foldl_cons, h p List.mem_cons_self]
    exact ih (fun q hq => h q (List.mem_cons_of_mem _ hq)) _

end AnyStore

/-! ### Completed parts of the walk -/

/-- What the walk over the records `l` has done once it is complete. -/
structure Visited (S : Bytes → Bytes → Prop) (l : List (String × String)) (st st' : AnyStore)
    (n n' : Counters) : Prop where
  rewritten : Rewritten S st st'
  covered : ∀ p ∈ l, st'.Covered p
  balanced : n.Balanced → n'.Balanced
  /-- Records that are not come to stay. -/
  frame : ∀ q, (∀ p ∈ l, ¬ st.SameRecord p q) →
    st'.core.genesis q.1 q.2 = st.core.genesis q.1 q.2
  /-- What is written does not change what is counted later. -/
  counted : l.Pairwise (fun p q => ¬ st.SameRecord p q) → n' = st.tally l n

namespace Visited

variable {S : Bytes → Bytes → Prop}

theorem nil (st : AnyStore) (n : Counters) : Visited S [] st st n n where
  rewritten := .refl S st
  covered _ hp := nomatch hp
  balanced h := h
  frame _ _ := rfl
  counted _ := rfl

theorem append {l₁ l₂ : List (String × String)} {st st₁ st₂ : AnyStore} {n n₁ n₂ : Counters}
    (h₁ : Visited S l₁ st st₁ n n₁) (h₂ : Visited S l₂ st₁ st₂ n₁ n₂) :
    Visited S (l₁ ++ l₂) st st₂ n n₂ where
  rewritten := h₁.rewritten.trans h₂.rewritten
  covered p hp := by
    obtain hp | hp := List.mem_append.mp hp
    · exact h₂.rewritten.covered (h₁.covered p hp)
    · exact h₂.covered p hp
  balanced h := h₂.balanced (h₁.balanced h)
  frame q hq := by
    rw [h₂.frame q fun p hp => ?_, h₁.frame q fun p hp => hq p (List.mem_append_left _ hp)]
    rw [h₁.rewritten.sameRecord_eq]
    exact hq p (List.mem_append_right _ hp)
  counted hl := by
    obtain ⟨hl₁, hl₂, hcross⟩ := List.pairwise_append.mp hl
    have hcount₂ := h₂.counted (by rw [h₁.rewritten.sameRecord_eq]; exact hl₂)
    -- the second part finds what was there before the first
    have hframe : ∀ q ∈ l₂, st₁.core.genesis q.1 q.2 = st.core.genesis q.1 q.2 :=
      fun q hq => h₁.frame q fun p hp => hcross p hp q hq
    rw [hcount₂, AnyStore.tally_congr hframe, h₁.counted hl₁, AnyStore.tally, AnyStore.tally,
      AnyStore.tally, List.foldl_append]

/-- A record that is left as it is. -/
theorem skip {st : AnyStore} {p : String × String} (hp : st.Covered p) (n : Counters) :
    Visited S [p] st st n (n.count (st.core.genesis p.1 p.2)) where
  rewritten := .refl S st
  covered q hq := by
    obtain rfl := List.mem_singleton.mp hq
    exact hp
  balanced h := h.count _
  frame _ _ := rfl
  counted _ := rfl

end Visited

/-! ### The loops, when any call may fail -/

/-- What is written has been sealed, and opened again. -/
theorem sealVerified_eq_ok {A : Aead} {P : KeyProvider} {d : MigrateDraw} {o a : String}
    {raw e : Bytes} (h : sealVerified A P d o a raw = .ok e) :
    sealEnvelope A P d.envelope raw = .ok e ∧ openEnvelope A P d.verify e = .ok (some raw) := by
  unfold sealVerified at h
  cases hs : sealEnvelope A P d.envelope raw with
  | error msg => rw [hs] at h; cases h
  | ok sealed =>
    rw [hs] at h
    cases ho : openEnvelope A P d.verify sealed with
    | error msg => simp only [bind, Except.bind, ho] at h; cases h
    | ok r =>
      simp only [bind, Except.bind, ho] at h
      cases r with
      | none => cases h
      | some decrypted =>
        dsimp only at h
        split at h
        · cases h
        · next heq =>
          obtain rfl := Except.ok.inj h
          exact ⟨rfl, by rw [ho, not_not.mp heq]⟩

section Loops

variable {A : Aead} {P : KeyProvider} {draws : ℕ → MigrateDraw} {S : Bytes → Bytes → Prop}
  (hS : ∀ {d o a raw e}, sealVerified A P d o a raw = .ok e → S raw e) (f : Faults Error)

include hS

/-- One record, whatever fails. -/
theorem wp_migrateRecord (o a : String) (n : Counters) (s : AnyStore × ℕ) :
    (migrateRecord A P false draws o a n).Wp (faulty AnyStore.exec f) s
      (fun n' s' => Visited S [(o, a)] s.1 s'.1 n n') fun s' => Rewritten S s.1 s'.1 := by
  simp only [migrateRecord, Prog.wp_bind]
  refine wp_store_faulty (.getGenesis o a) ?_ ?_
  -- The read fails, before or after it was made; either way nothing is written.
  · intro _
    rw [AnyStore.exec_getGenesis]
    exact ⟨.refl S s.1, .refl S s.1⟩
  · intro k r hr
    rw [AnyStore.exec_getGenesis] at hr ⊢
    obtain rfl := Except.ok.inj hr
    cases hraw : s.1.core.genesis o a with
    | none =>
      have hskip : Visited S [(o, a)] s.1 s.1 n (n.count none) := by
        rw [← hraw]
        exact .skip (fun b hb => by rw [hraw] at hb; cases hb) n
      exact (Prog.wp_pure _).mpr hskip
    | some raw =>
      by_cases henv : isEnvelope raw = true
      · have hskip : Visited S [(o, a)] s.1 s.1 n (n.count (some raw)) := by
          rw [← hraw]
          refine .skip ?_ n
          intro b hb
          rw [hraw] at hb
          obtain rfl := Option.some.inj hb
          exact henv
        simpa [henv, Counters.count] using hskip
      · simp only [henv, if_false, Bool.false_eq_true, Prog.wp_bind, Prog.wp_ofExcept,
          Prog.wp_pure]
        refine ⟨?_, fun _ _ => .refl S s.1⟩
        intro sealed hsealed
        -- `seal_verified` has opened the envelope again before it is written.
        have hrep : Replaced S raw sealed :=
          Or.inr ⟨by simpa using henv, isEnvelope_sealEnvelope (sealVerified_eq_ok hsealed).1,
            hS hsealed⟩
        obtain ⟨st', hexec, hrew, hnew, hframe⟩ := AnyStore.exec_replace hraw hrep
        refine wp_store_faulty (.storeGenesis o a sealed) ?_ ?_
        -- A write that is reported to have failed may have been made.
        · intro _
          rw [hexec]
          exact ⟨.refl S s.1, hrew⟩
        · intro _ _ _
          rw [hexec]
          refine ⟨hrew, ?_, ?_, ?_, ?_⟩
          · intro p hp
            obtain rfl := List.mem_singleton.mp hp
            intro b hb
            obtain rfl := Option.some.inj (hnew.symm.trans hb)
            exact isEnvelope_sealEnvelope (sealVerified_eq_ok hsealed).1
          · intro hn
            have hbal := hn.count (some raw)
            simpa [Counters.count, henv] using hbal
          · intro q hq
            exact hframe q (hq _ List.mem_cons_self)
          · intro _
            simp [AnyStore.tally, hraw, Counters.count, henv]

/-- The inner loop, whatever fails. -/
theorem wp_migrateFormations (o : String) (fs : List FormationConfig) (n : Counters)
    (s : AnyStore × ℕ) :
    (migrateFormations A P false draws o fs n).Wp (faulty AnyStore.exec f) s
      (fun n' s' => Visited S (fs.map fun φ => (o, φ.appId)) s.1 s'.1 n n')
      fun s' => Rewritten S s.1 s'.1 := by
  induction fs generalizing n s with
  | nil =>
    simp only [migrateFormations, Prog.wp_pure]
    exact .nil s.1 n
  | cons φ fs ih =>
    simp only [migrateFormations, Prog.wp_bind]
    refine (wp_migrateRecord hS f o φ.appId n s).mono ?_ fun _ h => h
    intro n₁ s₁ h₁
    exact (ih n₁ s₁).mono (fun _ _ h₂ => h₁.append h₂) fun _ h₂ => h₁.rewritten.trans h₂

/-- The outer loop, whatever fails. -/
theorem wp_migrateOrgs (os : List Organization) (n : Counters) (s : AnyStore × ℕ) :
    (migrateOrgs A P false draws os n).Wp (faulty AnyStore.exec f) s
      (fun n' s' => Visited S (os.flatMap fun x => s.1.records x.orgId) s.1 s'.1 n n')
      fun s' => Rewritten S s.1 s'.1 := by
  induction os generalizing n s with
  | nil =>
    simp only [migrateOrgs, Prog.wp_pure]
    exact .nil s.1 n
  | cons x os ih =>
    simp only [migrateOrgs, Prog.wp_bind]
    refine wp_store_faulty (.listFormations x.orgId) ?_ ?_
    · intro _
      rw [AnyStore.exec_listFormations]
      exact ⟨.refl S s.1, .refl S s.1⟩
    · intro k r hr
      rw [AnyStore.exec_listFormations] at hr ⊢
      obtain rfl := Except.ok.inj hr
      refine (wp_migrateFormations hS f x.orgId _ n _).mono ?_ fun _ h => h
      intro n₁ s₁ h₁
      -- the formations of the others are listed as they were at the start
      have hrecords : s₁.1.records = s.1.records := by
        funext o
        rw [AnyStore.records, AnyStore.records, h₁.rewritten.formationList_eq]
      refine (ih n₁ s₁).mono ?_ fun _ h₂ => h₁.rewritten.trans h₂
      intro n₂ s₂ h₂
      rw [hrecords] at h₂
      exact h₁.append h₂

end Loops

/-- **However it ends, the command has rewritten the store**; if it succeeds, it has
visited every record it lists. -/
theorem wp_migrateKeys {env : KeyEnv} {config : KeyConfig} {P : KeyProvider}
    (hbuild : buildKeyProvider env config = .ok (P, true)) {S : Bytes → Bytes → Prop}
    (hS : ∀ {d o a raw e}, sealVerified env.aead P d o a raw = .ok e → S raw e)
    (draws : ℕ → MigrateDraw) (f : Faults Error) (s : AnyStore × ℕ) :
    (migrateKeys env config draws false).Wp (faulty AnyStore.exec f) s
      (fun n s' => Visited S s.1.listing s.1 s'.1 ⟨0, 0, 0, 0⟩ n)
      fun s' => Rewritten S s.1 s'.1 := by
  simp only [migrateKeys, Prog.wp_bind, Prog.wp_ofExcept, Prog.wp_ensure, hbuild]
  refine ⟨?_, by simp⟩
  rintro _ ⟨⟩
  refine ⟨?_, fun h => absurd rfl h⟩
  intro _
  refine wp_store_faulty .listOrgs ?_ ?_
  · intro _
    rw [AnyStore.exec_listOrgs]
    exact ⟨.refl S s.1, .refl S s.1⟩
  · intro k r hr
    rw [AnyStore.exec_listOrgs] at hr ⊢
    obtain rfl := Except.ok.inj hr
    exact wp_migrateOrgs hS f _ _ _

/-! ### Runs that only read -/

section Reading

variable {A : Aead} {P : KeyProvider} {dryRun : Bool} {draws : ℕ → MigrateDraw} {st : AnyStore}

/-- A record is only read in a dry run, and if it has the header. -/
theorem meets_migrateRecord_read {o a : String} (h : dryRun = true ∨ st.Covered (o, a))
    (n : Counters) :
    (migrateRecord A P dryRun draws o a n).Meets st.readSpec
      fun n' => n' = n.count (st.core.genesis o a) := by
  simp only [migrateRecord, Prog.meets_bind, meets_store]
  refine ⟨rfl, ?_⟩
  intro r hr
  obtain rfl : st.core.genesis o a = r := by
    change (AnyStore.exec (.getGenesis o a) st).1 = .ok r at hr
    rw [AnyStore.exec_getGenesis] at hr
    exact Except.ok.inj hr
  cases hraw : st.core.genesis o a with
  | none => exact (Prog.meets_pure _).mpr rfl
  | some raw =>
    by_cases henv : isEnvelope raw = true
    · simp [henv, Counters.count]
    · obtain rfl | hcov := h
      · simp [henv, Counters.count]
      · exact absurd (hcov raw hraw) henv

theorem meets_migrateFormations_read {o : String} {fs : List FormationConfig}
    (h : dryRun = true ∨ ∀ φ ∈ fs, st.Covered (o, φ.appId)) (n : Counters) :
    (migrateFormations A P dryRun draws o fs n).Meets st.readSpec
      fun n' => n' = st.tally (fs.map fun φ => (o, φ.appId)) n := by
  induction fs generalizing n with
  | nil => simp [migrateFormations, AnyStore.tally]
  | cons φ fs ih =>
    simp only [migrateFormations, Prog.meets_bind]
    refine (meets_migrateRecord_read (h.imp_right fun h => h φ List.mem_cons_self) n).mono ?_
    rintro _ rfl
    exact ih (h.imp_right fun h ψ hψ => h ψ (List.mem_cons_of_mem _ hψ)) _

theorem meets_migrateOrgs_read {os : List Organization}
    (h : dryRun = true ∨ ∀ x ∈ os, ∀ p ∈ st.records x.orgId, st.Covered p) (n : Counters) :
    (migrateOrgs A P dryRun draws os n).Meets st.readSpec
      fun n' => n' = st.tally (os.flatMap fun x => st.records x.orgId) n := by
  induction os generalizing n with
  | nil => simp [migrateOrgs, AnyStore.tally]
  | cons x os ih =>
    simp only [migrateOrgs, Prog.meets_bind, meets_store]
    refine ⟨rfl, ?_⟩
    intro r hr
    obtain rfl : st.formationList x.orgId = r := by
      change (AnyStore.exec (.listFormations x.orgId) st).1 = .ok r at hr
      rw [AnyStore.exec_listFormations] at hr
      exact Except.ok.inj hr
    have hx : dryRun = true ∨ ∀ φ ∈ st.formationList x.orgId, st.Covered (x.orgId, φ.appId) :=
      h.imp_right fun h φ hφ => h x List.mem_cons_self _ (List.mem_map.mpr ⟨φ, hφ, rfl⟩)
    apply (meets_migrateFormations_read hx n).mono
    rintro _ rfl
    refine (ih (h.imp_right fun h y hy => h y (List.mem_cons_of_mem _ hy)) _).mono ?_
    rintro _ rfl
    rw [AnyStore.tally, AnyStore.tally, AnyStore.tally, List.flatMap_cons, List.foldl_append]
    rfl

/-- **A dry run only reads**, and so does any run over records that have the header. -/
theorem meets_migrateKeys_read (env : KeyEnv) (config : KeyConfig) (draws : ℕ → MigrateDraw)
    (dryRun : Bool) (st : AnyStore) (h : dryRun = true ∨ ∀ p ∈ st.listing, st.Covered p) :
    (migrateKeys env config draws dryRun).Meets st.readSpec
      fun n => n = st.tally st.listing ⟨0, 0, 0, 0⟩ := by
  simp only [migrateKeys, Prog.meets_bind, Prog.meets_ofExcept, Prog.meets_ensure, meets_store]
  refine fun _ _ _ => ⟨rfl, ?_⟩
  intro r hr
  obtain rfl : st.orgList = r := by
    change (AnyStore.exec .listOrgs st).1 = .ok r at hr
    rw [AnyStore.exec_listOrgs] at hr
    exact Except.ok.inj hr
  refine meets_migrateOrgs_read (h.imp_right fun h x hx p hp => h p ?_) _
  exact List.mem_flatMap.mpr ⟨x, hx, hp⟩

theorem run_migrateFormations_dry (o : String) (fs : List FormationConfig) (n : Counters) :
    (migrateFormations A P true draws o fs n).run AnyStore.exec st =
      (.ok (st.tally (fs.map fun φ => (o, φ.appId)) n), st) := by
  induction fs generalizing n with
  | nil => rfl
  | cons φ fs ih =>
    have hrecord : (migrateRecord A P true draws o φ.appId n).run AnyStore.exec st =
        (.ok (n.count (st.core.genesis o φ.appId)), st) := by
      simp only [migrateRecord, run_store_bind, AnyStore.exec_getGenesis, Prog.next_ok]
      cases hraw : st.core.genesis o φ.appId with
      | none => rfl
      | some raw =>
        by_cases henv : isEnvelope raw = true
        · simp [henv, Counters.count]
        · simp [henv, Counters.count]
    rw [migrateFormations, Prog.run_bind, hrecord, Prog.next_ok, ih]
    rfl

theorem run_migrateOrgs_dry (os : List Organization) (n : Counters) :
    (migrateOrgs A P true draws os n).run AnyStore.exec st =
      (.ok (st.tally (os.flatMap fun x => st.records x.orgId) n), st) := by
  induction os generalizing n with
  | nil => rfl
  | cons x os ih =>
    simp only [migrateOrgs, run_store_bind, AnyStore.exec_listFormations, Prog.next_ok]
    rw [Prog.run_bind, run_migrateFormations_dry, Prog.next_ok, ih, AnyStore.tally, AnyStore.tally,
      AnyStore.tally, List.flatMap_cons, List.foldl_append]
    rfl

/-- A dry run in which no call fails succeeds. -/
theorem run_migrateKeys_dry {env : KeyEnv} {config : KeyConfig} {P : KeyProvider}
    (hbuild : buildKeyProvider env config = .ok (P, true)) (draws : ℕ → MigrateDraw)
    (st : AnyStore) :
    (migrateKeys env config draws true).run AnyStore.exec st =
      (.ok (st.tally st.listing ⟨0, 0, 0, 0⟩), st) := by
  simp only [migrateKeys, hbuild, Prog.run_ofExcept_bind, Prog.next_ok, Prog.run_ensure_bind,
    if_true, run_store_bind, AnyStore.exec_listOrgs]
  exact run_migrateOrgs_dry _ _

end Reading

end PeatGateway
