import Mathlib.Data.List.Induction
import Mathlib.Data.List.Nodup
import PeatGateway.Lib.Pool
import PeatGateway.Lib.Reply

/-!
# Who is behind a record

Programs that share a store add records to it, and are told of the records that others have added.
Who reads a list wants to know that each record in it is the work of a program of its own, and
that this program ends as the record says.

A program answers for the record it adds: what it does afterwards adds no other, and ends in
agreement with the record.  That is a condition on the program alone.  In a pool each record
then has an owner, and owners are different.  What has been traced to owners once stays traced,
however the schedule goes on, so a list that was read remains good until it is shown.

## Main definitions

* `Ledger` — the records of a store, what adds them and what lists them.
* `Ledger.Accounts` — a program answers for the records it adds.
* `Ledger.Traced`, `Ledger.Listed` — each record has an owner in the pool.

## Main results

* `Ledger.accounts_bind`, `Ledger.accounts_call` — the rules for a program that adds a record.
* `Ledger.Traced.add` — a new record has a new owner.
* `Ledger.acts_traced` — **what a program is told of has been traced to owners**, whatever the
  schedule.
-/

namespace Effect

variable {S : Sig} {ε σ α β F : Type}

/-- A program of the pool goes on meeting a specification that is sound. -/
theorem Pool.act_meets {h : Handler S ε σ} {Ψ : Spec S} {I : σ → Prop} (hΨ : Ψ.Sound h I)
    {P : Pool S ε σ α} (hI : I P.store) {j : ℕ} {p : Prog S ε α} {Q : α → Prop}
    (hj : P.threads[j]? = some p) (hp : p.Meets Ψ Q) (a : Act S ε α) :
    ∃ p', (P.act h a).threads[j]? = some p' ∧ p'.Meets Ψ Q := by
  cases a with
  | start q =>
    refine ⟨p, ?_, hp⟩
    obtain ⟨hlt, -⟩ := List.getElem?_eq_some_iff.mp hj
    show (P.threads ++ [q])[j]? = some p
    rw [List.getElem?_append_left hlt, hj]
  | step i =>
    rcases Pool.act_step_cases h P i with heq | ⟨c, k, hi, heq⟩
    · rw [heq]
      exact ⟨p, hj, hp⟩
    · rw [heq]
      by_cases hij : i = j
      · subst hij
        obtain rfl := Option.some.inj (hi.symm.trans hj)
        refine ⟨_, ?_, (hp.step hΨ hI).2⟩
        obtain ⟨hlt, -⟩ := List.getElem?_eq_some_iff.mp hj
        exact List.getElem?_set_self hlt
      · exact ⟨p, by rw [List.getElem?_set_ne hij, hj], hp⟩

/-- The programs a schedule starts, in order. -/
def Act.starts (l : List (Act S ε α)) : List (Prog S ε α) :=
  l.filterMap fun
    | .start p => some p
    | .step _ => none

/-- The threads of a pool are the programs that were started. -/
theorem Pool.length_acts (h : Handler S ε σ) (s : σ) (l : List (Act S ε α)) :
    (Pool.acts h ⟨s, []⟩ l).threads.length = (Act.starts l).length := by
  induction l using List.reverseRecOn with
  | nil => rfl
  | append_singleton l a ih =>
    rw [Pool.acts_append, Pool.acts_cons, Pool.acts_nil, Act.starts, List.filterMap_append,
      List.length_append, ← Act.starts, ← ih]
    cases a with
    | start p => simp
    | step i =>
      rcases Pool.act_step_cases h (Pool.acts h ⟨s, []⟩ l) i with heq | ⟨c, k, -, heq⟩
      · rw [heq]
        rfl
      · rw [heq]
        simp

/-! ### Records -/

/-- The records of a store, as far as the calls are concerned. -/
structure Ledger (S : Sig) (σ F : Type) where
  /-- The store holds the record. -/
  holds : σ → F → Prop
  /-- The record a call adds. -/
  adds : S.Call → Option F
  /-- The records an answer lists. -/
  lists : (c : S.Call) → S.Res c → List F

namespace Ledger

variable (L : Ledger S σ F)

/-- Records get into the store only by being added, and lists are of different records in the
store. -/
structure Sound (h : Handler S ε σ) (I : σ → Prop) : Prop where
  holds : ∀ c s, I s → ∀ f, L.holds (h c s).2 f → L.holds s f ∨ L.adds c = some f
  lists : ∀ c s, I s → ∀ x, (h c s).1 = .ok x →
    (L.lists c x).Nodup ∧ ∀ f ∈ L.lists c x, L.holds s f

/-- The calls that add nothing. -/
def quiet (Φ : Spec S) : Spec S := ⟨fun c => Φ.pre c ∧ L.adds c = none, Φ.post⟩

/-- Calls that are answered lists in `K` only. -/
def telling (Φ : Spec S) (K : List F → Prop) : Spec S :=
  ⟨fun _ => True, fun c x => Φ.post c x ∧ K (L.lists c x)⟩

/-- The program answers for every record it adds: `G` holds of the record, and afterwards the
program adds no other and ends in `V`. -/
def Accounts (Φ : Spec S) (G : F → Prop) (V : F → α → Prop) : Prog S ε α → Prop
  | .done _ => True
  | .call c k => Φ.pre c ∧
    (∀ f, L.adds c = some f → G f ∧ ∀ r, (k r).Meets (L.quiet Φ) (V f)) ∧
    (∀ e, Accounts Φ G V (k (.error e))) ∧ ∀ x, Φ.post c x → Accounts Φ G V (k (.ok x))

variable {L} {Φ : Spec S}

theorem quiet_sound {h : Handler S ε σ} {I : σ → Prop} (hΦ : Φ.Sound h I) :
    (L.quiet Φ).Sound h I := fun c s hs hpre => hΦ c s hs hpre.1

section Accounts

variable {G : F → Prop} {V : F → β → Prop}

/-- A program that adds nothing, and what follows it. -/
theorem accounts_bind {p : Prog S ε α} {f : α → Prog S ε β}
    (h : p.Meets (L.quiet Φ) fun a => L.Accounts Φ G V (f a)) : L.Accounts Φ G V (p >>= f) := by
  induction p with
  | done r =>
    cases r with
    | error e => trivial
    | ok a => exact (Prog.meets_ok a).mp h
  | call c k ih =>
    obtain ⟨⟨hpre, hnone⟩, herr, hok⟩ := (Prog.meets_call c k).mp h
    refine ⟨hpre, ?_, fun e => ih _ (herr e), fun x hx => ih _ (hok x hx)⟩
    intro f hf
    rw [hnone] at hf
    cases hf

/-- A program that adds nothing. -/
theorem accounts_of_quiet {p : Prog S ε β} {Q : β → Prop} (h : p.Meets (L.quiet Φ) Q) :
    L.Accounts Φ G V p := by
  induction p with
  | done r => trivial
  | call c k ih =>
    obtain ⟨⟨hpre, hnone⟩, herr, hok⟩ := (Prog.meets_call c k).mp h
    refine ⟨hpre, ?_, fun e => ih _ (herr e), fun x hx => ih _ (hok x hx)⟩
    intro f hf
    rw [hnone] at hf
    cases hf

/-- A program that is about to add a record. -/
theorem accounts_call {c : S.Call} {k : Except ε (S.Res c) → Prog S ε β} {f : F}
    (hpre : Φ.pre c) (hf : L.adds c = some f) (hG : G f)
    (hk : ∀ r, (k r).Meets (L.quiet Φ) (V f)) : L.Accounts Φ G V (.call c k) := by
  refine ⟨hpre, ?_, fun e => accounts_of_quiet (hk _), fun x _ => accounts_of_quiet (hk _)⟩
  intro f' hf'
  obtain rfl := Option.some.inj (hf.symm.trans hf')
  exact ⟨hG, hk⟩

theorem Accounts.mono {G' : F → Prop} {p : Prog S ε β} (h : L.Accounts Φ G V p)
    (hG : ∀ f, G f → G' f) : L.Accounts Φ G' V p := by
  induction p with
  | done r => trivial
  | call c k ih =>
    obtain ⟨hpre, hadds, herr, hok⟩ := h
    exact ⟨hpre, fun f hf => ⟨hG f (hadds f hf).1, (hadds f hf).2⟩, fun e => ih _ (herr e),
      fun x hx => ih _ (hok x hx)⟩

/-- A program whose value is made into something else. -/
theorem accounts_map {p : Prog S ε α} {g : α → β}
    (h : L.Accounts Φ G (fun f a => V f (g a)) p) : L.Accounts Φ G V (p.map g) := by
  induction p with
  | done r => cases r <;> trivial
  | call c k ih =>
    obtain ⟨hpre, hadds, herr, hok⟩ := h
    refine ⟨hpre, ?_, fun e => ih _ (herr e), fun x hx => ih _ (hok x hx)⟩
    intro f hf
    obtain ⟨hG, hk⟩ := hadds f hf
    exact ⟨hG, fun r => (Prog.meets_map g (k r) _).mpr (hk r)⟩

/-- A handler that adds nothing, and what follows its answer. -/
theorem accounts_reply {ρ : Type} {V : F → Except ρ β → Prop} {x : Reply S ε ρ α}
    {f : α → Reply S ε ρ β} (h : Reply.Meets (L.quiet Φ) x fun a => L.Accounts Φ G V (f a).run) :
    L.Accounts Φ G V (x >>= f).run := by
  refine accounts_bind (p := x.run) ((Reply.meets_run h).mono ?_)
  intro r hr
  cases r with
  | error e => trivial
  | ok a => exact hr a rfl

end Accounts

/-! ### Owners -/

section Traced

variable (L) (Φ) (old : F → Prop) (G : ℕ → F → Prop) (V : F → α → Prop)

/-- Each of the records but the old ones has an owner in the pool, which answers for it, and no
two of them have the same. -/
def Traced (P : Pool S ε σ α) (E : F → Prop) : Prop :=
  ∃ owner : F → ℕ,
    (∀ f, E f → ¬ old f →
      G (owner f) f ∧ ∃ p, P.threads[owner f]? = some p ∧ p.Meets (L.quiet Φ) (V f)) ∧
    ∀ f f', E f → ¬ old f → E f' → ¬ old f' → owner f = owner f' → f = f'

/-- A list of different records that have been traced. -/
def Listed (P : Pool S ε σ α) (l : List F) : Prop := l.Nodup ∧ L.Traced Φ old G V P (· ∈ l)

variable {L Φ old G V} {h : Handler S ε σ} {I : σ → Prop} {P : Pool S ε σ α}

theorem Traced.mono {E E' : F → Prop} (hE : L.Traced Φ old G V P E) (hsub : ∀ f, E' f → E f) :
    L.Traced Φ old G V P E' := by
  obtain ⟨owner, howner, hinj⟩ := hE
  exact ⟨owner, fun f hf => howner f (hsub f hf),
    fun f f' hf hnew hf' => hinj f f' (hsub f hf) hnew (hsub f' hf')⟩

/-- Old records need no owner. -/
theorem traced_old : L.Traced Φ old G V P old :=
  ⟨fun _ => 0, fun _ hf hnew => absurd hf hnew, fun _ _ hf hnew => absurd hf hnew⟩

section Act

variable (hΦ : Φ.Sound h I) (hI : I P.store)

include hΦ hI

/-- What has been traced stays traced. -/
theorem Traced.act {E : F → Prop} (hE : L.Traced Φ old G V P E) (a : Act S ε α) :
    L.Traced Φ old G V (P.act h a) E := by
  obtain ⟨owner, howner, hinj⟩ := hE
  refine ⟨owner, ?_, hinj⟩
  intro f hf hnew
  obtain ⟨hG, p, hp, hmeets⟩ := howner f hf hnew
  exact ⟨hG, Pool.act_meets (quiet_sound hΦ) hI hp hmeets a⟩

theorem Listed.act {l : List F} (hl : L.Listed Φ old G V P l) (a : Act S ε α) :
    L.Listed Φ old G V (P.act h a) l := ⟨hl.1, hl.2.act hΦ hI a⟩

/-- A record that is added is traced to the program that adds it. -/
theorem Traced.add {E : F → Prop} (hE : L.Traced Φ old G V P E) {i : ℕ} {c : S.Call}
    {k : Except ε (S.Res c) → Prog S ε α} (hi : P.threads[i]? = some (.call c k)) {f : F}
    (hf : L.adds c = some f) (hG : G i f) (hk : ∀ r, (k r).Meets (L.quiet Φ) (V f)) :
    L.Traced Φ old G V (P.act h (.step i)) fun g => E g ∨ g = f := by
  obtain ⟨owner, howner, hinj⟩ := hE
  -- the other owners add nothing, so the program that does is none of them
  have hother : ∀ g, E g → ¬ old g → owner g ≠ i := by
    intro g hg hnew heq
    obtain ⟨-, p, hp, hmeets⟩ := howner g hg hnew
    rw [heq, hi] at hp
    obtain rfl := Option.some.inj hp
    have hnone : L.adds c = none := ((Prog.meets_call c k).mp hmeets).1.2
    rw [hf] at hnone
    cases hnone
  classical
  refine ⟨fun g => if g = f then i else owner g, ?_, ?_⟩
  · intro g hg hnew
    by_cases hgf : g = f
    · subst hgf
      simp only [if_true]
      refine ⟨hG, k (h c P.store).1, ?_, hk _⟩
      obtain ⟨hlt, -⟩ := List.getElem?_eq_some_iff.mp hi
      rw [Pool.act_step_call hi]
      exact List.getElem?_set_self hlt
    · simp only [if_neg hgf]
      obtain ⟨hGg, p, hp, hmeets⟩ := howner g (hg.resolve_right hgf) hnew
      exact ⟨hGg, Pool.act_meets (quiet_sound hΦ) hI hp hmeets _⟩
  · intro g g' hg hnew hg' hnew' heq
    dsimp only at heq
    by_cases hgf : g = f <;> by_cases hgf' : g' = f
    · rw [hgf, hgf']
    · rw [if_pos hgf, if_neg hgf'] at heq
      exact absurd heq.symm (hother g' (hg'.resolve_right hgf') hnew')
    · rw [if_neg hgf, if_pos hgf'] at heq
      exact absurd heq (hother g (hg.resolve_right hgf) hnew)
    · rw [if_neg hgf, if_neg hgf'] at heq
      exact hinj g g' (hg.resolve_right hgf) hnew (hg'.resolve_right hgf') hnew' heq

end Act

/-- The owner of a record ends as the record says. -/
theorem Traced.returned {E : F → Prop} (hE : L.Traced Φ old G V P E) :
    ∃ owner : F → ℕ,
      (∀ f, E f → ¬ old f → G (owner f) f ∧
        ∀ a, (P.threads[owner f]?.bind Prog.returned) = some (.ok a) → V f a) ∧
      ∀ f f', E f → ¬ old f → E f' → ¬ old f' → owner f = owner f' → f = f' := by
  obtain ⟨owner, howner, hinj⟩ := hE
  refine ⟨owner, ?_, hinj⟩
  intro f hf hnew
  obtain ⟨hG, p, hp, hmeets⟩ := howner f hf hnew
  refine ⟨hG, ?_⟩
  intro a ha
  rw [hp, Option.bind_some] at ha
  cases p with
  | call c k => cases ha
  | done r =>
    obtain rfl := Option.some.inj ha
    exact (Prog.meets_ok a).mp hmeets

end Traced

/-! ### Schedules -/

section Schedules

variable (L) (Φ) (old : F → Prop) (G : ℕ → F → Prop) (V : F → α → Prop)
  (Q : ℕ → (List F → Prop) → α → Prop)

/-- The program at position `i` answers for what it adds, and ends in `Q` if it is told of lists
in `K` only, for every `K` that satisfies `M`. -/
structure Fair (M : (List F → Prop) → Prop) (i : ℕ) (p : Prog S ε α) : Prop where
  accounts : L.Accounts Φ (G i) V p
  ends : ∀ K, M K → p.Meets (L.telling Φ K) (Q i K)

/-- The invariant of a schedule: what is in the store has been traced, and each program has been
told of nothing that has not. -/
structure Kept (I : σ → Prop) (P : Pool S ε σ α) : Prop where
  store : I P.store
  traced : L.Traced Φ old G V P (L.holds P.store)
  fair : ∀ i p, P.threads[i]? = some p →
    L.Fair Φ G V Q (fun K => ∀ l, L.Listed Φ old G V P l → K l) i p

variable {L Φ old G V Q} {h : Handler S ε σ} {I : σ → Prop}

theorem Fair.mono {M N : (List F → Prop) → Prop} {i : ℕ} {p : Prog S ε α}
    (hp : L.Fair Φ G V Q M i p) (hMN : ∀ K, N K → M K) : L.Fair Φ G V Q N i p :=
  ⟨hp.accounts, fun K hK => hp.ends K (hMN K hK)⟩

/-- How a program has returned. -/
theorem Kept.returned {P : Pool S ε σ α} (hP : L.Kept Φ old G V Q I P) {i : ℕ} {a : α}
    (ha : (P.threads[i]?.bind Prog.returned) = some (.ok a)) :
    Q i (L.Listed Φ old G V P) a := by
  obtain ⟨p, hp, hreturned⟩ := Option.bind_eq_some_iff.mp ha
  cases p with
  | call c k => cases hreturned
  | done r =>
    obtain rfl := Option.some.inj hreturned
    exact (Prog.meets_ok a).mp ((hP.fair i _ hp).ends _ fun _ hl => hl)

variable (hL : L.Sound h I) (hΦ : Φ.Sound h I)

include hL hΦ

/-- **One call keeps the invariant.** -/
theorem Kept.step {P : Pool S ε σ α} (hP : L.Kept Φ old G V Q I P) (i : ℕ) :
    L.Kept Φ old G V Q I (P.act h (.step i)) := by
  have hlater : ∀ K : List F → Prop, (∀ l, L.Listed Φ old G V (P.act h (.step i)) l → K l) →
      ∀ l, L.Listed Φ old G V P l → K l := fun K hK l hl => hK l (hl.act hΦ hP.store _)
  rcases Pool.act_step_cases h P i with heq | ⟨c, k, hi, heq⟩
  · rwa [heq]
  obtain ⟨⟨hpre, hadds, herr, hok⟩, hends⟩ := hP.fair i _ hi
  obtain ⟨hI, hpost⟩ := hΦ c P.store hP.store hpre
  have hstore : (P.act h (.step i)).store = (h c P.store).2 := by rw [heq]
  have hholds := hL.holds c P.store hP.store
  refine ⟨by rw [hstore]; exact hI, ?_, ?_⟩
  · rw [hstore]
    cases hf : L.adds c with
    | none =>
      refine (hP.traced.act hΦ hP.store (.step i)).mono ?_
      intro f hheld
      rcases hholds f hheld with hbefore | hadded
      · exact hbefore
      · rw [hf] at hadded
        cases hadded
    | some f =>
      obtain ⟨hG, hk⟩ := hadds f hf
      refine (hP.traced.add hΦ hP.store hi hf hG hk).mono ?_
      intro g hheld
      rcases hholds g hheld with hbefore | hadded
      · exact Or.inl hbefore
      · exact Or.inr (Option.some.inj (hadded.symm.trans hf))
  · intro j p hj
    rw [heq] at hj
    by_cases hij : i = j
    · subst hij
      obtain ⟨hlt, -⟩ := List.getElem?_eq_some_iff.mp hi
      rw [List.getElem?_set_self hlt] at hj
      obtain rfl := Option.some.inj hj
      constructor
      · cases hr : (h c P.store).1 with
        | error e => exact herr e
        | ok x => exact hok x (hpost x hr)
      · intro K hK
        obtain ⟨-, herr, hok⟩ := (Prog.meets_call c k).mp (hends K (hlater K hK))
        cases hr : (h c P.store).1 with
        | error e => exact herr e
        | ok x =>
          -- what is listed is in the store, and so has been traced
          obtain ⟨hnodup, hheld⟩ := hL.lists c P.store hP.store x hr
          exact hok x ⟨hpost x hr, hlater K hK _ ⟨hnodup, hP.traced.mono hheld⟩⟩
    · rw [List.getElem?_set_ne hij] at hj
      exact (hP.fair j p hj).mono hlater

/-- **What a program is told of has been traced to owners.**  Whatever the schedule: a program that
has returned did so as if it had been told of nothing but lists of different records, each of which
was there from the start or has an owner of its own that answers for it. -/
theorem acts_traced {s : σ} (hs : I s) {l : List (Act S ε α)}
    (hl : ∀ i p, (Act.starts l)[i]? = some p → L.Fair Φ G V Q (fun _ => True) i p) :
    L.Kept Φ (L.holds s) G V Q I (Pool.acts h ⟨s, []⟩ l) := by
  induction l using List.reverseRecOn with
  | nil =>
    refine ⟨hs, traced_old, ?_⟩
    intro i p hi
    cases hi
  | append_singleton l a ih =>
    have hstarts : Act.starts (l ++ [a]) = Act.starts l ++ Act.starts [a] :=
      List.filterMap_append
    have hbefore : L.Kept Φ (L.holds s) G V Q I (Pool.acts h ⟨s, []⟩ l) := by
      apply ih
      intro i p hi
      obtain ⟨hlt, -⟩ := List.getElem?_eq_some_iff.mp hi
      apply hl i p
      rw [hstarts, List.getElem?_append_left hlt, hi]
    rw [Pool.acts_append, Pool.acts_cons, Pool.acts_nil]
    cases a with
    | step i => exact hbefore.step hL hΦ i
    | start q =>
      refine ⟨hbefore.store, hbefore.traced.act hΦ hbefore.store (.start q), ?_⟩
      intro i p hi
      change ((Pool.acts h ⟨s, []⟩ l).threads ++ [q])[i]? = some p at hi
      by_cases hlt : i < (Pool.acts h ⟨s, []⟩ l).threads.length
      · rw [List.getElem?_append_left hlt] at hi
        refine (hbefore.fair i p hi).mono ?_
        exact fun K hK l' hl' => hK l' (hl'.act hΦ hbefore.store _)
      · have hge := Nat.le_of_not_lt hlt
        rw [List.getElem?_append_right hge, Pool.length_acts h s l] at hi
        rw [Pool.length_acts h s l] at hge
        have hq : (Act.starts (l ++ [.start q]))[i]? = some p := by
          rw [hstarts, List.getElem?_append_right hge]
          exact hi
        exact (hl i p hq).mono fun _ _ => trivial

end Schedules

end Ledger
end Effect
