import Mathlib.Data.List.Forall2
import PeatGateway.Lib.Pool
import PeatGateway.Lib.Reply

/-!
# Two runs side by side

A statement about two runs of programs, of what differs between them and what does not, goes by
a relation between the programs: they make related calls, and as long as these are given related
answers, they go on being related.  What is proved call by call then holds of whole schedules.
The two runs may be over different handlers, and states of different types.

A program may also run against one that has returned.  It is then *unseen*: its calls keep the
states related although nothing happens on the other side.

## Main definitions

* `Pairing` — which calls are related, and which answers.
* `Prog.Paired` — programs that go on in lockstep.
* `Pairing.Sound`, `Spec.Unseen` — related calls keep states related, and so do unseen ones.
* `Pool.Schedules` — the moves of two schedules.
* `Pairing.same` — the same calls and the same answers.
* `Reply.Paired` — handlers that go on in lockstep.

## Main results

* `Prog.Paired.bind` — the rule for sequencing.
* `Prog.Paired.run` — **runs of related programs end alike**.
* `Pool.acts_paired` — **schedules of related programs lead to related states**, and their
  programs stay related.
* `Pool.acts_same` — **handlers that answer related states alike are told apart by no schedule**.
-/

namespace Effect

variable {S : Sig} {ε σ τ α α' β β' : Type}

/-- Calls that are made side by side, and the answers that may be relied on. -/
structure Pairing (S : Sig) (ε : Type) where
  /-- The calls are related. -/
  call : S.Call → S.Call → Prop
  /-- The answers to two related calls are related. -/
  answer : (c c' : S.Call) → Except ε (S.Res c) → Except ε (S.Res c') → Prop

/-- Outcomes are related: both are values or both are errors. -/
inductive Outcomes (E : ε → ε → Prop) (V : α → α' → Prop) : Except ε α → Except ε α' → Prop
  | ok {a : α} {a' : α'} (h : V a a') : Outcomes E V (.ok a) (.ok a')
  | error {e e' : ε} (h : E e e') : Outcomes E V (.error e) (.error e')

theorem Outcomes.mono {E : ε → ε → Prop} {V W : α → α' → Prop} {r : Except ε α}
    {r' : Except ε α'} (h : Outcomes E V r r') (hVW : ∀ a a', V a a' → W a a') :
    Outcomes E W r r' := by
  cases h with
  | ok h => exact .ok (hVW _ _ h)
  | error h => exact .error h

/-- Equal outcomes. -/
theorem outcomes_eq_iff {r r' : Except ε α} : Outcomes Eq Eq r r' ↔ r = r' := by
  constructor
  · intro h
    cases h with
    | ok h => rw [h]
    | error h => rw [h]
  · rintro rfl
    cases r with
    | ok a => exact .ok rfl
    | error e => exact .error rfl

theorem eq_of_rel_outcomes {o o' : Option (Except ε α)} (h : Option.Rel (Outcomes Eq Eq) o o') :
    o = o' := by
  cases h with
  | none => rfl
  | some h => rw [outcomes_eq_iff.mp h]

namespace Prog

/-- The programs make related calls as long as their answers are related, and what they return
is related. -/
inductive Paired (Φ : Pairing S ε) (E : ε → ε → Prop) {α α' : Type} (V : α → α' → Prop) :
    Prog S ε α → Prog S ε α' → Prop
  | done {r : Except ε α} {r' : Except ε α'} (h : Outcomes E V r r') :
    Paired Φ E V (.done r) (.done r')
  | call {c c' : S.Call} {k : Except ε (S.Res c) → Prog S ε α}
    {k' : Except ε (S.Res c') → Prog S ε α'} (hc : Φ.call c c')
    (hk : ∀ r r', Φ.answer c c' r r' → Paired Φ E V (k r) (k' r')) :
    Paired Φ E V (.call c k) (.call c' k')

section Paired

variable {Φ : Pairing S ε} {E : ε → ε → Prop} {V : α → α' → Prop} {W : β → β' → Prop}

theorem Paired.ok {a : α} {a' : α'} (h : V a a') :
    Paired Φ E V (.done (.ok a)) (.done (.ok a')) := .done (.ok h)

theorem Paired.error {e e' : ε} (h : E e e') :
    Paired Φ E V (.done (.error e)) (.done (.error e')) := .done (.error h)

/-- **The rule for sequencing.** -/
theorem Paired.bind {p : Prog S ε α} {p' : Prog S ε α'} {f : α → Prog S ε β}
    {f' : α' → Prog S ε β'} (hp : Paired Φ E V p p')
    (hf : ∀ a a', V a a' → Paired Φ E W (f a) (f' a')) :
    Paired Φ E W (p >>= f) (p' >>= f') := by
  induction hp with
  | done h =>
    cases h with
    | ok h => exact hf _ _ h
    | error h => exact .error h
  | call hc _ ih => exact .call hc ih

theorem Paired.mono {V' : α → α' → Prop} {p : Prog S ε α} {p' : Prog S ε α'}
    (hp : Paired Φ E V p p') (hV : ∀ a a', V a a' → V' a a') : Paired Φ E V' p p' := by
  induction hp with
  | done h => exact .done (h.mono hV)
  | call hc _ ih => exact .call hc ih

theorem Paired.map {p : Prog S ε α} {p' : Prog S ε α'} {f : α → β} {f' : α' → β'}
    (hp : Paired Φ E V p p') (hf : ∀ a a', V a a' → W (f a) (f' a')) :
    Paired Φ E W (p.map f) (p'.map f') :=
  hp.bind fun a a' h => .ok (hf a a' h)

/-- Looking at the outcome makes no other calls, and leaves no errors. -/
theorem Paired.outcome {E' : ε → ε → Prop} {p : Prog S ε α} {p' : Prog S ε α'}
    (hp : Paired Φ E V p p') : Paired Φ E' (Outcomes E V) p.outcome p'.outcome := by
  induction hp with
  | done h => exact .ok h
  | call hc _ ih => exact .call hc ih

/-- One call on each side. -/
theorem Paired.perform {c c' : S.Call} {V : S.Res c → S.Res c' → Prop} (hc : Φ.call c c')
    (hanswer : ∀ r r', Φ.answer c c' r r' → Outcomes E V r r') :
    Paired Φ E V (Prog.perform c) (Prog.perform c') :=
  .call hc fun r r' h => .done (hanswer r r' h)

theorem paired_okOrElse {o : Option α} {o' : Option α'} {e : ε} (he : E e e)
    (h : Option.Rel V o o') : Paired Φ E V (Prog.okOrElse o e) (Prog.okOrElse o' e) := by
  cases h with
  | none => exact .error he
  | some h => exact .ok h

theorem paired_ofExcept {r : Except ε α} {r' : Except ε α'} (h : Outcomes E V r r') :
    Paired Φ E V (Prog.ofExcept r) (Prog.ofExcept r') := .done h

/-- A pairing that makes fewer demands of the calls and grants as much of their answers. -/
theorem Paired.weaken {Ψ : Pairing S ε} {p : Prog S ε α} {p' : Prog S ε α'}
    (hp : Paired Φ E V p p') (hΨ : ∀ c c', Φ.call c c' →
      Ψ.call c c' ∧ ∀ r r', Ψ.answer c c' r r' → Φ.answer c c' r r') : Paired Ψ E V p p' := by
  induction hp with
  | done h => exact .done h
  | call hc _ ih =>
    obtain ⟨hc', hanswer⟩ := hΨ _ _ hc
    exact .call hc' fun r r' h => ih r r' (hanswer r r' h)

end Paired

end Prog

/-! ### Handlers that answer or refuse -/

namespace Reply

variable {Φ : Pairing S ε} {E : ε → ε → Prop} {ρ : Type} {V : α → α' → Prop} {W : β → β' → Prop}

/-- The handlers make related calls, and they refuse alike or give related answers. -/
def Paired (Φ : Pairing S ε) (E : ε → ε → Prop) (V : α → α' → Prop) (x : Reply S ε ρ α)
    (x' : Reply S ε ρ α') : Prop :=
  Prog.Paired Φ E (Outcomes Eq V) x.run x'.run

theorem paired_pure {a : α} {a' : α'} (h : V a a') :
    Paired Φ E V (pure a : Reply S ε ρ α) (pure a') := .ok (.ok h)

theorem paired_refuse (e : ρ) : Paired Φ E V (refuse e : Reply S ε ρ α) (refuse e) :=
  .ok (.error rfl)

theorem paired_ofExcept {r : Except ρ α} {r' : Except ρ α'} (h : Outcomes Eq V r r') :
    Paired Φ E V (ofExcept r : Reply S ε ρ α) (ofExcept r') := .ok h

/-- **The rule for sequencing.** -/
theorem Paired.bind {x : Reply S ε ρ α} {x' : Reply S ε ρ α'} {f : α → Reply S ε ρ β}
    {f' : α' → Reply S ε ρ β'} (hx : Paired Φ E V x x')
    (hf : ∀ a a', V a a' → Paired Φ E W (f a) (f' a')) : Paired Φ E W (x >>= f) (x' >>= f') := by
  apply Prog.Paired.bind hx
  intro r r' h
  cases h with
  | ok h => exact hf _ _ h
  | error h => exact .ok (.error h)

theorem Paired.mono {V' : α → α' → Prop} {x : Reply S ε ρ α} {x' : Reply S ε ρ α'}
    (hx : Paired Φ E V x x') (hV : ∀ a a', V a a' → V' a a') : Paired Φ E V' x x' :=
  Prog.Paired.mono hx fun _ _ h => h.mono hV

theorem paired_orElse {p : Prog S ε α} {p' : Prog S ε α'} {f : ε → ρ}
    (hp : Prog.Paired Φ Eq V p p') : Paired Φ E V (orElse p f) (orElse p' f) := by
  refine Prog.Paired.map hp.outcome ?_
  intro r r' h
  cases h with
  | ok h => exact .ok h
  | error h => exact .error (congrArg f h)

theorem paired_okOrElse {o : Option α} {o' : Option α'} {e : ρ} (h : Option.Rel V o o') :
    Paired Φ E V (okOrElse o e) (okOrElse o' e) := by
  cases h with
  | none => exact paired_refuse e
  | some h => exact paired_pure h

end Reply

/-! ### Runs -/

/-- Related calls keep the states related, and their answers are related. -/
def Pairing.Sound (Φ : Pairing S ε) (h : Handler S ε σ) (g : Handler S ε τ) (R : σ → τ → Prop) :
    Prop :=
  ∀ c c' s t, R s t → Φ.call c c' → Φ.answer c c' (h c s).1 (g c' t).1 ∧ R (h c s).2 (g c' t).2

/-- A call that is made as it is allowed keeps the states related while nothing happens on the
other side, and its answer is as granted. -/
def Spec.Unseen (Ψ : Spec S) (h : Handler S ε σ) (R : σ → τ → Prop) : Prop :=
  ∀ c s t, R s t → Ψ.pre c → R (h c s).2 t ∧ ∀ x, (h c s).1 = .ok x → Ψ.post c x

/-- No call at all. -/
def Spec.nothing : Spec S := ⟨fun _ => False, fun _ _ => True⟩

theorem Spec.unseen_nothing (h : Handler S ε σ) (R : σ → τ → Prop) :
    Spec.nothing.Unseen h R := fun _ _ _ _ hpre => hpre.elim

/-- **Runs of related programs end alike.** -/
theorem Prog.Paired.run {Φ : Pairing S ε} {E : ε → ε → Prop} {V : α → α' → Prop}
    {h : Handler S ε σ} {g : Handler S ε τ} {R : σ → τ → Prop} (hΦ : Φ.Sound h g R)
    {p : Prog S ε α} {p' : Prog S ε α'} (hp : Paired Φ E V p p') {s : σ} {t : τ} (hR : R s t) :
    Outcomes E V (p.run h s).1 (p'.run g t).1 ∧ R (p.run h s).2 (p'.run g t).2 := by
  induction hp generalizing s t with
  | done hr => exact ⟨hr, hR⟩
  | call hc _ ih =>
    obtain ⟨hanswer, hR'⟩ := hΦ _ _ s t hR hc
    exact ih _ _ hanswer hR'

namespace Pool

variable {Φ : Pairing S ε} {Ψ : Spec S} {E : ε → ε → Prop} {V : α → α' → Prop}
  {h : Handler S ε σ} {g : Handler S ε τ} {R : σ → τ → Prop} {seen : ℕ → Bool}

/-- The programs at one position: they go on in lockstep, or the first is unseen and the second
has returned. -/
def Match (Φ : Pairing S ε) (Ψ : Spec S) (E : ε → ε → Prop) (V : α → α' → Prop) (seen : Bool)
    (p : Prog S ε α) (p' : Prog S ε α') : Prop :=
  if seen = true then Prog.Paired Φ E V p p'
  else p.Meets Ψ (fun _ => True) ∧ p'.returned.isSome = true

/-- The moves of two schedules: programs that match start, or programs at the same position
move.  The next program to start takes position `n`. -/
def Schedules (Φ : Pairing S ε) (Ψ : Spec S) (E : ε → ε → Prop) (V : α → α' → Prop)
    (seen : ℕ → Bool) : ℕ → List (Act S ε α) → List (Act S ε α') → Prop
  | _, [], [] => True
  | n, .start p :: l, .start p' :: l' =>
    Match Φ Ψ E V (seen n) p p' ∧ Schedules Φ Ψ E V seen (n + 1) l l'
  | n, .step i :: l, .step j :: l' => i = j ∧ Schedules Φ Ψ E V seen n l l'
  | _, _, _ => False

/-- The states are related, and the programs match position by position. -/
structure Lockstep (Φ : Pairing S ε) (Ψ : Spec S) (E : ε → ε → Prop) (V : α → α' → Prop)
    (R : σ → τ → Prop) (seen : ℕ → Bool) (P : Pool S ε σ α) (P' : Pool S ε τ α') : Prop where
  store : R P.store P'.store
  length : P.threads.length = P'.threads.length
  threads : ∀ i p p', P.threads[i]? = some p → P'.threads[i]? = some p' →
    Match Φ Ψ E V (seen i) p p'

/-- Programs start side by side. -/
theorem Lockstep.start {P : Pool S ε σ α} {P' : Pool S ε τ α'}
    (hP : Lockstep Φ Ψ E V R seen P P') {p : Prog S ε α} {p' : Prog S ε α'}
    (hp : Match Φ Ψ E V (seen P.threads.length) p p') :
    Lockstep Φ Ψ E V R seen (P.act h (.start p)) (P'.act g (.start p')) where
  store := hP.store
  length := by simp [hP.length]
  threads := by
    intro i q q' hq hq'
    rw [act_start] at hq hq'
    rw [List.getElem?_append] at hq hq'
    rw [← hP.length] at hq'
    split at hq
    · next hlt =>
      rw [if_pos hlt] at hq'
      exact hP.threads i q q' hq hq'
    · next hge =>
      rw [if_neg hge] at hq'
      rw [List.getElem?_singleton] at hq hq'
      split at hq
      · next hi =>
        rw [if_pos hi] at hq'
        obtain rfl := Option.some.inj hq
        obtain rfl := Option.some.inj hq'
        rwa [show i = P.threads.length by omega]
      · cases hq

/-- The programs at one position are replaced by programs that match. -/
theorem Lockstep.set {P : Pool S ε σ α} {P' : Pool S ε τ α'} (hP : Lockstep Φ Ψ E V R seen P P')
    {s : σ} {t : τ} (hR : R s t) {i : ℕ} {p : Prog S ε α} {p' : Prog S ε α'}
    (hp : Match Φ Ψ E V (seen i) p p') :
    Lockstep Φ Ψ E V R seen ⟨s, P.threads.set i p⟩ ⟨t, P'.threads.set i p'⟩ where
  store := hR
  length := by simp [hP.length]
  threads := by
    intro j q q' hq hq'
    by_cases hij : i = j
    · subst hij
      have hlt := (List.getElem?_eq_some_iff.mp hq).1
      have hlt' := (List.getElem?_eq_some_iff.mp hq').1
      rw [List.length_set] at hlt hlt'
      rw [List.getElem?_set_self hlt] at hq
      rw [List.getElem?_set_self hlt'] at hq'
      obtain rfl := Option.some.inj hq
      obtain rfl := Option.some.inj hq'
      exact hp
    · rw [List.getElem?_set_ne hij] at hq hq'
      exact hP.threads j q q' hq hq'

/-- **Programs at the same position move.** -/
theorem Lockstep.step (hΦ : Φ.Sound h g R) (hΨ : Ψ.Unseen h R) {P : Pool S ε σ α}
    {P' : Pool S ε τ α'} (hP : Lockstep Φ Ψ E V R seen P P') (i : ℕ) :
    Lockstep Φ Ψ E V R seen (P.act h (.step i)) (P'.act g (.step i)) := by
  cases hp : P.threads[i]? with
  | none =>
    have hp' : P'.threads[i]? = none := by
      rw [List.getElem?_eq_none_iff] at hp ⊢
      rwa [← hP.length]
    simp only [Pool.act, hp, hp']
    exact hP
  | some p =>
    obtain ⟨p', hp'⟩ : ∃ p', P'.threads[i]? = some p' := by
      have hlt := (List.getElem?_eq_some_iff.mp hp).1
      rw [hP.length] at hlt
      exact ⟨_, List.getElem?_eq_getElem hlt⟩
    have hmatch := hP.threads i p p' hp hp'
    unfold Match at hmatch
    split at hmatch
    · next hseen =>
      cases hmatch with
      | done hr =>
        simp only [Pool.act, hp, hp']
        exact hP
      | call hc hk =>
        obtain ⟨hanswer, hR⟩ := hΦ _ _ _ _ hP.store hc
        rw [act_step_call hp, act_step_call hp']
        refine hP.set hR ?_
        rw [Match, if_pos hseen]
        exact hk _ _ hanswer
    · next hseen =>
      obtain ⟨hmeets, hdone⟩ := hmatch
      cases p' with
      | call c' k' => cases hdone
      | done r' =>
        have hstay : P'.act g (.step i) = P' := by simp only [Pool.act, hp']
        rw [hstay]
        cases p with
        | done r =>
          simp only [Pool.act, hp]
          exact hP
        | call c k =>
          obtain ⟨hpre, herr, hok⟩ := (Prog.meets_call c k).mp hmeets
          obtain ⟨hR, hpost⟩ := hΨ c _ _ hP.store hpre
          -- the other pool is as it was, also at this position
          have hset : P' = ⟨P'.store, P'.threads.set i (.done r')⟩ := by
            obtain ⟨hlt, hget⟩ := List.getElem?_eq_some_iff.mp hp'
            rw [← hget, List.set_getElem_self]
          rw [act_step_call hp, hset]
          refine hP.set hR ?_
          rw [Match, if_neg hseen]
          refine ⟨?_, rfl⟩
          cases hr : (h c P.store).1 with
          | error e => exact herr e
          | ok x => exact hok x (hpost x hr)

/-- A step moves a program and adds none. -/
theorem length_threads_step (h : Handler S ε σ) (P : Pool S ε σ α) (i : ℕ) :
    (P.act h (.step i)).threads.length = P.threads.length := by
  rcases act_step_cases h P i with heq | ⟨c, k, -, heq⟩
  · rw [heq]
  · rw [heq, List.length_set]

/-- **Schedules of related programs lead to related states**, and their programs stay
related. -/
theorem acts_paired (hΦ : Φ.Sound h g R) (hΨ : Ψ.Unseen h R) {P : Pool S ε σ α}
    {P' : Pool S ε τ α'} (hP : Lockstep Φ Ψ E V R seen P P') {l : List (Act S ε α)}
    {l' : List (Act S ε α')} (hl : Schedules Φ Ψ E V seen P.threads.length l l') :
    Lockstep Φ Ψ E V R seen (P.acts h l) (P'.acts g l') := by
  induction l generalizing P P' l' with
  | nil =>
    cases l' with
    | nil => exact hP
    | cons a' l' => exact hl.elim
  | cons a l ih =>
    cases l' with
    | nil => cases a <;> exact hl.elim
    | cons a' l' =>
      cases a with
      | start p =>
        cases a' with
        | step j => exact hl.elim
        | start p' =>
          refine ih (hP.start hl.1) ?_
          rw [act_start, List.length_append]
          exact hl.2
      | step i =>
        cases a' with
        | start p' => exact hl.elim
        | step j =>
          obtain ⟨rfl, hl⟩ := hl
          refine ih (hP.step hΦ hΨ i) ?_
          rwa [length_threads_step]

/-- Before anything has started. -/
theorem lockstep_nil {s : σ} {t : τ} (hR : R s t) :
    Lockstep Φ Ψ E V R seen ⟨s, []⟩ ⟨t, []⟩ := ⟨hR, rfl, by simp⟩

/-- What programs that are seen have returned. -/
theorem Lockstep.returned {P : Pool S ε σ α} {P' : Pool S ε τ α'}
    (hP : Lockstep Φ Ψ E V R seen P P') {i : ℕ} (hi : seen i = true) :
    Option.Rel (Outcomes E V) (P.threads[i]?.bind Prog.returned)
      (P'.threads[i]?.bind Prog.returned) := by
  cases hp : P.threads[i]? with
  | none =>
    have hp' : P'.threads[i]? = none := by
      rw [List.getElem?_eq_none_iff] at hp ⊢
      rwa [← hP.length]
    rw [hp']
    exact .none
  | some p =>
    obtain ⟨p', hp'⟩ : ∃ p', P'.threads[i]? = some p' := by
      have hlt := (List.getElem?_eq_some_iff.mp hp).1
      rw [hP.length] at hlt
      exact ⟨_, List.getElem?_eq_getElem hlt⟩
    have hmatch := hP.threads i p p' hp hp'
    rw [Match, if_pos hi] at hmatch
    rw [hp']
    cases hmatch with
    | done hr => exact .some hr
    | call _ _ => exact .none

end Pool

/-! ### The same calls on both sides -/

/-- The same call on both sides, as `Φ` allows it, with the same answer, as `Φ` grants it. -/
def Pairing.same (Φ : Spec S) : Pairing S ε where
  call c c' := c = c' ∧ Φ.pre c
  answer c _ r r' := HEq r r' ∧ ∀ x, r = .ok x → Φ.post c x

/-- A program that respects a specification goes on in lockstep with itself. -/
theorem Prog.Meets.paired {Φ : Spec S} {Q : α → Prop} {p : Prog S ε α} (hp : p.Meets Φ Q) :
    Prog.Paired (Pairing.same Φ) Eq Eq p p := by
  induction p with
  | done r => exact .done (outcomes_eq_iff.mpr rfl)
  | call c k ih =>
    obtain ⟨hpre, herr, hok⟩ := (Prog.meets_call c k).mp hp
    refine .call ⟨rfl, hpre⟩ ?_
    rintro r r' ⟨heq, hpost⟩
    obtain rfl := eq_of_heq heq
    cases r with
    | error e => exact ih _ (herr e)
    | ok x => exact ih _ (hok x (hpost x rfl))

/-- What two specifications allow, and what they grant together. -/
def Spec.and (Φ Ψ : Spec S) : Spec S :=
  ⟨fun c => Φ.pre c ∧ Ψ.pre c, fun c x => Φ.post c x ∧ Ψ.post c x⟩

/-- A program that respects two specifications respects both together. -/
theorem Prog.Meets.and {Φ Ψ : Spec S} {Q : α → Prop} {p : Prog S ε α} (hp : p.Meets Φ Q)
    (hp' : p.Meets Ψ fun _ => True) : p.Meets (Φ.and Ψ) Q := by
  induction p with
  | done r =>
    cases r with
    | error e => exact Prog.meets_error e
    | ok a => exact (Prog.meets_ok a).mpr ((Prog.meets_ok a).mp hp)
  | call c k ih =>
    obtain ⟨hpre, herr, hok⟩ := (Prog.meets_call c k).mp hp
    obtain ⟨hpre', herr', hok'⟩ := (Prog.meets_call c k).mp hp'
    exact (Prog.meets_call c k).mpr ⟨⟨hpre, hpre'⟩, fun e => ih _ (herr e) (herr' e),
      fun x hx => ih _ (hok x hx.1) (hok' x hx.2)⟩

/-- A program respects a specification that allows every call. -/
theorem Prog.meets_of_pre {Φ : Spec S} (h : ∀ c, Φ.pre c) (p : Prog S ε α) :
    p.Meets Φ fun _ => True := by
  induction p with
  | done r => cases r <;> simp
  | call c k ih => exact (Prog.meets_call c k).mpr ⟨h c, fun e => ih _, fun x _ => ih _⟩

namespace Pool

variable {Φ : Spec S} {h : Handler S ε σ} {g : Handler S ε τ} {R : σ → τ → Prop}

/-- A schedule against itself. -/
theorem schedules_same {l : List (Act S ε α)}
    (hl : ∀ p, .start p ∈ l → p.Meets Φ fun _ => True) (n : ℕ) :
    Schedules (Pairing.same Φ) .nothing Eq Eq (fun _ => true) n l l := by
  induction l generalizing n with
  | nil => trivial
  | cons a l ih =>
    have htail := ih fun p hp => hl p (List.mem_cons_of_mem _ hp)
    cases a with
    | start p => exact ⟨(hl p List.mem_cons_self).paired, htail _⟩
    | step i => exact ⟨rfl, htail _⟩

/-- **Handlers that answer related states alike are told apart by no schedule.** -/
theorem acts_same (hΦ : (Pairing.same Φ).Sound h g R) {s : σ} {t : τ} (hR : R s t)
    {l : List (Act S ε α)} (hl : ∀ p, .start p ∈ l → p.Meets Φ fun _ => True) :
    R (acts h ⟨s, []⟩ l).store (acts g ⟨t, []⟩ l).store ∧
      ∀ i : ℕ, (acts h ⟨s, []⟩ l).threads[i]?.bind Prog.returned =
        (acts g ⟨t, []⟩ l).threads[i]?.bind Prog.returned := by
  have hrun := acts_paired hΦ (Spec.unseen_nothing _ _) (lockstep_nil hR) (schedules_same hl 0)
  exact ⟨hrun.store, fun i => eq_of_rel_outcomes (hrun.returned rfl)⟩

end Pool

end Effect
