import Mathlib.Tactic.Common
import Mathlib.Logic.Relation

/-!
# Programs over a signature of calls

A component that reaches its store only through a fixed list of calls is a tree:
it either has returned, with a value or an error, or makes one call and goes on
with the answer.  Keeping the tree, rather than the function it computes on
states, lets the same definition be run alone, run with failing calls, or
interleaved with others call by call.

## Main definitions

* `Sig`, `Prog` — signatures of calls, and the programs over them.
* `Handler`, `Prog.run` — a semantics of the calls, and the run of a program that
  nothing interrupts.
* `Spec`, `Prog.Meets` — what each call needs and what its answer grants, and the
  programs that respect it whatever they are answered.
* `Prog.Along` — every call of a run satisfies a condition on the state it is made
  in.
* `Prog.Until` — the program makes calls of one kind only, until it gets to a given point.

## Main results

* `Prog.run_bind`, `Prog.meets_bind` — the rules for sequencing.
* `Prog.run_meets` — **a run of a program that meets a sound specification keeps
  the invariant**.
* `Prog.run_sim` — **two handlers that answer alike on related states give equal
  results and related states**.
-/

namespace Effect

/-- A signature: the calls a program may make, and the type each is answered in. -/
structure Sig where
  /-- The calls. -/
  Call : Type
  /-- The type of the answer to a call. -/
  Res : Call → Type

/-- A semantics of the calls: the answer, and the state left behind. -/
abbrev Handler (S : Sig) (ε σ : Type) : Type :=
  (c : S.Call) → σ → Except ε (S.Res c) × σ

/-- A program over `S` that returns an `α` or fails with an `ε`. -/
inductive Prog (S : Sig) (ε α : Type) : Type
  /-- The program has returned. -/
  | done (r : Except ε α)
  /-- The program makes the call `c` and goes on with its answer. -/
  | call (c : S.Call) (k : Except ε (S.Res c) → Prog S ε α)

namespace Prog

variable {S : Sig} {ε σ τ α β : Type}

/-- Run `f` on the value of the first program; an error ends the whole. -/
def bind : Prog S ε α → (α → Prog S ε β) → Prog S ε β
  | .done (.ok a), f => f a
  | .done (.error e), _ => .done (.error e)
  | .call c k, f => .call c fun r => (k r).bind f

instance : Monad (Prog S ε) where
  pure a := .done (.ok a)
  bind := Prog.bind

/-- Make one call and return its answer. -/
def perform (c : S.Call) : Prog S ε (S.Res c) := .call c .done

/-- Stop with an error. -/
def bail (e : ε) : Prog S ε α := .done (.error e)

/-- Stop with the error `e` unless `p` holds. -/
def ensure (p : Prop) [Decidable p] (e : ε) : Prog S ε Unit :=
  if p then .done (.ok ()) else .done (.error e)

/-- The value of an option, or the error `e`. -/
def okOrElse (o : Option α) (e : ε) : Prog S ε α :=
  match o with
  | some a => .done (.ok a)
  | none => .done (.error e)

/-- A computation that makes no call. -/
def ofExcept (r : Except ε α) : Prog S ε α := .done r

/-- Apply a function to the value of a program. -/
def map (f : α → β) (p : Prog S ε α) : Prog S ε β := p >>= fun a => .done (.ok (f a))

/-- Make one call and return its outcome, error included. -/
def attempt (c : S.Call) : Prog S ε (Except ε (S.Res c)) := .call c fun r => .done (.ok r)

@[simp] theorem pure_eq (a : α) : (pure a : Prog S ε α) = .done (.ok a) := rfl

@[simp] theorem ok_bind (a : α) (f : α → Prog S ε β) :
    ((.done (.ok a) : Prog S ε α) >>= f) = f a := rfl

@[simp] theorem error_bind (e : ε) (f : α → Prog S ε β) :
    ((.done (.error e) : Prog S ε α) >>= f) = .done (.error e) := rfl

@[simp] theorem call_bind (c : S.Call) (k : Except ε (S.Res c) → Prog S ε α)
    (f : α → Prog S ε β) : (Prog.call c k >>= f) = .call c fun r => k r >>= f := rfl

theorem ensure_bind (p : Prop) [Decidable p] (e : ε) (f : Unit → Prog S ε β) :
    (ensure p e >>= f) = if p then f () else .done (.error e) := by
  unfold ensure
  split <;> rfl

@[simp] theorem bind_assoc (p : Prog S ε α) (f : α → Prog S ε β) {γ : Type}
    (g : β → Prog S ε γ) : ((p >>= f) >>= g) = p >>= fun a => f a >>= g := by
  induction p with
  | done r => cases r <;> rfl
  | call c k ih => exact congrArg (Prog.call c) (funext fun r => ih r)

/-! ### Running a program alone -/

/-- The run of a program from a state, with nothing in between its calls. -/
def run (h : Handler S ε σ) : Prog S ε α → σ → Except ε α × σ
  | .done r, s => (r, s)
  | .call c k, s => (k (h c s).1).run h (h c s).2

@[simp] theorem run_done (h : Handler S ε σ) (r : Except ε α) (s : σ) :
    (Prog.done r).run h s = (r, s) := rfl

@[simp] theorem run_call (h : Handler S ε σ) (c : S.Call)
    (k : Except ε (S.Res c) → Prog S ε α) (s : σ) :
    (Prog.call c k).run h s = (k (h c s).1).run h (h c s).2 := rfl

/-- Go on from an outcome and a state, unless the outcome is an error. -/
def next (f : α → σ → Except ε β × σ) : Except ε α × σ → Except ε β × σ
  | (.ok a, s) => f a s
  | (.error e, s) => (.error e, s)

@[simp] theorem next_ok (f : α → σ → Except ε β × σ) (a : α) (s : σ) :
    next f (.ok a, s) = f a s := rfl

@[simp] theorem next_error (f : α → σ → Except ε β × σ) (e : ε) (s : σ) :
    next f (.error e, s) = (.error e, s) := rfl

/-- **The run of a sequence**: the second program runs where the first ended, unless
that failed. -/
theorem run_bind (h : Handler S ε σ) (p : Prog S ε α) (f : α → Prog S ε β) (s : σ) :
    (p >>= f).run h s = next (fun a => (f a).run h) (p.run h s) := by
  induction p generalizing s with
  | done r => cases r <;> rfl
  | call c k ih => exact ih _ _

@[simp] theorem run_perform_bind (h : Handler S ε σ) (c : S.Call)
    (f : S.Res c → Prog S ε β) (s : σ) :
    (perform c >>= f).run h s = next (fun a => (f a).run h) (h c s) :=
  run_bind h (perform c) f s

@[simp] theorem run_attempt_bind (h : Handler S ε σ) (c : S.Call)
    (f : Except ε (S.Res c) → Prog S ε β) (s : σ) :
    (attempt c >>= f).run h s = (f (h c s).1).run h (h c s).2 := rfl

@[simp] theorem run_ofExcept_bind (h : Handler S ε σ) (r : Except ε α)
    (f : α → Prog S ε β) (s : σ) :
    (ofExcept r >>= f).run h s = next (fun a => (f a).run h) (r, s) :=
  run_bind h (ofExcept r) f s

@[simp] theorem run_ensure_bind (h : Handler S ε σ) (p : Prop) [Decidable p] (e : ε)
    (f : Unit → Prog S ε β) (s : σ) :
    (ensure p e >>= f).run h s = if p then (f ()).run h s else (.error e, s) := by
  unfold ensure
  split <;> rfl

@[simp] theorem run_okOrElse_bind (h : Handler S ε σ) (o : Option α) (e : ε)
    (f : α → Prog S ε β) (s : σ) :
    (okOrElse o e >>= f).run h s =
      o.elim (.error e, s) fun a => (f a).run h s := by
  cases o <;> rfl

/-! ### Specifications of the calls -/

end Prog

/-- What each call needs, and what its answer grants. -/
structure Spec (S : Sig) where
  /-- When the call may be made. -/
  pre : S.Call → Prop
  /-- What may be relied on about its answer. -/
  post : (c : S.Call) → S.Res c → Prop

/-- A specification is sound for a handler and an invariant: a call made as it is
allowed keeps the invariant, and its answer is as granted. -/
def Spec.Sound {S : Sig} {ε σ : Type} (Φ : Spec S) (h : Handler S ε σ) (I : σ → Prop) : Prop :=
  ∀ c s, I s → Φ.pre c → I (h c s).2 ∧ ∀ x, (h c s).1 = .ok x → Φ.post c x

namespace Prog

variable {S : Sig} {ε σ τ α β : Type}

/-- The program makes only the calls `Φ` allows, as long as it is answered what `Φ`
grants or an error, and what it returns satisfies `Q`. -/
def Meets (Φ : Spec S) : Prog S ε α → (α → Prop) → Prop
  | .done (.ok a), Q => Q a
  | .done (.error _), _ => True
  | .call c k, Q => Φ.pre c ∧ (∀ e, (k (.error e)).Meets Φ Q) ∧
      ∀ x, Φ.post c x → (k (.ok x)).Meets Φ Q

section Meets

variable {Φ : Spec S} {Q : α → Prop}

@[simp] theorem meets_ok (a : α) : (Prog.done (.ok a) : Prog S ε α).Meets Φ Q ↔ Q a := Iff.rfl

@[simp] theorem meets_pure (a : α) : (pure a : Prog S ε α).Meets Φ Q ↔ Q a := Iff.rfl

@[simp] theorem meets_error (e : ε) : (Prog.done (.error e) : Prog S ε α).Meets Φ Q :=
  trivial

@[simp] theorem meets_call (c : S.Call) (k : Except ε (S.Res c) → Prog S ε α) :
    (Prog.call c k).Meets Φ Q ↔ Φ.pre c ∧ (∀ e, (k (.error e)).Meets Φ Q) ∧
      ∀ x, Φ.post c x → (k (.ok x)).Meets Φ Q := Iff.rfl

@[simp] theorem meets_perform (c : S.Call) (Q : S.Res c → Prop) :
    Meets (ε := ε) (α := no_index (S.Res c)) Φ (perform c) Q ↔ Φ.pre c ∧ ∀ x, Φ.post c x → Q x := by
  simp [perform]

@[simp] theorem meets_attempt (c : S.Call) (Q : Except ε (S.Res c) → Prop) :
    Meets (ε := ε) (α := no_index (Except ε (S.Res c))) Φ (attempt c) Q ↔
      Φ.pre c ∧ (∀ e, Q (.error e)) ∧ ∀ x, Φ.post c x → Q (.ok x) := by
  simp [attempt]

@[simp] theorem meets_ofExcept (r : Except ε α) :
    (ofExcept r : Prog S ε α).Meets Φ Q ↔ ∀ a, r = .ok a → Q a := by
  cases r <;> simp [ofExcept]

@[simp] theorem meets_ensure (p : Prop) [Decidable p] (e : ε) (Q : Unit → Prop) :
    (ensure p e : Prog S ε Unit).Meets Φ Q ↔ (p → Q ()) := by
  unfold ensure
  split <;> simp [*]

@[simp] theorem meets_okOrElse (o : Option α) (e : ε) :
    (okOrElse o e : Prog S ε α).Meets Φ Q ↔ ∀ a, o = some a → Q a := by
  cases o <;> simp [okOrElse]

/-- **The rule for sequencing.** -/
@[simp] theorem meets_bind (p : Prog S ε α) (f : α → Prog S ε β) (Q : β → Prop) :
    (p >>= f).Meets Φ Q ↔ p.Meets Φ fun a => (f a).Meets Φ Q := by
  induction p with
  | done r => cases r <;> simp
  | call c k ih => simp only [call_bind, meets_call, ih]

@[simp] theorem meets_map (f : α → β) (p : Prog S ε α) (Q : β → Prop) :
    (p.map f).Meets Φ Q ↔ p.Meets Φ fun a => Q (f a) := by
  rw [Prog.map, meets_bind]
  rfl

/-- A weaker postcondition is met too. -/
theorem Meets.mono {Q' : α → Prop} (hQ : ∀ a, Q a → Q' a) :
    ∀ {p : Prog S ε α}, p.Meets Φ Q → p.Meets Φ Q'
  | .done (.ok a), h => hQ a h
  | .done (.error _), _ => trivial
  | .call _ _, h => ⟨h.1, fun e => (h.2.1 e).mono hQ, fun x hx => (h.2.2 x hx).mono hQ⟩

/-- Whatever a sound call is answered, the program goes on meeting the
specification. -/
theorem Meets.step {h : Handler S ε σ} {I : σ → Prop} (hΦ : Φ.Sound h I) {c : S.Call}
    {k : Except ε (S.Res c) → Prog S ε α} (hp : (Prog.call c k).Meets Φ Q) {s : σ} (hs : I s) :
    I (h c s).2 ∧ (k (h c s).1).Meets Φ Q := by
  obtain ⟨hpre, herr, hok⟩ := hp
  obtain ⟨hI, hpost⟩ := hΦ c s hs hpre
  refine ⟨hI, ?_⟩
  cases hr : (h c s).1 with
  | error e => exact herr e
  | ok x => exact hok x (hpost x hr)

/-- **A run of a program that meets a sound specification keeps the invariant**, and
what it returns satisfies the postcondition. -/
theorem run_meets {h : Handler S ε σ} {I : σ → Prop} (hΦ : Φ.Sound h I) {p : Prog S ε α}
    (hp : p.Meets Φ Q) {s : σ} (hs : I s) :
    I (p.run h s).2 ∧ ∀ a, (p.run h s).1 = .ok a → Q a := by
  induction p generalizing s with
  | done r =>
    refine ⟨hs, ?_⟩
    rintro a rfl
    exact hp
  | call c k ih =>
    obtain ⟨hI, hk⟩ := hp.step hΦ hs
    exact ih _ hk hI

end Meets

/-! ### Simulation -/

/-- Every call of the run of the program from `s` satisfies `pre` in the state it is
made in. -/
def Along (h : Handler S ε σ) (pre : S.Call → σ → Prop) : Prog S ε α → σ → Prop
  | .done _, _ => True
  | .call c k, s => pre c s ∧ (k (h c s).1).Along h pre (h c s).2

section Along

variable {h : Handler S ε σ} {pre : S.Call → σ → Prop}

@[simp] theorem along_done (r : Except ε α) (s : σ) :
    (Prog.done r : Prog S ε α).Along h pre s := trivial

@[simp] theorem along_pure (a : α) (s : σ) : (pure a : Prog S ε α).Along h pre s := trivial

@[simp] theorem along_call (c : S.Call) (k : Except ε (S.Res c) → Prog S ε α) (s : σ) :
    (Prog.call c k).Along h pre s ↔ pre c s ∧ (k (h c s).1).Along h pre (h c s).2 := Iff.rfl

@[simp] theorem along_perform_bind (c : S.Call) (f : S.Res c → Prog S ε β) (s : σ) :
    (perform c >>= f).Along h pre s ↔
      pre c s ∧ ∀ x, (h c s).1 = .ok x → (f x).Along h pre (h c s).2 := by
  change (pre c s ∧ (Prog.done (h c s).1 >>= f).Along h pre (h c s).2) ↔ _
  cases (h c s).1 <;> simp

@[simp] theorem along_attempt_bind (c : S.Call) (f : Except ε (S.Res c) → Prog S ε β) (s : σ) :
    Along h pre (Bind.bind (α := no_index (Except ε (S.Res c))) (attempt c) f) s ↔
      pre c s ∧ (f (h c s).1).Along h pre (h c s).2 := Iff.rfl

@[simp] theorem along_ofExcept_bind (r : Except ε α) (f : α → Prog S ε β) (s : σ) :
    (ofExcept r >>= f).Along h pre s ↔ ∀ a, r = .ok a → (f a).Along h pre s := by
  cases r <;> simp [ofExcept]

@[simp] theorem along_ensure_bind (p : Prop) [Decidable p] (e : ε) (f : Unit → Prog S ε β)
    (s : σ) : (ensure p e >>= f).Along h pre s ↔ (p → (f ()).Along h pre s) := by
  unfold ensure
  split <;> simp [*]

@[simp] theorem along_okOrElse_bind (o : Option α) (e : ε) (f : α → Prog S ε β) (s : σ) :
    (okOrElse o e >>= f).Along h pre s ↔ ∀ a, o = some a → (f a).Along h pre s := by
  cases o <;> simp [okOrElse]

/-- **The rule for sequencing**: the second program runs where the first ended. -/
theorem along_bind (p : Prog S ε α) (f : α → Prog S ε β) (s : σ) :
    (p >>= f).Along h pre s ↔
      p.Along h pre s ∧ ∀ a, (p.run h s).1 = .ok a → (f a).Along h pre (p.run h s).2 := by
  induction p generalizing s with
  | done r => cases r <;> simp
  | call c k ih => simp only [call_bind, along_call, ih, run_call, and_assoc]

theorem Along.mono {pre' : S.Call → σ → Prop} (hpre : ∀ c s, pre c s → pre' c s) {p : Prog S ε α}
    {s : σ} (hp : p.Along h pre s) : p.Along h pre' s := by
  induction p generalizing s with
  | done r => trivial
  | call c k ih => exact ⟨hpre c s hp.1, ih _ hp.2⟩

theorem Along.and {pre' : S.Call → σ → Prop} {p : Prog S ε α} {s : σ} (hp : p.Along h pre s)
    (hp' : p.Along h pre' s) : p.Along h (fun c s => pre c s ∧ pre' c s) s := by
  induction p generalizing s with
  | done r => trivial
  | call c k ih => exact ⟨⟨hp.1, hp'.1⟩, ih _ hp.2 hp'.2⟩

end Along

/-- A program that meets a sound specification makes only allowed calls, along every
run. -/
theorem Meets.along {Φ : Spec S} {h : Handler S ε σ} {I : σ → Prop} (hΦ : Φ.Sound h I)
    {Q : α → Prop} {p : Prog S ε α} (hp : p.Meets Φ Q) {s : σ} (hs : I s) :
    p.Along h (fun c _ => Φ.pre c) s := by
  induction p generalizing s with
  | done r => trivial
  | call c k ih =>
    obtain ⟨hI, hk⟩ := hp.step hΦ hs
    exact ⟨hp.1, ih _ hk hI⟩

/-- **Handlers that answer alike on related states give equal results and related
states**, for a program all of whose calls are made where they do. -/
theorem run_sim {h : Handler S ε σ} {g : Handler S ε τ} {R : σ → τ → Prop}
    {pre : S.Call → σ → Prop}
    (hcall : ∀ c s t, R s t → pre c s → (g c t).1 = (h c s).1 ∧ R (h c s).2 (g c t).2)
    (p : Prog S ε α) {s : σ} {t : τ} (hR : R s t) (hp : p.Along h pre s) :
    (p.run g t).1 = (p.run h s).1 ∧ R (p.run h s).2 (p.run g t).2 := by
  induction p generalizing s t with
  | done r => exact ⟨rfl, hR⟩
  | call c k ih =>
    obtain ⟨hpre, hk⟩ := hp
    obtain ⟨hres, hR'⟩ := hcall c s t hR hpre
    rw [run_call, run_call, hres]
    exact ih _ hR' hk

/-! ### Where a program stands -/

/-- The call the program is about to make, if it has not returned. -/
def nextCall : Prog S ε α → Option S.Call
  | .done _ => none
  | .call c _ => some c

/-- What the program has returned, if it has. -/
def returned : Prog S ε α → Option (Except ε α)
  | .done r => some r
  | .call _ _ => none

/-- The program makes calls that satisfy `Φ`, whatever they are answered, until what is left
of it satisfies `R`. -/
inductive Until (Φ : S.Call → Prop) (R : Prog S ε α → Prop) : Prog S ε α → Prop
  | here {p : Prog S ε α} (h : R p) : Until Φ R p
  | call {c : S.Call} {k : Except ε (S.Res c) → Prog S ε α} (hc : Φ c)
      (hk : ∀ r, Until Φ R (k r)) : Until Φ R (.call c k)

section Until

variable {Φ : S.Call → Prop} {R : Prog S ε β → Prop} (hR : ∀ e, R (.done (.error e)))

include hR

theorem until_perform_bind {c : S.Call} {f : S.Res c → Prog S ε β} (hc : Φ c)
    (hf : ∀ x, (f x).Until Φ R) : (perform c >>= f).Until Φ R := by
  refine .call hc ?_
  intro r
  cases r with
  | error e => exact .here (hR e)
  | ok x => exact hf x

theorem until_ofExcept_bind {r : Except ε α} {f : α → Prog S ε β}
    (hf : ∀ a, r = .ok a → (f a).Until Φ R) : (ofExcept r >>= f).Until Φ R := by
  cases r with
  | error e => exact .here (hR e)
  | ok a => exact hf a rfl

theorem until_ensure_bind {p : Prop} [Decidable p] {e : ε} {f : Unit → Prog S ε β}
    (hf : p → (f ()).Until Φ R) : (ensure p e >>= f).Until Φ R := by
  rw [ensure_bind]
  split
  · next hp => exact hf hp
  · exact .here (hR e)

theorem until_okOrElse_bind {o : Option α} {e : ε} {f : α → Prog S ε β}
    (hf : ∀ a, o = some a → (f a).Until Φ R) : (okOrElse o e >>= f).Until Φ R := by
  cases o with
  | none => exact .here (hR e)
  | some a => exact hf a rfl

end Until

-- the rules above say all about these; unfolding would run the program
attribute [irreducible] Meets Along

end Prog
end Effect
