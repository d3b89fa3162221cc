import PeatGateway.Lib.Reply

/-!
# Programs over two signatures

A component with calls of two kinds is a program over the sum of their signatures, and a
program with calls of one kind is such a program too.

## Main definitions

* `Sig.sum` — the calls of two signatures.
* `Prog.inl` — a program over the first of them.
* `Prog.beside` — two handlers side by side.
* `Prog.implement` — a program whose calls are programs.

## Main results

* `Prog.inl_bind` — embedding and sequencing commute.
* `Prog.meets_inl` — an embedded program makes the calls it made.
-/

namespace Effect

/-- The calls of two signatures. -/
def Sig.sum (S T : Sig) : Sig := ⟨S.Call ⊕ T.Call, Sum.elim S.Res T.Res⟩

namespace Prog

variable {S T : Sig} {ε σ α β : Type}

/-- A program over the first of two signatures. -/
def inl : Prog S ε α → Prog (S.sum T) ε α
  | .done r => .done r
  | .call c k => .call (S := S.sum T) (.inl c) fun r => (k r).inl

@[simp] theorem inl_done (r : Except ε α) : (Prog.done r : Prog S ε α).inl (T := T) = .done r := rfl

@[simp] theorem inl_call (c : S.Call) (k : Except ε (S.Res c) → Prog S ε α) :
    (Prog.call c k).inl (T := T) = .call (S := S.sum T) (.inl c) fun r => (k r).inl := rfl

/-- Embedding and sequencing commute. -/
theorem inl_bind (p : Prog S ε α) (f : α → Prog S ε β) :
    (p >>= f).inl (T := T) = p.inl >>= fun a => (f a).inl := by
  induction p with
  | done r => cases r <;> rfl
  | call c k ih => exact congrArg (Prog.call (S := S.sum T) (.inl c)) (funext fun r => ih r)

@[simp] theorem inl_perform (c : S.Call) :
    inl (ε := ε) (T := T) (perform c) = perform (S := S.sum T) (.inl c) := rfl

/-- An embedded program makes the calls it made. -/
theorem meets_inl {Φ : Spec S} {Ψ : Spec (S.sum T)} (hpre : ∀ c, Φ.pre c → Ψ.pre (.inl c))
    (hpost : ∀ c x, Ψ.post (.inl c) x → Φ.post c x) {p : Prog S ε α} {Q : α → Prop}
    (hp : p.Meets Φ Q) : p.inl.Meets Ψ Q := by
  induction p with
  | done r =>
    cases r with
    | error e => exact meets_error e
    | ok a => exact (meets_ok a).mpr ((meets_ok a).mp hp)
  | call c k ih =>
    obtain ⟨hc, herr, hok⟩ := (meets_call c k).mp hp
    refine (meets_call (S := S.sum T) (.inl c) _).mpr ⟨hpre c hc, fun e => ih _ (herr e), ?_⟩
    exact fun x hx => ih _ (hok x (hpost c x hx))

/-! ### Two handlers -/

/-- Two handlers side by side, each on a state of its own. -/
def beside {τ : Type} (h : Handler S ε σ) (g : Handler T ε τ) : Handler (S.sum T) ε (σ × τ)
  | .inl c, s => ((h c s.1).1, (h c s.1).2, s.2)
  | .inr c, s => ((g c s.2).1, s.1, (g c s.2).2)

/-- An embedded program does not touch the other state. -/
theorem run_inl_beside {τ : Type} (h : Handler S ε σ) (g : Handler T ε τ) (p : Prog S ε α)
    (s : σ × τ) : p.inl.run (beside h g) s = ((p.run h s.1).1, (p.run h s.1).2, s.2) := by
  induction p generalizing s with
  | done r => rfl
  | call c k ih => exact ih _ _

/-! ### Calls that are programs -/

/-- The program in which each call is carried out by a program. -/
def implement (imp : (c : S.Call) → Prog T ε (S.Res c)) : Prog S ε α → Prog T ε α
  | .done r => .done r
  | .call c k => (imp c).outcome >>= fun r => (k r).implement imp

end Prog

end Effect
