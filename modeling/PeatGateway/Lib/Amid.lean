import PeatGateway.Lib.Reply

/-!
# Programs amid others

A program runs alone, but for what others do to the store between its calls.  What they do is
given by the number of calls the program has made; all the rules for programs hold, since this
is a handler like any other.

## Main definitions

* `amid` — the handler under which others move before every call.

## Main results

* `Spec.Sound.amid` — a specification stays sound amid others that keep its invariant.
* `Prog.wp_of_meets` — what a program that meets a specification leaves.
-/

namespace Effect

variable {S : Sig} {ε σ α : Type}

/-- Before the `n`-th call the others have moved by `others n`. -/
def amid (h : Handler S ε σ) (others : ℕ → σ → σ) : Handler S ε (σ × ℕ) :=
  fun c s => ((h c (others s.2 s.1)).1, ((h c (others s.2 s.1)).2, s.2 + 1))

/-- A specification stays sound amid others that keep its invariant. -/
theorem Spec.Sound.amid {h : Handler S ε σ} {Φ : Spec S} {I : σ → Prop} (hΦ : Φ.Sound h I)
    {others : ℕ → σ → σ} (hothers : ∀ n s, I s → I (others n s)) :
    Φ.Sound (amid h others) fun s => I s.1 :=
  fun c s hs hpre => hΦ c (others s.2 s.1) (hothers s.2 s.1 hs) hpre

/-- A program that meets a specification keeps the invariant, whether it fails or not. -/
theorem Prog.wp_of_meets {h : Handler S ε σ} {Φ : Spec S} {I : σ → Prop} (hΦ : Φ.Sound h I)
    {p : Prog S ε α} {Q : α → Prop} (hp : p.Meets Φ Q) {s : σ} (hs : I s) :
    p.Wp h s (fun a s' => I s' ∧ Q a) I := by
  obtain ⟨hI, hQ⟩ := Prog.run_meets hΦ hp hs
  rw [Prog.wp_iff_run]
  generalize p.run h s = r at hI hQ
  obtain ⟨_ | a, s'⟩ := r
  · exact hI
  · exact ⟨hI, hQ a rfl⟩

end Effect
