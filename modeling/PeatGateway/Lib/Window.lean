import Mathlib.Data.List.Count
import Mathlib.Tactic.Common

/-!
# Sliding windows

A limiter lets an event pass if few enough of the earlier ones are recent.  It looks at one
window only, the one that ends now; that no window whatever holds too many follows, since the
last event of a window has seen all the others of it.

## Main definitions

* `Window.within` — the number of events in a closed interval.
* `Window.recent` — the number of events a limiter sees.
* `Window.Bounded` — no window holds more than so many events.

## Main results

* `Window.Bounded.cons` — **an event that finds fewer than `q` recent ones leaves at most `q`
  in every window**.
* `Window.Bounded.recent_le` — a limiter never sees more than `q`.
-/

namespace Window

/-- The number of events from `s` to `s + w`. -/
def within (w s : ℕ) (l : List ℕ) : ℕ := l.countP fun t => s ≤ t ∧ t ≤ s + w

/-- The number of events that are at most `w` old, or yet to come. -/
def recent (w now : ℕ) (l : List ℕ) : ℕ := l.countP fun t => now ≤ t + w

/-- No window of width `w` holds more than `q` events. -/
def Bounded (w q : ℕ) (l : List ℕ) : Prop := ∀ s, within w s l ≤ q

variable {w q now t : ℕ} {l l' : List ℕ}

theorem bounded_nil : Bounded w q [] := fun _ => Nat.zero_le _

theorem within_perm (h : l.Perm l') (s : ℕ) : within w s l = within w s l' := h.countP_eq _

theorem Bounded.perm (hl : Bounded w q l) (h : l.Perm l') : Bounded w q l' := by
  intro s
  rw [← within_perm h]
  exact hl s

theorem within_cons (s : ℕ) :
    within w s (t :: l) = within w s l + if s ≤ t ∧ t ≤ s + w then 1 else 0 := by
  simp [within, List.countP_cons]

/-- **An event that finds fewer than `q` recent ones leaves at most `q` in every window.**  It
may be stamped later than it has looked. -/
theorem Bounded.cons (hl : Bounded w q l) (hrecent : recent w now l < q) (hnow : now ≤ t) :
    Bounded w q (t :: l) := by
  intro s
  rw [within_cons]
  split
  · next ht =>
    -- the others of this window were recent
    have hle : within w s l ≤ recent w now l := by
      apply List.countP_mono_left
      intro x _ hx
      simp only [decide_eq_true_eq] at hx ⊢
      omega
    omega
  · exact hl s

/-- A limiter never sees more than `q` events, if none is yet to come. -/
theorem Bounded.recent_le (hl : Bounded w q l) (hpast : ∀ t ∈ l, t ≤ now) :
    recent w now l ≤ q := by
  refine Nat.le_trans (List.countP_mono_left ?_) (hl (now - w))
  intro x hx hrec
  have hle := hpast x hx
  simp only [decide_eq_true_eq] at hrec ⊢
  omega

/-- If no event is yet to come, the recent ones lie in the window that ends now. -/
theorem recent_eq_within (hpast : ∀ t ∈ l, t ≤ now) :
    recent w now l = l.countP fun t => now ≤ t + w ∧ t ≤ now := by
  apply List.countP_congr
  intro x hx
  simp [hpast x hx]

end Window
