import PeatGateway.Lib.Prog

/-!
# Pre- and postconditions of programs

What holds after the run of a program, of its value if it succeeds and of the state left
behind if it fails, computed along the program.  A second handler lets any call fail; a
call that fails may have been carried out or not.

## Main definitions

* `Prog.Post`, `Prog.Wp` — a pair of postconditions, and that a run satisfies it.
* `Faults`, `faulty` — which calls fail, and the handler that lets them fail.
* `failsAt` — one call fails.

## Main results

* `Prog.wp_bind` — **the rule for sequencing**.
* `Prog.Wp.mono` — weaker postconditions.
* `post_faulty` — a call that may fail.
-/

namespace Effect

namespace Prog

variable {S : Sig} {ε σ α β : Type} {h : Handler S ε σ} {s : σ}

/-- `Q` of the value and the state, or `E` of the state after an error. -/
def Post (Q : α → σ → Prop) (E : σ → Prop) : Except ε α × σ → Prop
  | (.ok a, s) => Q a s
  | (.error _, s) => E s

@[simp] theorem post_ok (Q : α → σ → Prop) (E : σ → Prop) (a : α) (s : σ) :
    Post Q E ((.ok a : Except ε α), s) ↔ Q a s := Iff.rfl

@[simp] theorem post_error (Q : α → σ → Prop) (E : σ → Prop) (e : ε) (s : σ) :
    Post Q E ((.error e : Except ε α), s) ↔ E s := Iff.rfl

theorem post_next {Q : β → σ → Prop} {E : σ → Prop} {f : α → σ → Except ε β × σ}
    {r : Except ε α × σ} : Post Q E (next f r) ↔ Post (fun a s => Post Q E (f a s)) E r := by
  obtain ⟨a | e, s⟩ := r <;> rfl

theorem Post.mono {Q Q' : α → σ → Prop} {E E' : σ → Prop} {r : Except ε α × σ} (hr : Post Q E r)
    (hQ : ∀ a s, Q a s → Q' a s) (hE : ∀ s, E s → E' s) : Post Q' E' r := by
  obtain ⟨a | e, s⟩ := r
  · exact hE s hr
  · exact hQ e s hr

/-- The run of the program from `s` ends in `Q`, or in an error and `E`. -/
def Wp (h : Handler S ε σ) (p : Prog S ε α) (s : σ) (Q : α → σ → Prop) (E : σ → Prop) : Prop :=
  Post Q E (p.run h s)

variable {Q : α → σ → Prop} {E : σ → Prop}

@[simp] theorem wp_ok (a : α) : (Prog.done (.ok a) : Prog S ε α).Wp h s Q E ↔ Q a s := Iff.rfl

@[simp] theorem wp_pure (a : α) : (pure a : Prog S ε α).Wp h s Q E ↔ Q a s := Iff.rfl

@[simp] theorem wp_error (e : ε) : (Prog.done (.error e) : Prog S ε α).Wp h s Q E ↔ E s := Iff.rfl

theorem wp_call {c : S.Call} {k : Except ε (S.Res c) → Prog S ε α} :
    (Prog.call c k).Wp h s Q E ↔ (k (h c s).1).Wp h (h c s).2 Q E := Iff.rfl

/-- **The rule for sequencing.** -/
@[simp] theorem wp_bind (p : Prog S ε α) (f : α → Prog S ε β) (Q : β → σ → Prop) :
    (p >>= f).Wp h s Q E ↔ p.Wp h s (fun a s' => (f a).Wp h s' Q E) E := by
  rw [Wp, run_bind, post_next]
  rfl

@[simp] theorem wp_perform (c : S.Call) (Q : S.Res c → σ → Prop) :
    Wp (α := no_index (S.Res c)) h (perform c) s Q E ↔ Post Q E (h c s) := Iff.rfl

@[simp] theorem wp_attempt (c : S.Call) (Q : Except ε (S.Res c) → σ → Prop) :
    Wp (α := no_index (Except ε (S.Res c))) h (attempt c) s Q E ↔ Q (h c s).1 (h c s).2 := Iff.rfl

@[simp] theorem wp_ofExcept (r : Except ε α) :
    (ofExcept r : Prog S ε α).Wp h s Q E ↔ (∀ a, r = .ok a → Q a s) ∧ ∀ e, r = .error e → E s := by
  cases r <;> simp [ofExcept]

@[simp] theorem wp_ensure (p : Prop) [Decidable p] (e : ε) (Q : Unit → σ → Prop) :
    (ensure p e : Prog S ε Unit).Wp h s Q E ↔ (p → Q () s) ∧ (¬ p → E s) := by
  unfold ensure
  split <;> simp [*]

@[simp] theorem wp_okOrElse (o : Option α) (e : ε) :
    (okOrElse o e : Prog S ε α).Wp h s Q E ↔ (∀ a, o = some a → Q a s) ∧ (o = none → E s) := by
  cases o <;> simp [okOrElse]

@[simp] theorem wp_map (f : α → β) (p : Prog S ε α) (Q : β → σ → Prop) :
    (p.map f).Wp h s Q E ↔ p.Wp h s (fun a => Q (f a)) E := by
  rw [Prog.map, wp_bind]
  rfl

theorem Wp.mono {Q' : α → σ → Prop} {E' : σ → Prop} {p : Prog S ε α} (hp : p.Wp h s Q E)
    (hQ : ∀ a s, Q a s → Q' a s) (hE : ∀ s, E s → E' s) : p.Wp h s Q' E' :=
  Post.mono hp hQ hE

/-- A run succeeds in the one postcondition or fails in the other. -/
theorem Wp.elim {p : Prog S ε α} (hp : p.Wp h s Q E) {C : Except ε α → σ → Prop}
    (hQ : ∀ a s, Q a s → C (.ok a) s) (hE : ∀ e s, E s → C (.error e) s) :
    C (p.run h s).1 (p.run h s).2 := by
  rw [Wp] at hp
  generalize p.run h s = r at hp
  obtain ⟨e | a, s⟩ := r
  · exact hE e s hp
  · exact hQ a s hp

/-- What a run that succeeds ends in. -/
theorem Wp.of_ok {p : Prog S ε α} (hp : p.Wp h s Q E) {a : α} (ha : (p.run h s).1 = .ok a) :
    Q a (p.run h s).2 := by
  rw [Wp] at hp
  generalize p.run h s = r at hp ha
  obtain ⟨_ | _, _⟩ := r
  · cases ha
  · obtain rfl := Except.ok.inj ha
    exact hp

/-- What a run that fails ends in. -/
theorem Wp.of_error {p : Prog S ε α} (hp : p.Wp h s Q E) {e : ε} (he : (p.run h s).1 = .error e) :
    E (p.run h s).2 := by
  rw [Wp] at hp
  generalize p.run h s = r at hp he
  obtain ⟨_ | _, _⟩ := r
  · exact hp
  · cases he

/-- What holds of every run that succeeds. -/
theorem wp_of_ok {p : Prog S ε α} (hp : ∀ a, (p.run h s).1 = .ok a → Q a (p.run h s).2) :
    p.Wp h s Q fun _ => True := by
  rw [Wp]
  generalize p.run h s = r at hp
  obtain ⟨_ | a, _⟩ := r
  · trivial
  · exact hp a rfl

/-- What every run ends in, if both postconditions say it. -/
theorem Wp.state {I : σ → Prop} {p : Prog S ε α} (hp : p.Wp h s (fun _ => I) I) :
    I (p.run h s).2 := by
  rw [Wp] at hp
  generalize p.run h s = r at hp
  obtain ⟨_ | _, _⟩ := r <;> exact hp

theorem wp_iff_run {p : Prog S ε α} : p.Wp h s Q E ↔ Post Q E (p.run h s) := Iff.rfl

/-- The two postconditions, one for each outcome. -/
theorem wp_iff {p : Prog S ε α} : p.Wp h s Q E ↔
    (∀ a, (p.run h s).1 = .ok a → Q a (p.run h s).2) ∧
      ∀ e, (p.run h s).1 = .error e → E (p.run h s).2 := by
  rw [Wp]
  generalize p.run h s = r
  obtain ⟨_ | _, _⟩ := r <;> simp

-- the rules above compute it
attribute [irreducible] Wp

end Prog

/-! ### Calls that fail -/

/-- Which calls fail, by the number of calls before it: the error, and whether the call has
been carried out all the same. -/
abbrev Faults (ε : Type) : Type := ℕ → Option (ε × Bool)

/-- The handler that lets calls fail. -/
def faulty {S : Sig} {ε σ : Type} (h : Handler S ε σ) (f : Faults ε) : Handler S ε (σ × ℕ) :=
  fun c s =>
    match f s.2 with
    | some (e, true) => (.error e, ((h c s.1).2, s.2 + 1))
    | some (e, false) => (.error e, (s.1, s.2 + 1))
    | none => ((h c s.1).1, ((h c s.1).2, s.2 + 1))

/-- Only the call with this number fails, and it is not carried out. -/
def failsAt {ε : Type} (i : ℕ) (e : ε) : Faults ε :=
  fun n => if n = i then some (e, false) else none

section Faulty

variable {S : Sig} {ε σ : Type} {h : Handler S ε σ} {f : Faults ε} {c : S.Call}

theorem faulty_failsAt {i : ℕ} {e : ε} {s : σ × ℕ} :
    faulty h (failsAt i e) c s =
      if s.2 = i then (.error e, (s.1, s.2 + 1)) else ((h c s.1).1, ((h c s.1).2, s.2 + 1)) := by
  rw [faulty, failsAt]
  split <;> simp_all

/-- What holds after a call, if one call fails. -/
theorem post_failsAt {i : ℕ} {e : ε} {s : σ × ℕ} {Q : S.Res c → σ × ℕ → Prop} {E : σ × ℕ → Prop} :
    Prog.Post Q E (faulty h (failsAt i e) c s) ↔
      if s.2 = i then E (s.1, s.2 + 1)
      else Prog.Post (fun x t => Q x (t, s.2 + 1)) (fun t => E (t, s.2 + 1)) (h c s.1) := by
  rw [faulty_failsAt]
  split
  · rfl
  · generalize h c s.1 = r
    obtain ⟨_ | _, _⟩ := r <;> rfl

/-- **A call that may fail**: what holds after it, if `E` holds of the states before and
after it. -/
theorem post_faulty {s : σ × ℕ} {Q : S.Res c → σ × ℕ → Prop} {E : σ × ℕ → Prop}
    (hE : ∀ n, E (s.1, n) ∧ E ((h c s.1).2, n))
    (hQ : ∀ n x, (h c s.1).1 = .ok x → Q x ((h c s.1).2, n)) :
    Prog.Post Q E (faulty h f c s) := by
  unfold faulty
  split
  · exact (hE _).2
  · exact (hE _).1
  · cases hr : (h c s.1).1 with
    | error e => exact (hE _).2
    | ok x => exact hQ _ x hr

/-- A specification that is sound for a handler stays so when calls fail. -/
theorem Spec.Sound.faulty {Φ : Spec S} {I : σ → Prop} (hΦ : Φ.Sound h I) :
    Φ.Sound (faulty h f) fun s => I s.1 := by
  intro c s hs hpre
  obtain ⟨hI, hpost⟩ := hΦ c s.1 hs hpre
  unfold Effect.faulty
  split
  · exact ⟨hI, fun _ hx => nomatch hx⟩
  · exact ⟨hs, fun _ hx => nomatch hx⟩
  · exact ⟨hI, hpost⟩

end Faulty

end Effect
