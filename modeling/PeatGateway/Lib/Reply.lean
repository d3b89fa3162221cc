import PeatGateway.Lib.Wp

/-!
# Programs that answer or refuse

A request handler calls programs that may fail, turns each failure into a refusal of its
own, and otherwise goes on.  It is a program whose value is an answer or a refusal.

## Main definitions

* `Prog.outcome` — run a program and return its outcome, error included.
* `Reply` — programs that answer or refuse; `Reply.orElse` turns errors into refusals.
* `Reply.Answers` — what holds whenever the handler answers.
* `Reply.Ends` — what holds of the answer or the refusal a handler ends with.
* `Reply.Meets` — the handler respects a specification of the calls.

## Main results

* `Prog.run_outcome` — the run of a program whose error is looked at.
* `Reply.answers_bind`, `Reply.ends_bind`, `Reply.meets_bind` — **the rules for sequencing**.
-/

namespace Effect

variable {S : Sig} {ε σ ρ α β : Type}

/-- Run the program and return its outcome, error included. -/
def Prog.outcome : Prog S ε α → Prog S ε (Except ε α)
  | .done r => .done (.ok r)
  | .call c k => .call c fun r => (k r).outcome

@[simp] theorem Prog.run_outcome (h : Handler S ε σ) (p : Prog S ε α) (s : σ) :
    p.outcome.run h s = (.ok (p.run h s).1, (p.run h s).2) := by
  induction p generalizing s with
  | done r => rfl
  | call c k ih => exact ih _ _

/-- What holds along a program whose outcome is looked at, and along what follows it. -/
theorem Prog.along_outcome_bind {h : Handler S ε σ} {pre : S.Call → σ → Prop} (p : Prog S ε α)
    (f : Except ε α → Prog S ε β) (s : σ) :
    (p.outcome >>= f).Along h pre s ↔
      p.Along h pre s ∧ (f (p.run h s).1).Along h pre (p.run h s).2 := by
  induction p generalizing s with
  | done r => simp [outcome]
  | call c k ih => simp only [outcome, call_bind, along_call, ih, run_call, and_assoc]

/-- Looking at the outcome makes no other calls. -/
theorem Prog.meets_outcome {p : Prog S ε α} {Φ : Spec S} {Q : Except ε α → Prop}
    (hp : p.Meets Φ fun a => Q (.ok a)) (he : ∀ e, Q (.error e)) :
    p.outcome.Meets Φ Q := by
  induction p with
  | done r =>
    cases r with
    | error e => exact (Prog.meets_ok _).mpr (he e)
    | ok a => exact (Prog.meets_ok _).mpr ((Prog.meets_ok a).mp hp)
  | call c k ih =>
    obtain ⟨hpre, herr, hok⟩ := (Prog.meets_call c k).mp hp
    refine (Prog.meets_call c _).mpr ⟨hpre, fun e => ih _ (herr e), fun x hx => ih _ (hok x hx)⟩

/-- Programs that answer with an `α` or refuse with a `ρ`. -/
abbrev Reply (S : Sig) (ε ρ α : Type) : Type := ExceptT ρ (Prog S ε) α

namespace Reply

/-- Answer with the value of the program, or refuse with what its error is turned into. -/
def orElse (p : Prog S ε α) (f : ε → ρ) : Reply S ε ρ α :=
  ExceptT.mk (p.outcome.map fun r => r.mapError f)

/-- Go on with the outcome of the program, error included. -/
def outcome (p : Prog S ε α) : Reply S ε ρ (Except ε α) := ExceptT.mk (p.outcome.map .ok)

/-- Refuse. -/
def refuse (e : ρ) : Reply S ε ρ α := ExceptT.mk (.done (.ok (.error e)))

/-- Refuse unless `p` holds. -/
def ensure (p : Prop) [Decidable p] (e : ρ) : Reply S ε ρ Unit := if p then pure () else refuse e

/-- Answer with the value of an option, or refuse. -/
def okOrElse (o : Option α) (e : ρ) : Reply S ε ρ α :=
  match o with
  | some a => pure a
  | none => refuse e

/-- A computation that makes no call. -/
def ofExcept (r : Except ρ α) : Reply S ε ρ α := ExceptT.mk (.done (.ok r))

/-- Whenever the handler answers, `Q` holds of the answer and of the state then. -/
def Answers (h : Handler S ε σ) (x : Reply S ε ρ α) (s : σ) (Q : α → σ → Prop) : Prop :=
  ∀ a, (x.run.run h s).1 = .ok (.ok a) → Q a (x.run.run h s).2

section Answers

variable {h : Handler S ε σ} {s : σ} {Q : α → σ → Prop}

@[simp] theorem answers_pure (a : α) :
    Answers h (pure a : Reply S ε ρ α) s Q ↔ Q a s := by
  refine ⟨fun hp => hp a rfl, ?_⟩
  rintro hQ _ ⟨⟩
  exact hQ

@[simp] theorem answers_refuse (e : ρ) : Answers h (refuse e : Reply S ε ρ α) s Q := nofun

/-- **The rule for sequencing.** -/
@[simp] theorem answers_bind (x : Reply S ε ρ α) (f : α → Reply S ε ρ β) (Q : β → σ → Prop) :
    Answers h (x >>= f) s Q ↔ Answers h x s fun a s' => Answers h (f a) s' Q := by
  have hrun : (x >>= f).run.run h s =
      Prog.next (fun r => (ExceptT.bindCont f r).run h) (x.run.run h s) :=
    Prog.run_bind h x.run _ s
  rw [Answers, hrun, Answers]
  generalize x.run.run h s = r
  obtain ⟨e | e | a, s'⟩ := r
  · exact ⟨nofun, nofun⟩
  · exact ⟨nofun, nofun⟩
  · constructor
    · rintro hb _ ⟨⟩
      exact hb
    · intro hb
      exact hb a rfl

/-- A program whose errors are turned into refusals. -/
@[simp] theorem answers_orElse (p : Prog S ε α) (f : ε → ρ) :
    Answers h (orElse p f) s Q ↔ p.Wp h s Q fun _ => True := by
  have hrun : (orElse p f).run.run h s = (.ok ((p.run h s).1.mapError f), (p.run h s).2) := by
    change (p.outcome.map _).run h s = _
    rw [Prog.map, Prog.run_bind, Prog.run_outcome]
    rfl
  rw [Answers, hrun]
  constructor
  · intro hp
    refine Prog.wp_of_ok fun a ha => hp a ?_
    rw [ha]
    rfl
  · intro hp a ha
    cases hr : (p.run h s).1 with
    | error e => rw [hr] at ha; cases ha
    | ok b =>
      rw [hr] at ha
      obtain rfl : b = a := by cases ha; rfl
      exact hp.of_ok hr

/-- A program whose outcome is looked at. -/
theorem answers_outcome {p : Prog S ε α} {Q : Except ε α → σ → Prop}
    (hp : p.Wp h s (fun a => Q (.ok a)) fun s' => ∀ e, Q (.error e) s') :
    Answers h (outcome p : Reply S ε ρ _) s Q := by
  have hrun : (outcome p : Reply S ε ρ _).run.run h s =
      (.ok (.ok (p.run h s).1), (p.run h s).2) := by
    change (p.outcome.map _).run h s = _
    rw [Prog.map, Prog.run_bind, Prog.run_outcome]
    rfl
  rw [Answers, hrun]
  rintro _ ⟨⟩
  exact hp.elim (fun _ _ hQ => hQ) fun e _ hQ => hQ e

@[simp] theorem answers_ensure (p : Prop) [Decidable p] (e : ρ) (Q : Unit → σ → Prop) :
    Answers h (ensure p e : Reply S ε ρ Unit) s Q ↔ (p → Q () s) := by
  unfold ensure
  split <;> simp [*]

@[simp] theorem answers_okOrElse (o : Option α) (e : ρ) :
    Answers h (okOrElse o e : Reply S ε ρ α) s Q ↔ ∀ a, o = some a → Q a s := by
  cases o <;> simp [okOrElse]

@[simp] theorem answers_ofExcept (r : Except ρ α) :
    Answers h (ofExcept r : Reply S ε ρ α) s Q ↔ ∀ a, r = .ok a → Q a s := by
  constructor
  · rintro hp a rfl
    exact hp a rfl
  · intro hp a ha
    exact hp a (Except.ok.inj ha)

theorem Answers.mono {Q' : α → σ → Prop} {x : Reply S ε ρ α} (hx : Answers h x s Q)
    (hQ : ∀ a s, Q a s → Q' a s) : Answers h x s Q' :=
  fun a ha => hQ a _ (hx a ha)

/-- What holds of an answer that has been given. -/
@[elab_as_elim] theorem Answers.of_run {x : Reply S ε ρ α} {a : α} {s' : σ}
    (hrun : x.run.run h s = (.ok (.ok a), s')) (hx : Answers h x s Q) : Q a s' := by
  have hQ := hx a (congrArg Prod.fst hrun)
  rw [hrun] at hQ
  exact hQ

end Answers

/-! ### Answers and refusals -/

/-- The handler ends with an answer or a refusal, and `Q` holds of it and of the state then. -/
def Ends (h : Handler S ε σ) (x : Reply S ε ρ α) (s : σ) (Q : Except ρ α → σ → Prop) : Prop :=
  x.run.Wp h s Q fun _ => False

section Ends

variable {h : Handler S ε σ} {s : σ} {Q : Except ρ α → σ → Prop}

@[simp] theorem ends_pure (a : α) :
    Ends h (pure a : Reply S ε ρ α) s Q ↔ Q (.ok a) s := Prog.wp_ok _

@[simp] theorem ends_refuse (e : ρ) :
    Ends h (refuse e : Reply S ε ρ α) s Q ↔ Q (.error e) s := Prog.wp_ok _

@[simp] theorem ends_ofExcept (r : Except ρ α) :
    Ends h (ofExcept r : Reply S ε ρ α) s Q ↔ Q r s := Prog.wp_ok _

theorem Ends.mono {Q' : Except ρ α → σ → Prop} {x : Reply S ε ρ α} (hx : Ends h x s Q)
    (hQ : ∀ r s, Q r s → Q' r s) : Ends h x s Q' :=
  Prog.Wp.mono hx hQ fun _ hE => hE

/-- What holds of every answer or refusal holds of the answers. -/
theorem Ends.answers {x : Reply S ε ρ α} (hx : Ends h x s Q) : Answers h x s fun a => Q (.ok a) :=
  fun _ ha => (Prog.wp_iff.mp hx).1 _ ha

/-- What follows an answer. -/
theorem ok_and {P : α → Prop} {R : ρ → Prop} {a : α} :
    ((∀ a', (Except.ok a : Except ρ α) = .ok a' → P a') ∧
      ∀ e, (Except.ok a : Except ρ α) = .error e → R e) ↔ P a := by
  constructor
  · intro h
    exact h.1 a rfl
  · intro h
    exact ⟨fun a' ha => Except.ok.inj ha ▸ h, nofun⟩

/-- What follows a refusal. -/
theorem error_and {P : α → Prop} {R : ρ → Prop} {e : ρ} :
    ((∀ a, (Except.error e : Except ρ α) = .ok a → P a) ∧
      ∀ e', (Except.error e : Except ρ α) = .error e' → R e') ↔ R e := by
  constructor
  · intro h
    exact h.2 e rfl
  · intro h
    exact ⟨nofun, fun e' he => Except.error.inj he ▸ h⟩

/-- **The rule for sequencing**: a refusal is the end. -/
@[simp] theorem ends_bind (x : Reply S ε ρ α) (f : α → Reply S ε ρ β)
    (Q : Except ρ β → σ → Prop) :
    Ends h (x >>= f) s Q ↔ Ends h x s fun r s' =>
      (∀ a, r = .ok a → Ends h (f a) s' Q) ∧ ∀ e, r = .error e → Q (.error e) s' := by
  have hbind : Ends h (x >>= f) s Q ↔
      x.run.Wp h s (fun r s' => (ExceptT.bindCont f r).Wp h s' Q fun _ => False) fun _ => False :=
    Prog.wp_bind x.run _ _
  rw [hbind]
  refine ⟨fun hx => hx.mono ?_ fun _ hE => hE,
    fun hx => Prog.Wp.mono hx ?_ fun _ hE => hE⟩
  · intro r s' hr
    cases r with
    | error e => exact error_and.mpr ((Prog.wp_ok _).mp hr)
    | ok a => exact ok_and.mpr hr
  · intro r s' hr
    cases r with
    | error e => exact (Prog.wp_ok _).mpr (hr.2 e rfl)
    | ok a => exact hr.1 a rfl

@[simp] theorem ends_ensure (p : Prop) [Decidable p] (e : ρ) (Q : Except ρ Unit → σ → Prop) :
    Ends h (ensure p e : Reply S ε ρ Unit) s Q ↔ (p → Q (.ok ()) s) ∧ (¬ p → Q (.error e) s) := by
  unfold ensure
  split <;> simp [*]

@[simp] theorem ends_okOrElse (o : Option α) (e : ρ) :
    Ends h (okOrElse o e : Reply S ε ρ α) s Q ↔
      (∀ a, o = some a → Q (.ok a) s) ∧ (o = none → Q (.error e) s) := by
  cases o <;> simp [okOrElse]

/-- A program whose outcome is looked at, whichever it is. -/
theorem ends_outcome {p : Prog S ε α} {Q : Except ρ (Except ε α) → σ → Prop}
    (hp : p.Wp h s (fun a => Q (.ok (.ok a))) fun s' => ∀ e, Q (.ok (.error e)) s') :
    Ends h (outcome p : Reply S ε ρ _) s Q := by
  have hrun : p.outcome.Wp h s (fun r => Q (.ok r)) fun _ => False := by
    rw [Prog.wp_iff_run, Prog.run_outcome, Prog.post_ok]
    exact hp.elim (C := fun r => Q (.ok r)) (fun _ _ hQ => hQ) fun e _ hQ => hQ e
  exact (Prog.wp_map _ _ _).mpr hrun

/-- A program whose errors are turned into refusals. -/
theorem ends_orElse {p : Prog S ε α} {f : ε → ρ}
    (hp : p.Wp h s (fun a => Q (.ok a)) fun s' => ∀ e, Q (.error (f e)) s') :
    Ends h (orElse p f) s Q := by
  have hrun : p.outcome.Wp h s (fun r => Q (r.mapError f)) fun _ => False := by
    rw [Prog.wp_iff_run, Prog.run_outcome, Prog.post_ok]
    exact hp.elim (C := fun r => Q (r.mapError f)) (fun _ _ hQ => hQ) fun e _ hQ => hQ e
  exact (Prog.wp_map _ _ _).mpr hrun

/-- What the run of the handler is. -/
theorem Ends.run {x : Reply S ε ρ α} (hx : Ends h x s Q) :
    ∃ r, (x.run.run h s).1 = .ok r ∧ Q r (x.run.run h s).2 :=
  Prog.Wp.elim hx (C := fun r s' => ∃ r', r = .ok r' ∧ Q r' s') (fun r _ hQ => ⟨r, rfl, hQ⟩)
    fun _ _ hE => hE.elim

end Ends

/-! ### Specifications of the calls -/

/-- The handler makes only the calls `Φ` allows, and its answers satisfy `Q`. -/
def Meets (Φ : Spec S) (x : Reply S ε ρ α) (Q : α → Prop) : Prop :=
  x.run.Meets Φ fun r => ∀ a, r = .ok a → Q a

section Meets

variable {Φ : Spec S} {Q : α → Prop}

theorem meets_run {x : Reply S ε ρ α} (hx : Meets Φ x Q) :
    x.run.Meets Φ fun r => ∀ a, r = .ok a → Q a := hx

/-- A handler that does not refuse. -/
theorem meets_of_run {x : Reply S ε ρ α} (hx : x.run.Meets Φ fun r => ∃ a, r = .ok a) :
    Meets Φ x fun _ => True :=
  hx.mono fun _ _ _ _ => trivial

@[simp] theorem meets_pure (a : α) : Meets Φ (pure a : Reply S ε ρ α) Q ↔ Q a := by
  refine (Prog.meets_ok _).trans ⟨fun hp => hp a rfl, ?_⟩
  rintro hQ _ ⟨⟩
  exact hQ

@[simp] theorem meets_refuse (e : ρ) : Meets Φ (refuse e : Reply S ε ρ α) Q :=
  (Prog.meets_ok _).mpr nofun

@[simp] theorem meets_bind (x : Reply S ε ρ α) (f : α → Reply S ε ρ β) (Q : β → Prop) :
    Meets Φ (x >>= f) Q ↔ Meets Φ x fun a => Meets Φ (f a) Q := by
  have hrun : Meets Φ (x >>= f) Q ↔ x.run.Meets Φ fun r =>
      (ExceptT.bindCont f r).Meets Φ fun r => ∀ b, r = .ok b → Q b :=
    Prog.meets_bind x.run _ _
  rw [hrun]
  refine ⟨fun h => h.mono ?_, fun h => h.mono ?_⟩
  · intro r hr
    rintro a rfl
    exact hr
  · intro r hr
    cases r with
    | error e => exact (Prog.meets_ok _).mpr nofun
    | ok a => exact hr a rfl

theorem meets_orElse {p : Prog S ε α} {f : ε → ρ} (hp : p.Meets Φ Q) :
    Meets Φ (orElse p f) Q := by
  refine (Prog.meets_map _ _ _).mpr (Prog.meets_outcome (hp.mono ?_) fun e => nofun)
  intro a ha
  rintro _ ⟨⟩
  exact ha

/-- The program may be part of another that does nothing more. -/
theorem meets_orElse_of_map {p : Prog S ε α} {f : α → β} {g : ε → ρ} {Q : β → Prop}
    (hp : (p.map f).Meets Φ Q) : Meets Φ (orElse p g) fun a => Q (f a) :=
  meets_orElse ((Prog.meets_map f p Q).mp hp)

theorem meets_outcome {p : Prog S ε α} {Q : Except ε α → Prop}
    (hp : p.Meets Φ fun a => Q (.ok a)) (he : ∀ e, Q (.error e)) :
    Meets Φ (outcome p : Reply S ε ρ _) Q := by
  refine (Prog.meets_map _ _ _).mpr ((Prog.meets_outcome hp he).mono ?_)
  intro r hr
  rintro _ ⟨⟩
  exact hr

@[simp] theorem meets_ensure (p : Prop) [Decidable p] (e : ρ) (Q : Unit → Prop) :
    Meets Φ (ensure p e : Reply S ε ρ Unit) Q ↔ (p → Q ()) := by
  unfold ensure
  split <;> simp [*]

@[simp] theorem meets_okOrElse (o : Option α) (e : ρ) :
    Meets Φ (okOrElse o e : Reply S ε ρ α) Q ↔ ∀ a, o = some a → Q a := by
  cases o <;> simp [okOrElse]

@[simp] theorem meets_ofExcept (r : Except ρ α) :
    Meets Φ (ofExcept r : Reply S ε ρ α) Q ↔ ∀ a, r = .ok a → Q a :=
  Prog.meets_ok _

theorem Meets.mono {Q' : α → Prop} {x : Reply S ε ρ α} (hx : Meets Φ x Q)
    (hQ : ∀ a, Q a → Q' a) : Meets Φ x Q' :=
  Prog.Meets.mono (fun _ hr a ha => hQ a (hr a ha)) hx

end Meets

-- the rules above compute them
attribute [irreducible] Answers Ends Meets

end Reply

end Effect
