import PeatGateway.Lib.Prog

/-!
# Interleaving programs

Several programs share one store.  Each of their calls is atomic, and between two
calls of one program any calls of the others may fall.  A *schedule* says which
program moves next and when new ones start; a program keeps its place in the list
of threads, so that a position names it in every later state.

## Main definitions

* `Pool`, `Pool.act`, `Pool.acts` — a store with threads, one move of it, and a
  whole schedule.
* `Pool.Always` — every move of a schedule satisfies a condition on the state it is
  made in.

## Main results

* `Pool.acts_inv` — the induction over schedules.
* `Pool.acts_meets` — **whatever the schedule, threads that meet a sound
  specification keep its invariant**.
* `Pool.forall_acts_iff_always`, `Pool.forall_store_iff_makes` — an invariant that is kept
  under a condition on the move holds all along a schedule exactly if every move satisfies
  the condition.
-/

namespace Effect

/-- A store and the programs running over it. -/
structure Pool (S : Sig) (ε σ α : Type) where
  /-- The shared store. -/
  store : σ
  /-- The programs, each at the point it has reached. -/
  threads : List (Prog S ε α)

/-- One move of a schedule. -/
inductive Act (S : Sig) (ε α : Type) : Type
  /-- A new program starts. -/
  | start (p : Prog S ε α)
  /-- The program at position `i` makes its next call, if it has one. -/
  | step (i : ℕ)

namespace Act

variable {S : Sig} {ε α : Type} {P : Prog S ε α → Prop} {q : Prog S ε α} {i : ℕ}
  {l : List (Act S ε α)}

/-! What holds of the programs that a given schedule starts, one move after the other. -/

theorem forall_start_nil : (∀ p, start p ∈ ([] : List (Act S ε α)) → P p) ↔ True := by simp

theorem forall_start_start :
    (∀ p, start p ∈ start q :: l → P p) ↔ P q ∧ ∀ p, start p ∈ l → P p := by
  constructor
  · intro h
    exact ⟨h q List.mem_cons_self, fun p hp => h p (List.mem_cons_of_mem _ hp)⟩
  · intro h p hp
    cases hp with
    | head => exact h.1
    | tail _ hp => exact h.2 p hp

theorem forall_start_step :
    (∀ p, start p ∈ step i :: l → P p) ↔ ∀ p, start p ∈ l → P p := by
  simp only [List.mem_cons, reduceCtorEq, false_or]

end Act

namespace Pool

variable {S : Sig} {ε σ α : Type}

/-- One move.  A position that holds no call to make is passed over. -/
def act (h : Handler S ε σ) (P : Pool S ε σ α) : Act S ε α → Pool S ε σ α
  | .start p => ⟨P.store, P.threads ++ [p]⟩
  | .step i =>
    match P.threads[i]? with
    | some (.call c k) => ⟨(h c P.store).2, P.threads.set i (k (h c P.store).1)⟩
    | _ => P

/-- The state a schedule leads to. -/
def acts (h : Handler S ε σ) (P : Pool S ε σ α) (l : List (Act S ε α)) : Pool S ε σ α :=
  l.foldl (act h) P

@[simp] theorem acts_nil (h : Handler S ε σ) (P : Pool S ε σ α) : P.acts h [] = P := rfl

@[simp] theorem acts_cons (h : Handler S ε σ) (P : Pool S ε σ α) (a : Act S ε α)
    (l : List (Act S ε α)) : P.acts h (a :: l) = (P.act h a).acts h l := rfl

theorem acts_append (h : Handler S ε σ) (P : Pool S ε σ α) (l l' : List (Act S ε α)) :
    P.acts h (l ++ l') = (P.acts h l).acts h l' := List.foldl_append

@[simp] theorem act_start (h : Handler S ε σ) (P : Pool S ε σ α) (p : Prog S ε α) :
    P.act h (.start p) = ⟨P.store, P.threads ++ [p]⟩ := rfl

theorem act_step_call {h : Handler S ε σ} {P : Pool S ε σ α} {i : ℕ} {c : S.Call}
    {k : Except ε (S.Res c) → Prog S ε α} (hi : P.threads[i]? = some (.call c k)) :
    P.act h (.step i) = ⟨(h c P.store).2, P.threads.set i (k (h c P.store).1)⟩ := by
  simp only [act, hi]

/-- **What a step can be**: nothing, or one call of the program at its position. -/
theorem act_step_cases (h : Handler S ε σ) (P : Pool S ε σ α) (i : ℕ) :
    P.act h (.step i) = P ∨
      ∃ c k, P.threads[i]? = some (.call c k) ∧
        P.act h (.step i) = ⟨(h c P.store).2, P.threads.set i (k (h c P.store).1)⟩ := by
  cases hi : P.threads[i]? with
  | none => exact Or.inl (by simp only [act, hi])
  | some p =>
    cases p with
    | done r => exact Or.inl (by simp only [act, hi])
    | call c k => exact Or.inr ⟨c, k, rfl, act_step_call hi⟩

/-- **The induction over schedules.** -/
theorem acts_inv {h : Handler S ε σ} {J : Pool S ε σ α → Prop} {l : List (Act S ε α)}
    (hact : ∀ P, J P → ∀ a ∈ l, J (P.act h a)) {P : Pool S ε σ α} (hP : J P) :
    J (P.acts h l) := by
  induction l generalizing P with
  | nil => exact hP
  | cons a l ih =>
    exact ih (fun P hP b hb => hact P hP b (List.mem_cons_of_mem _ hb))
      (hact P hP a List.mem_cons_self)

/-- **Whatever the schedule, threads that meet a sound specification keep its
invariant.** -/
theorem acts_meets {h : Handler S ε σ} {Φ : Spec S} {I : σ → Prop} {Q : α → Prop}
    (hΦ : Φ.Sound h I) {P : Pool S ε σ α} (hI : I P.store)
    (ht : ∀ p ∈ P.threads, p.Meets Φ Q) {l : List (Act S ε α)}
    (hl : ∀ p, Act.start p ∈ l → p.Meets Φ Q) :
    I (P.acts h l).store ∧ ∀ p ∈ (P.acts h l).threads, p.Meets Φ Q := by
  refine acts_inv (J := fun P => I P.store ∧ ∀ p ∈ P.threads, p.Meets Φ Q) ?_ ⟨hI, ht⟩
  rintro P ⟨hI, ht⟩ a ha
  cases a with
  | start p =>
    refine ⟨hI, ?_⟩
    intro q hq
    rcases List.mem_append.mp hq with hq | hq
    · exact ht q hq
    · rw [List.mem_singleton.mp hq]
      exact hl p ha
  | step i =>
    rcases act_step_cases h P i with heq | ⟨c, k, hi, heq⟩
    · rw [heq]
      exact ⟨hI, ht⟩
    -- One call is made, and the rest of its thread meets the specification again.
    · obtain ⟨hI', hk⟩ := (ht _ (List.mem_of_getElem? hi)).step hΦ hI
      rw [heq]
      refine ⟨hI', ?_⟩
      intro q hq
      rcases List.mem_or_eq_of_mem_set hq with hq | rfl
      · exact ht q hq
      · exact hk

/-- No program of the pool is under way. -/
def AllReturned (P : Pool S ε σ α) : Prop := ∀ p ∈ P.threads, p.returned.isSome = true

instance (P : Pool S ε σ α) : Decidable P.AllReturned :=
  inferInstanceAs (Decidable (∀ p ∈ P.threads, p.returned.isSome = true))

/-- The other programs stay in the pool when one moves on. -/
theorem mem_set_of_ne {l : List (Prog S ε α)} {p q r : Prog S ε α} {i : ℕ} (hp : p ∈ l)
    (hi : l[i]? = some q) (hne : p ≠ q) : p ∈ l.set i r := by
  obtain ⟨j, hj⟩ := List.mem_iff_getElem?.mp hp
  refine List.mem_iff_getElem?.mpr ⟨j, ?_⟩
  rw [List.getElem?_set_ne, hj]
  rintro rfl
  rw [hi] at hj
  exact hne (Option.some.inj hj).symm

/-- Every move of the schedule satisfies `cond` in the state it is made in. -/
def Always (h : Handler S ε σ) (cond : Pool S ε σ α → Act S ε α → Prop) :
    Pool S ε σ α → List (Act S ε α) → Prop
  | _, [] => True
  | P, a :: l => cond P a ∧ Always h cond (P.act h a) l

/-- The induction over schedules all of whose moves satisfy a condition. -/
theorem Always.inv {h : Handler S ε σ} {cond : Pool S ε σ α → Act S ε α → Prop}
    {J : Pool S ε σ α → Prop} {l : List (Act S ε α)}
    (hact : ∀ P, ∀ a ∈ l, J P → cond P a → J (P.act h a)) {P : Pool S ε σ α}
    (hl : Always h cond P l) (hP : J P) : J (P.acts h l) := by
  induction l generalizing P with
  | nil => exact hP
  | cons a l ih =>
    exact ih (fun P b hb => hact P b (List.mem_cons_of_mem _ hb)) hl.2
      (hact P a List.mem_cons_self hP hl.1)

theorem always_append {h : Handler S ε σ} {cond : Pool S ε σ α → Act S ε α → Prop}
    {P : Pool S ε σ α} {l l' : List (Act S ε α)} :
    Always h cond P (l ++ l') ↔ Always h cond P l ∧ Always h cond (P.acts h l) l' := by
  induction l generalizing P with
  | nil => simp [Always]
  | cons a l ih => simp only [List.cons_append, Always, ih, acts_cons, and_assoc]

theorem Always.and {h : Handler S ε σ} {cond cond' : Pool S ε σ α → Act S ε α → Prop}
    {P : Pool S ε σ α} {l : List (Act S ε α)} (hl : Always h cond P l) (hl' : Always h cond' P l) :
    Always h (fun P a => cond P a ∧ cond' P a) P l := by
  induction l generalizing P with
  | nil => trivial
  | cons a l ih => exact ⟨⟨hl.1, hl'.1⟩, ih hl.2 hl'.2⟩

/-- Every move satisfies the condition if each does after all the moves before it. -/
theorem always_of_append {h : Handler S ε σ} {cond : Pool S ε σ α → Act S ε α → Prop}
    {P : Pool S ε σ α} {l : List (Act S ε α)}
    (hl : ∀ l₁ a l₂, l = l₁ ++ a :: l₂ → cond (P.acts h l₁) a) : Always h cond P l := by
  induction l generalizing P with
  | nil => trivial
  | cons a l ih =>
    refine ⟨hl [] a l rfl, ih ?_⟩
    intro l₁ b l₂ heq
    exact hl (a :: l₁) b l₂ (by rw [heq, List.cons_append])

/-- **An invariant holds all along a schedule exactly if every move keeps the condition under
which it is kept.** -/
theorem forall_acts_iff_always {h : Handler S ε σ} {J : Pool S ε σ α → Prop}
    {cond : Pool S ε σ α → Act S ε α → Prop}
    (hact : ∀ P a, J P → (J (P.act h a) ↔ cond P a)) {P : Pool S ε σ α} (hP : J P)
    {l : List (Act S ε α)} :
    (∀ l₁ l₂, l = l₁ ++ l₂ → J (P.acts h l₁)) ↔ Always h cond P l := by
  constructor
  · intro hall
    refine always_of_append fun l₁ a l₂ heq => (hact _ a (hall l₁ (a :: l₂) heq)).mp ?_
    have hnext := hall (l₁ ++ [a]) l₂ (by simp [heq])
    rwa [acts_append] at hnext
  · rintro halways l₁ l₂ rfl
    refine (always_append.mp halways).1.inv ?_ hP
    intro P a _ hJ hcond
    exact (hact P a hJ).mpr hcond

/-- If the move is a step that makes a call, the call satisfies `pre` in the store it is made
in. -/
def Makes (pre : S.Call → σ → Prop) (P : Pool S ε σ α) (a : Act S ε α) : Prop :=
  ∀ i c k, a = .step i → P.threads[i]? = some (.call c k) → pre c P.store

/-- What a move does to the store: nothing, or one call. -/
theorem act_store_cases (h : Handler S ε σ) (P : Pool S ε σ α) (a : Act S ε α) :
    ((P.act h a).store = P.store ∧ ∀ pre, Makes pre P a) ∨
      ∃ c, (P.act h a).store = (h c P.store).2 ∧ ∀ pre, Makes pre P a ↔ pre c P.store := by
  -- A move that is no step of a thread under way makes no call at all.
  have hidle : (∀ i c k, a = .step i → P.threads[i]? ≠ some (.call c k)) → ∀ pre, Makes pre P a :=
    fun hne pre i c k ha hi => absurd hi (hne i c k ha)
  cases a with
  | start p => exact Or.inl ⟨rfl, hidle nofun⟩
  | step i =>
    cases hi : P.threads[i]? with
    | none =>
      refine Or.inl ⟨by simp only [act, hi], hidle ?_⟩
      rintro _ c k ⟨⟩ hcall
      rw [hi] at hcall
      cases hcall
    | some p =>
      cases p with
      | done r =>
        refine Or.inl ⟨by simp only [act, hi], hidle ?_⟩
        rintro _ c k ⟨⟩ hcall
        rw [hi] at hcall
        cases hcall
      | call c k =>
        refine Or.inr ⟨c, by rw [act_step_call hi], fun pre => ⟨fun hm => hm i c k rfl hi, ?_⟩⟩
        rintro hpre _ c' k' ⟨⟩ hcall
        rw [hi] at hcall
        cases hcall
        exact hpre

/-- **A property of the store holds all along a schedule exactly if every call is made where
it keeps the property.** -/
theorem forall_store_iff_makes {h : Handler S ε σ} {I : σ → Prop} {pre : S.Call → σ → Prop}
    (hcall : ∀ c s, I s → (I (h c s).2 ↔ pre c s)) {P : Pool S ε σ α} (hP : I P.store)
    {l : List (Act S ε α)} :
    (∀ l₁ l₂, l = l₁ ++ l₂ → I (P.acts h l₁).store) ↔ Always h (Makes pre) P l := by
  refine forall_acts_iff_always (J := fun P => I P.store) ?_ hP
  intro P a hI
  rcases act_store_cases h P a with ⟨hstore, hmakes⟩ | ⟨c, hstore, hmakes⟩
  · rw [hstore]
    exact iff_of_true hI (hmakes pre)
  · rw [hstore, hmakes]
    exact hcall c P.store hI

end Pool
end Effect
