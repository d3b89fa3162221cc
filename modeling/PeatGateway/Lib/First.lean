import Mathlib.Data.List.Sort

/-!
# The first element by a preorder

Sorting a list by a total preorder, stably, and taking the first element that passes a test
gives the element that is least and, among equals, stands first.  Which one that is can be
told without sorting.

## Main definitions

* `First.first r p l` — the element, found by one walk over the list.
* `First.IsFirst` — the element at some position passes the test, and comes before every
  other that does.

## Main results

* `First.find?_insertionSort` — **the first of the sorted list is the first by the preorder**.
* `First.first_eq_some_iff` — **what the first is**.
* `First.first_filter_self`, `First.first_congr` — the elements that do not matter.
* `First.first_map` — the first of an image.
* `First.map_first_congr` — the order of the list matters among the least elements only.
-/

namespace First

variable {α β : Type} {r : α → α → Prop} [DecidableRel r] {p : α → Bool} {l l' : List α}
  {a b : α}

/-- The better of an element and the best of what follows it. -/
def better (r : α → α → Prop) [DecidableRel r] (a : α) : Option α → α
  | none => a
  | some b => if r a b then a else b

/-- The least element that passes the test; of several, the one that stands first. -/
def first (r : α → α → Prop) [DecidableRel r] (p : α → Bool) : List α → Option α
  | [] => none
  | a :: l => if p a then some (better r a (first r p l)) else first r p l

/-- The element stands at position `i`, passes the test, and comes before every other that
does: it is below, or it is equal and stands further in front. -/
def IsFirst (r : α → α → Prop) (p : α → Bool) (l : List α) (a : α) : Prop :=
  ∃ i : ℕ, l[i]? = some a ∧ p a = true ∧
    ∀ (j : ℕ) (b : α), l[j]? = some b → p b = true → r a b ∧ (r b a → i ≤ j)

theorem first_cons_of_pos (h : p a = true) :
    first r p (a :: l) = some (better r a (first r p l)) := if_pos h

theorem first_cons_of_neg (h : ¬ p a = true) : first r p (a :: l) = first r p l := if_neg h

/-! ### Sorting -/

/-- Inserting an element into a sorted list. -/
theorem find?_orderedInsert [Std.Refl r] [IsTrans α r] (hl : l.Pairwise r) :
    (l.orderedInsert r a).find? p =
      if p a then some (better r a (l.find? p)) else l.find? p := by
  induction l with
  | nil =>
    rw [List.orderedInsert_nil, List.find?_singleton]
    rfl
  | cons b l ih =>
    obtain ⟨hb, hl⟩ := List.pairwise_cons.mp hl
    rw [List.orderedInsert_cons]
    by_cases hab : r a b
    · rw [if_pos hab]
      by_cases hpa : p a = true
      · rw [List.find?_cons_of_pos hpa, if_pos hpa]
        -- whatever passes in the list is not below its head, and so not below `a`
        have hbest : better r a ((b :: l).find? p) = a := by
          cases hf : (b :: l).find? p with
          | none => rfl
          | some c =>
            have hbc : r b c := by
              rcases List.mem_cons.mp (List.mem_of_find?_eq_some hf) with rfl | hc
              · exact refl_of r _
              · exact hb c hc
            exact if_pos (trans_of r hab hbc)
        rw [hbest]
      · rw [List.find?_cons_of_neg hpa, if_neg hpa]
    · rw [if_neg hab]
      by_cases hpb : p b = true
      · rw [List.find?_cons_of_pos hpb, List.find?_cons_of_pos hpb]
        by_cases hpa : p a = true
        · rw [if_pos hpa, better, if_neg hab]
        · rw [if_neg hpa]
      · rw [List.find?_cons_of_neg hpb, List.find?_cons_of_neg hpb, ih hl]

/-- Nothing is first exactly if nothing passes. -/
theorem first_eq_none_iff : first r p l = none ↔ ∀ b ∈ l, p b = false := by
  induction l with
  | nil => simp [first]
  | cons a l ih =>
    by_cases hpa : p a = true
    · rw [first_cons_of_pos hpa]
      simp [hpa]
    · rw [first_cons_of_neg hpa, ih]
      simp [Bool.eq_false_iff.mpr hpa]

variable [Std.Total r] [IsTrans α r]

/-- **The first of the sorted list is the first by the preorder.** -/
theorem find?_insertionSort (l : List α) : (l.insertionSort r).find? p = first r p l := by
  induction l with
  | nil => rfl
  | cons a l ih =>
    rw [List.insertionSort_cons, find?_orderedInsert (List.pairwise_insertionSort r l), ih, first]

/-! ### What the first is -/

/-- What is found is the first. -/
theorem isFirst_of_first (h : first r p l = some a) : IsFirst r p l a := by
  induction l generalizing a with
  | nil => cases h
  | cons c l ih =>
    by_cases hpc : p c = true
    · rw [first_cons_of_pos hpc] at h
      obtain rfl := Option.some.inj h
      cases hf : first r p l with
      | none =>
        have hnone := first_eq_none_iff.mp hf
        refine ⟨0, rfl, hpc, ?_⟩
        intro j b hj hb
        cases j with
        | zero =>
          obtain rfl := Option.some.inj hj
          exact ⟨refl_of r _, fun _ => le_refl 0⟩
        | succ j =>
          rw [hnone b (List.mem_of_getElem? hj)] at hb
          cases hb
      | some d =>
        obtain ⟨i, hi, hpd, hleast⟩ := ih hf
        by_cases hcd : r c d
        · rw [better, if_pos hcd]
          refine ⟨0, rfl, hpc, fun j b hj hb => ⟨?_, fun _ => Nat.zero_le j⟩⟩
          cases j with
          | zero =>
            obtain rfl := Option.some.inj hj
            exact refl_of r _
          | succ j => exact trans_of r hcd (hleast j b hj hb).1
        · rw [better, if_neg hcd]
          refine ⟨i + 1, hi, hpd, ?_⟩
          intro j b hj hb
          cases j with
          | zero =>
            obtain rfl := Option.some.inj hj
            exact ⟨(total_of r c d).resolve_left hcd, fun h => absurd h hcd⟩
          | succ j =>
            obtain ⟨hdb, hpos⟩ := hleast j b hj hb
            exact ⟨hdb, fun h => Nat.succ_le_succ (hpos h)⟩
    · rw [first_cons_of_neg hpc] at h
      obtain ⟨i, hi, hpa, hleast⟩ := ih h
      refine ⟨i + 1, hi, hpa, ?_⟩
      intro j b hj hb
      cases j with
      | zero =>
        obtain rfl := Option.some.inj hj
        exact absurd hb hpc
      | succ j =>
        obtain ⟨hab, hpos⟩ := hleast j b hj hb
        exact ⟨hab, fun h => Nat.succ_le_succ (hpos h)⟩

omit [DecidableRel r] [Std.Total r] [IsTrans α r] in
/-- There is at most one first element. -/
theorem IsFirst.unique (ha : IsFirst r p l a) (hb : IsFirst r p l b) : a = b := by
  obtain ⟨i, hi, hpa, hfa⟩ := ha
  obtain ⟨j, hj, hpb, hfb⟩ := hb
  obtain ⟨hab, hij⟩ := hfa j b hj hpb
  obtain ⟨hba, hji⟩ := hfb i a hi hpa
  obtain rfl : i = j := Nat.le_antisymm (hij hba) (hji hab)
  exact Option.some.inj (hi.symm.trans hj)

/-- **What the first is.** -/
theorem first_eq_some_iff : first r p l = some a ↔ IsFirst r p l a := by
  refine ⟨isFirst_of_first, ?_⟩
  intro h
  cases hf : first r p l with
  | none =>
    obtain ⟨i, hi, hpa, -⟩ := h
    rw [first_eq_none_iff.mp hf a (List.mem_of_getElem? hi)] at hpa
    cases hpa
  | some b => rw [(isFirst_of_first hf).unique h]

omit [DecidableRel r] [Std.Total r] [IsTrans α r] in
/-- The first passes the test, and is below all that do. -/
theorem IsFirst.least (h : IsFirst r p l a) :
    a ∈ l ∧ p a = true ∧ ∀ b ∈ l, p b = true → r a b := by
  obtain ⟨i, hi, hpa, hleast⟩ := h
  refine ⟨List.mem_of_getElem? hi, hpa, ?_⟩
  intro b hb hpb
  obtain ⟨j, hj⟩ := List.getElem?_of_mem hb
  exact (hleast j b hj hpb).1

/-! ### What does not matter -/

omit [Std.Total r] [IsTrans α r] in
/-- Elements that do not pass. -/
theorem first_filter_self (l : List α) : first r p (l.filter p) = first r p l := by
  induction l with
  | nil => rfl
  | cons a l ih =>
    by_cases ha : p a = true
    · rw [List.filter_cons_of_pos ha, first_cons_of_pos ha, first_cons_of_pos ha, ih]
    · rw [List.filter_cons_of_neg ha, first_cons_of_neg ha, ih]

/-- Elements above some element. -/
theorem first_filter_le (c : α) (l : List α) :
    first r p (l.filter fun a => p a && decide (r a c)) =
      (first r p l).filter fun a => decide (r a c) := by
  induction l with
  | nil => rfl
  | cons a l ih =>
    by_cases ha : p a = true
    · by_cases hac : r a c
      · rw [List.filter_cons_of_pos (by simp [ha, hac]), first_cons_of_pos ha,
          first_cons_of_pos ha, ih]
        cases first r p l with
        | none => simp [better, Option.filter_some, hac]
        | some b =>
          by_cases hbc : r b c
          · by_cases hab : r a b <;> simp [better, Option.filter_some, hab, hac, hbc]
          · -- `a` is below `c` and `b` is not, so `a` is below `b`
            have hab : r a b := (total_of r a b).resolve_right fun h => hbc (trans_of r h hac)
            simp [better, Option.filter_some, hab, hac, hbc]
      · rw [List.filter_cons_of_neg (by simp [hac]), first_cons_of_pos ha, ih]
        cases first r p l with
        | none => simp [better, Option.filter_some, hac]
        | some b =>
          by_cases hab : r a b
          · have hbc : ¬ r b c := fun h => hac (trans_of r hab h)
            simp [better, Option.filter_some, hab, hac, hbc]
          · simp [better, Option.filter_some, hab]
    · rw [List.filter_cons_of_neg (by simp [ha]), first_cons_of_neg ha, ih]

/-- **Elements that do not pass, and elements above the first, do not matter.** -/
theorem first_congr (ha : first r p l = some a)
    (h : (l'.filter fun b => p b && decide (r b a)) = l.filter fun b => p b && decide (r b a)) :
    first r p l' = some a := by
  have hfilter := first_filter_le a (r := r) (p := p) l'
  rw [h, first_filter_le, ha, Option.filter_some, if_pos (decide_eq_true (refl_of r a))] at hfilter
  exact (Option.filter_eq_some_iff.mp hfilter.symm).1

omit [Std.Total r] [IsTrans α r] in
/-- The first of an image. -/
theorem first_map (f : β → α) (l : List β) :
    first r p (l.map f) = (first (fun x y => r (f x) (f y)) (p ∘ f) l).map f := by
  induction l with
  | nil => rfl
  | cons x l ih =>
    rw [List.map_cons, first, first, ih]
    by_cases hx : p (f x) = true
    · rw [if_pos hx, if_pos (show (p ∘ f) x = true from hx)]
      cases first (fun x y => r (f x) (f y)) (p ∘ f) l with
      | none => rfl
      | some y =>
        by_cases hxy : r (f x) (f y)
        · simp [better, hxy]
        · simp [better, hxy]
    · rw [if_neg hx, if_neg (show ¬ (p ∘ f) x = true from hx)]

/-- The head, if nothing that passes is below it. -/
theorem first_head (ha : p a = true) (h : ∀ b ∈ l, p b = true → r a b) (hl : l[0]? = some a) :
    first r p l = some a := by
  refine first_eq_some_iff.mpr ⟨0, hl, ha, fun j b hj hb => ⟨?_, fun _ => Nat.zero_le j⟩⟩
  exact h b (List.mem_of_getElem? hj) hb

/-- **The order of the list matters among the least elements only.** -/
theorem map_first_congr {g : α → β} (h : ∀ a, a ∈ l ↔ a ∈ l')
    (hg : ∀ a ∈ l, ∀ b ∈ l, p a = true → p b = true → r a b → r b a →
      (∀ c ∈ l, p c = true → r a c) → g a = g b) :
    (first r p l).map g = (first r p l').map g := by
  cases hf : first r p l with
  | none =>
    have hnone := first_eq_none_iff.mp hf
    rw [first_eq_none_iff.mpr fun b hb => hnone b ((h _).mpr hb)]
  | some a =>
    obtain ⟨ha, hpa, hleast⟩ := (isFirst_of_first hf).least
    cases hf' : first r p l' with
    | none =>
      rw [first_eq_none_iff.mp hf' a ((h _).mp ha)] at hpa
      cases hpa
    | some b =>
      obtain ⟨hb, hpb, hleast'⟩ := (isFirst_of_first hf').least
      have hb := (h _).mpr hb
      exact congrArg some (hg a ha b hb hpa hpb (hleast b hb hpb)
        (hleast' a ((h _).mp ha) hpa) hleast)

end First
