import Mathlib.Data.List.Forall2
import PeatGateway.Lib.Rows

/-!
# Tables that differ in their values

Two tables have the same keys, and under each key there are related values.  The same statement
on both, with related values to write, leaves such tables, and what is read from both is related.

## Main definitions

* `Table.AlikeOn`, `Rows.Alike` — the same keys, and related values.

## Main results

* `Table.AlikeOn.filter_toList` — **both tables list related entries in the same order**.
* `Table.AlikeOn.insert`, `Rows.Alike.insert`, … — statements keep tables alike.
-/

open Std

/-- The entries have the same key, and their values are related. -/
def Entrywise {κ V V' : Type} (R : V → V' → Prop) (x : κ × V) (y : κ × V') : Prop :=
  x.1 = y.1 ∧ R x.2 y.2

section Lists

variable {κ V V' : Type} {R : V → V' → Prop}

/-- Both values are there, or neither is. -/
theorem isSome_eq_of_rel {o : Option V} {o' : Option V'} (h : Option.Rel R o o') :
    o.isSome = o'.isSome := by
  cases h <;> rfl

/-- A value on one side has a related one on the other. -/
theorem exists_of_rel_some {v : V} {o' : Option V'} (h : Option.Rel R (some v) o') :
    ∃ v', o' = some v' ∧ R v v' := by
  cases h with
  | some h => exact ⟨_, rfl, h⟩

theorem rel_option_map {β β' : Type} {S : β → β' → Prop} {f : V → β} {f' : V' → β'} {o : Option V}
    {o' : Option V'} (h : Option.Rel R o o') (hf : ∀ v v', R v v' → S (f v) (f' v')) :
    Option.Rel S (o.map f) (o'.map f') := by
  cases h with
  | none => exact .none
  | some h => exact .some (hf _ _ h)

theorem rel_getD {o : Option V} {o' : Option V'} {d : V} {d' : V'} (h : Option.Rel R o o')
    (hd : R d d') : R (o.getD d) (o'.getD d') := by
  cases h with
  | none => exact hd
  | some h => exact h

/-- A test on the keys keeps the same entries. -/
theorem forall₂_filter_fst {l : List (κ × V)} {l' : List (κ × V')}
    (h : List.Forall₂ (Entrywise R) l l') (p : κ → Bool) :
    List.Forall₂ (Entrywise R) (l.filter fun x => p x.1) (l'.filter fun x => p x.1) := by
  apply List.rel_filter _ h
  intro x y hxy
  dsimp only
  rw [hxy.1]

/-- The values of related entries. -/
theorem forall₂_map_snd {l : List (κ × V)} {l' : List (κ × V')}
    (h : List.Forall₂ (Entrywise R) l l') : List.Forall₂ R (l.map Prod.snd) (l'.map Prod.snd) := by
  apply List.rel_map _ h
  intro x y hxy
  exact hxy.2

theorem map_fst_eq {l : List (κ × V)} {l' : List (κ × V')} (h : List.Forall₂ (Entrywise R) l l') :
    l.map Prod.fst = l'.map Prod.fst := by
  induction h with
  | nil => rfl
  | cons h _ ih => rw [List.map_cons, List.map_cons, h.1, ih]

/-- Related values that look the same. -/
theorem map_eq_of_forall₂ {β : Type} {f : V → β} {f' : V' → β} {l : List V} {l' : List V'}
    (h : List.Forall₂ R l l') (hf : ∀ v v', R v v' → f v = f' v') : l.map f = l'.map f' := by
  induction h with
  | nil => rfl
  | cons h _ ih => rw [List.map_cons, List.map_cons, hf _ _ h, ih]

/-- The first value that passes a test, if related values pass the tests together. -/
theorem rel_find? {p : V → Bool} {p' : V' → Bool} {l : List V} {l' : List V'}
    (h : List.Forall₂ R l l') (hp : ∀ v v', R v v' → p v = p' v') :
    Option.Rel R (l.find? p) (l'.find? p') := by
  induction h with
  | nil => exact .none
  | @cons v v' l l' hv hl ih =>
    rw [List.find?_cons, List.find?_cons, ← hp v v' hv]
    cases p v with
    | true => exact .some hv
    | false => exact ih

/-- Lists that are sorted by a column of the key stay related entry by entry. -/
theorem forall₂_insertionSort {γ : Type} (r : γ → γ → Prop) [DecidableRel r] (col : κ → γ)
    {l : List (κ × V)} {l' : List (κ × V')} (h : List.Forall₂ (Entrywise R) l l') :
    List.Forall₂ (Entrywise R) (l.insertionSort fun x y => r (col x.1) (col y.1))
      (l'.insertionSort fun x y => r (col x.1) (col y.1)) := by
  induction h with
  | nil => exact .nil
  | @cons x y l l' hxy _ ih =>
    rw [List.insertionSort_cons, List.insertionSort_cons]
    generalize l.insertionSort (fun x y => r (col x.1) (col y.1)) = m at ih
    generalize l'.insertionSort (fun x y => r (col x.1) (col y.1)) = m' at ih
    -- the new entry finds the same place in both lists
    induction ih with
    | nil => exact .cons hxy .nil
    | @cons a b m m' hab hm ih' =>
      rw [List.orderedInsert, List.orderedInsert, hxy.1, hab.1]
      split
      · exact .cons hxy (.cons hab hm)
      · exact .cons hab ih'

end Lists

/-! ### Ordered tables -/

namespace Table

variable {κ V V' : Type} [Ord κ] [TransOrd κ] [LawfulEqOrd κ] [DecidableEq κ]
  {R : V → V' → Prop} {p : κ → Bool} {t : Table κ V} {t' : Table κ V'}

/-- Of the keys that pass the test, the tables have the same, and related values under each. -/
def AlikeOn (p : κ → Bool) (R : V → V' → Prop) (t : Table κ V) (t' : Table κ V') : Prop :=
  ∀ k : κ, p k = true → Option.Rel R t[k]? t'[k]?

/-- The tables have the same keys, and related values under each. -/
abbrev Alike (R : V → V' → Prop) (t : Table κ V) (t' : Table κ V') : Prop :=
  AlikeOn (fun _ => true) R t t'

omit [LawfulEqOrd κ] [DecidableEq κ] in
theorem alikeOn_empty (p : κ → Bool) (R : V → V' → Prop) :
    AlikeOn p R (∅ : Table κ V) (∅ : Table κ V') := by
  intro k _
  simp only [ExtTreeMap.getElem?_empty]
  exact .none

theorem AlikeOn.insert (h : AlikeOn p R t t') (k : κ) {v : V} {v' : V'} (hv : R v v') :
    AlikeOn p R (t.insert k v) (t'.insert k v') := by
  intro k' hk'
  rw [get_insert, get_insert]
  split
  · exact .some hv
  · exact h k' hk'

theorem AlikeOn.erase (h : AlikeOn p R t t') (k : κ) : AlikeOn p R (t.erase k) (t'.erase k) := by
  intro k' hk'
  rw [get_erase, get_erase]
  split
  · exact .none
  · exact h k' hk'

theorem AlikeOn.removeAll (h : AlikeOn p R t t') (q : κ → Bool) :
    AlikeOn p R (t.removeAll q) (t'.removeAll q) := by
  intro k hk
  rw [get_removeAll, get_removeAll]
  split
  · exact .none
  · exact h k hk

/-! One table may change under keys that do not pass the test. -/

theorem AlikeOn.insert_left (h : AlikeOn p R t t') {k : κ} (hk : p k = false) (v : V) :
    AlikeOn p R (t.insert k v) t' := by
  intro k' hk'
  have hne : k ≠ k' := by
    rintro rfl
    exact Bool.false_ne_true (hk.symm.trans hk')
  rw [get_insert_of_ne hne]
  exact h k' hk'

theorem AlikeOn.erase_left (h : AlikeOn p R t t') {k : κ} (hk : p k = false) :
    AlikeOn p R (t.erase k) t' := by
  intro k' hk'
  have hne : k ≠ k' := by
    rintro rfl
    exact Bool.false_ne_true (hk.symm.trans hk')
  rw [get_erase_of_ne hne]
  exact h k' hk'

theorem AlikeOn.removeAll_left (h : AlikeOn p R t t') {q : κ → Bool}
    (hq : ∀ k, q k = true → p k = false) : AlikeOn p R (t.removeAll q) t' := by
  intro k' hk'
  rw [get_removeAll]
  split
  · next hk => exact absurd ((hq k' hk).symm.trans hk') Bool.false_ne_true
  · exact h k' hk'

omit [DecidableEq κ] in
/-- Sorted lists with related entries are related entry by entry. -/
theorem forall₂_of_sorted {l : List (κ × V)} {l' : List (κ × V')}
    (hl : l.Pairwise fun x y => compare x.1 y.1 = .lt)
    (hl' : l'.Pairwise fun x y => compare x.1 y.1 = .lt)
    (h : ∀ x ∈ l, ∃ y ∈ l', Entrywise R x y) (h' : ∀ y ∈ l', ∃ x ∈ l, x.1 = y.1) :
    List.Forall₂ (Entrywise R) l l' := by
  induction l generalizing l' with
  | nil =>
    cases l' with
    | nil => exact .nil
    | cons y l' =>
      obtain ⟨x, hx, -⟩ := h' y List.mem_cons_self
      cases hx
  | cons x l ih =>
    obtain ⟨hx, hl⟩ := List.pairwise_cons.mp hl
    obtain ⟨y, hy, hxy⟩ := h x List.mem_cons_self
    cases l' with
    | nil => cases hy
    | cons z l' =>
      obtain ⟨hz, hl'⟩ := List.pairwise_cons.mp hl'
      -- the least keys of both lists are the same
      have hzy : z = y := by
        rcases List.mem_cons.mp hy with rfl | hlater
        · rfl
        · have hlt := hz y hlater
          obtain ⟨w, hw, hwz⟩ := h' z List.mem_cons_self
          rw [← hwz, ← hxy.1] at hlt
          rcases List.mem_cons.mp hw with rfl | hw
          · rw [ReflOrd.compare_self] at hlt
            cases hlt
          · exact absurd hlt (OrientedCmp.not_lt_of_lt (hx w hw))
      subst hzy
      refine .cons hxy (ih hl hl' ?_ ?_)
      · intro a ha
        obtain ⟨b, hb, hab⟩ := h a (List.mem_cons_of_mem _ ha)
        rcases List.mem_cons.mp hb with rfl | hb
        · have hlt := hx a ha
          rw [hxy.1, hab.1, ReflOrd.compare_self] at hlt
          cases hlt
        · exact ⟨b, hb, hab⟩
      · intro b hb
        obtain ⟨a, ha, hab⟩ := h' b (List.mem_cons_of_mem _ hb)
        rcases List.mem_cons.mp ha with rfl | ha
        · have hlt := hz b hb
          rw [← hxy.1, hab, ReflOrd.compare_self] at hlt
          cases hlt
        · exact ⟨a, ha, hab⟩

omit [DecidableEq κ] in
/-- **Both tables list related entries in the same order.** -/
theorem AlikeOn.filter_toList (h : AlikeOn p R t t') {q : κ → Bool}
    (hq : ∀ k, q k = true → p k = true) :
    List.Forall₂ (Entrywise R) (t.toList.filter fun x => q x.1)
      (t'.toList.filter fun x => q x.1) := by
  refine forall₂_of_sorted (ExtTreeMap.ordered_keys_toList.filter _)
    (ExtTreeMap.ordered_keys_toList.filter _) ?_ ?_
  · rintro ⟨k, v⟩ hv
    obtain ⟨hv, hk⟩ := List.mem_filter.mp hv
    have hrel := h k (hq k hk)
    rw [ExtTreeMap.mem_toList_iff_getElem?_eq_some.mp hv] at hrel
    obtain ⟨v', hv', hR⟩ := exists_of_rel_some hrel
    exact ⟨(k, v'), List.mem_filter.mpr
      ⟨ExtTreeMap.mem_toList_iff_getElem?_eq_some.mpr hv', hk⟩, rfl, hR⟩
  · rintro ⟨k, v'⟩ hv'
    obtain ⟨hv', hk⟩ := List.mem_filter.mp hv'
    have hsome := isSome_eq_of_rel (h k (hq k hk))
    rw [ExtTreeMap.mem_toList_iff_getElem?_eq_some.mp hv', Option.isSome_some] at hsome
    obtain ⟨v, hv⟩ := Option.isSome_iff_exists.mp hsome
    exact ⟨(k, v), List.mem_filter.mpr
      ⟨ExtTreeMap.mem_toList_iff_getElem?_eq_some.mpr hv, hk⟩, rfl⟩

omit [DecidableEq κ] in
theorem AlikeOn.scan (h : AlikeOn p R t t') {q : κ → Bool} (hq : ∀ k, q k = true → p k = true) :
    List.Forall₂ R (t.scan q) (t'.scan q) :=
  forall₂_map_snd (h.filter_toList hq)

omit [DecidableEq κ] in
/-- All entries, if all keys pass the test. -/
theorem AlikeOn.toList (h : AlikeOn p R t t') (hp : ∀ k, p k = true) :
    List.Forall₂ (Entrywise R) t.toList t'.toList := by
  have hfilter := h.filter_toList (q := fun _ => true) fun k _ => hp k
  rwa [List.filter_true, List.filter_true] at hfilter

end Table

/-! ### Relations with a primary key -/

namespace Rows

variable {κ V V' : Type} [DecidableEq κ] {R : V → V' → Prop} {t : Rows κ V} {t' : Rows κ V'}

/-- The relations have the same keys row by row, and related values. -/
def Alike (R : V → V' → Prop) (t : Rows κ V) (t' : Rows κ V') : Prop :=
  List.Forall₂ (Entrywise R) t.rows t'.rows

theorem Alike.select (h : Alike R t t') (k : κ) : Option.Rel R (t.select k) (t'.select k) := by
  apply rel_option_map (R := Entrywise R) _ fun x y hxy => hxy.2
  exact rel_find? h fun x y hxy => by rw [hxy.1]

theorem Alike.insert (h : Alike R t t') (k : κ) {v : V} {v' : V'} (hv : R v v') :
    Option.Rel (Alike R) (t.insert k v) (t'.insert k v') := by
  unfold Rows.insert
  have hkeys := map_fst_eq h
  by_cases hk : k ∈ t.rows.map Prod.fst
  · rw [dif_pos hk, dif_pos (hkeys ▸ hk)]
    exact .none
  · rw [dif_neg hk, dif_neg (hkeys ▸ hk)]
    exact .some (List.rel_append h (.cons ⟨rfl, hv⟩ .nil))

theorem Alike.update (h : Alike R t t') (k : κ) {v : V} {v' : V'} (hv : R v v') :
    Alike R (t.update k v) (t'.update k v') := by
  refine List.rel_map ?_ h
  intro x y hxy
  dsimp only
  rw [hxy.1]
  split
  · exact ⟨rfl, hv⟩
  · exact hxy

theorem Alike.upsert (h : Alike R t t') (k : κ) {v : V} {v' : V'} (hv : R v v') :
    Alike R (t.upsert k v) (t'.upsert k v') := by
  exact rel_getD (h.insert k hv) (h.update k hv)

omit [DecidableEq κ] in
theorem Alike.deleteWhere (h : Alike R t t') (p : κ → Bool) :
    Alike R (t.deleteWhere p) (t'.deleteWhere p) :=
  forall₂_filter_fst h fun k => !p k

theorem Alike.delete (h : Alike R t t') (k : κ) : Alike R (t.delete k) (t'.delete k) :=
  h.deleteWhere (· == k)

omit [DecidableEq κ] in
theorem Alike.orderBy {γ : Type} [Ord γ] (h : Alike R t t') (p : κ → Bool) (col : κ → γ) :
    List.Forall₂ R (t.orderBy p col) (t'.orderBy p col) :=
  forall₂_map_snd (forall₂_insertionSort (fun a b => (compare a b).isLE = true) col
    (forall₂_filter_fst h p))

end Rows
