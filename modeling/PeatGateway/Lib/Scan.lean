import Mathlib.Tactic.Common
import Mathlib.Data.List.Sort

/-!
# Ordered tables

A table of an embedded key-value store is an ordered map: looking a key up,
overwriting it and removing it, and walking over all entries in key order.  Nothing
else is indexed, so the entries of one kind are found by walking the whole table
with a test on the key.

## Main definitions

* `Table` — an ordered map.
* `Table.scan`, `Table.removeAll` — the walk that collects, and the walk that removes,
  the entries whose key passes a test.
* `Table.AgreeOn` — two tables have the same entries at the keys that pass a test.
* `Table.Forall` — every entry has a property of its key and value.
* `Table.Has` — a table holds a value.

## Main results

* `Table.mem_scan`, `Table.scan_getElem?_zero` — what a scan finds, and what it finds first.
* `Table.AgreeOn.scan` — **tables that agree on the tested keys are scanned alike**.
* `Table.get_removeAll` — what is left after a removal.
* `Table.toList_insert_perm` — inserting under a new key adds one entry.
-/

open Std

/-- A table: an ordered map. -/
abbrev Table (κ V : Type) [Ord κ] : Type := ExtTreeMap κ V

namespace Table

variable {κ V : Type} [Ord κ] [TransOrd κ] [LawfulEqOrd κ] [DecidableEq κ]

/-- The values, in key order, of the entries whose key passes the test. -/
def scan (t : Table κ V) (p : κ → Bool) : List V :=
  (t.toList.filter fun kv => p kv.1).map Prod.snd

/-- Collect the keys that pass the test, then remove each of them. -/
def removeAll (t : Table κ V) (p : κ → Bool) : Table κ V :=
  (t.keys.filter p).foldl (fun t k => t.erase k) t

theorem get_insert (t : Table κ V) (k k' : κ) (v : V) :
    (t.insert k v)[k']? = if k = k' then some v else t[k']? := by
  rw [ExtTreeMap.getElem?_insert]
  simp only [Std.compare_eq_iff_eq]

theorem get_erase (t : Table κ V) (k k' : κ) :
    (t.erase k)[k']? = if k = k' then none else t[k']? := by
  rw [ExtTreeMap.getElem?_erase]
  simp only [Std.compare_eq_iff_eq]

theorem get_insert_of_ne {t : Table κ V} {k k' : κ} {v : V} (h : k ≠ k') :
    (t.insert k v)[k']? = t[k']? := by
  rw [get_insert, if_neg h]

theorem get_erase_of_ne {t : Table κ V} {k k' : κ} (h : k ≠ k') : (t.erase k)[k']? = t[k']? := by
  rw [get_erase, if_neg h]

omit [DecidableEq κ] in
/-- No entry is listed twice. -/
theorem nodup_toList (t : Table κ V) : t.toList.Nodup := by
  apply (ExtTreeMap.ordered_keys_toList (t := t)).imp
  rintro x y hxy rfl
  rw [ReflOrd.compare_self] at hxy
  cases hxy

/-- **Inserting under a new key adds one entry.** -/
theorem toList_insert_perm {t : Table κ V} {k : κ} (hk : t[k]? = none) (v : V) :
    (t.insert k v).toList.Perm ((k, v) :: t.toList) := by
  have hnew : (k, v) ∉ t.toList := by
    intro hmem
    rw [ExtTreeMap.mem_toList_iff_getElem?_eq_some, hk] at hmem
    cases hmem
  refine (List.perm_ext_iff_of_nodup (nodup_toList _)
    (List.nodup_cons.mpr ⟨hnew, nodup_toList t⟩)).mpr ?_
  rintro ⟨k', v'⟩
  rw [List.mem_cons, ExtTreeMap.mem_toList_iff_getElem?_eq_some,
    ExtTreeMap.mem_toList_iff_getElem?_eq_some, get_insert]
  split
  · next heq =>
    subst heq
    simp [hk, eq_comm]
  · next hne => simp [Ne.symm hne]

omit [DecidableEq κ] in
/-- **What a scan finds.** -/
theorem mem_scan {t : Table κ V} {p : κ → Bool} {v : V} :
    v ∈ t.scan p ↔ ∃ k, p k = true ∧ t[k]? = some v := by
  simp only [scan, List.mem_map, List.mem_filter, Prod.exists, exists_eq_right]
  apply exists_congr
  intro k
  rw [ExtTreeMap.mem_toList_iff_getElem?_eq_some]
  exact and_comm

omit [DecidableEq κ] in
/-- **What a scan finds first**: the value under the least key that passes the test. -/
theorem scan_getElem?_zero {t : Table κ V} {p : κ → Bool} {k : κ} {v : V} (hp : p k = true)
    (hk : t[k]? = some v)
    (hleast : ∀ k' v', p k' = true → t[k']? = some v' → k' ≠ k → compare k k' = .lt) :
    (t.scan p)[0]? = some v := by
  have hsorted := (ExtTreeMap.ordered_keys_toList (t := t)).filter fun kv => p kv.1
  have hmem : (k, v) ∈ t.toList.filter fun kv => p kv.1 :=
    List.mem_filter.mpr ⟨ExtTreeMap.mem_toList_iff_getElem?_eq_some.mpr hk, hp⟩
  rw [scan, List.getElem?_map]
  cases hl : t.toList.filter fun kv => p kv.1 with
  | nil =>
    rw [hl] at hmem
    cases hmem
  | cons kv l =>
    rw [hl] at hsorted hmem
    rcases List.mem_cons.mp hmem with rfl | hlater
    · rfl
    · -- the head of the list is below the least key
      have hlt := (List.pairwise_cons.mp hsorted).1 _ hlater
      obtain ⟨hhead, hpass⟩ := List.mem_filter.mp (hl ▸ List.mem_cons_self)
      rw [ExtTreeMap.mem_toList_iff_getElem?_eq_some] at hhead
      have hne : kv.1 ≠ k := by
        rintro rfl
        rw [ReflOrd.compare_self] at hlt
        cases hlt
      exact absurd (hleast kv.1 kv.2 hpass hhead hne) (OrientedCmp.not_lt_of_lt hlt)

omit [DecidableEq κ] in
/-- A scan finds the values in the order of their keys. -/
theorem pairwise_scan {t : Table κ V} {p : κ → Bool} {R : V → V → Prop}
    (h : ∀ k k' v v', p k = true → p k' = true → t[k]? = some v → t[k']? = some v' →
      compare k k' = .lt → R v v') : (t.scan p).Pairwise R := by
  rw [scan, List.pairwise_map]
  have hsorted := (ExtTreeMap.ordered_keys_toList (t := t)).filter fun kv => p kv.1
  refine hsorted.imp_of_mem fun {x y} hx hy hlt => ?_
  obtain ⟨hx, hpx⟩ := List.mem_filter.mp hx
  obtain ⟨hy, hpy⟩ := List.mem_filter.mp hy
  rw [ExtTreeMap.mem_toList_iff_getElem?_eq_some] at hx hy
  exact h _ _ _ _ hpx hpy hx hy hlt

/-- A scan finds one value more after an insert under a new key that passes the test. -/
theorem length_scan_insert {t : Table κ V} {k : κ} (hk : t[k]? = none) (v : V) (p : κ → Bool) :
    (scan (t.insert k v) p).length = (t.scan p).length + if p k then 1 else 0 := by
  have hperm := ((toList_insert_perm hk v).filter fun kv => p kv.1).length_eq
  rw [scan, List.length_map, hperm, List.filter_cons, scan, List.length_map]
  split <;> rfl

omit [DecidableEq κ] in
/-- A scan of a table with fewer keys in use finds fewer values. -/
theorem length_scan_le {t t' : Table κ V} {p : κ → Bool}
    (h : ∀ k, p k = true → t[k]?.isSome = true → t'[k]?.isSome = true) :
    (t.scan p).length ≤ (t'.scan p).length := by
  -- The keys are counted in place of the values: they are distinct.
  have hnodup : ((t.toList.filter fun kv => p kv.1).map Prod.fst).Nodup := by
    refine List.Nodup.map_on ?_ ((nodup_toList t).filter _)
    rintro ⟨k, v⟩ hv ⟨k', v'⟩ hv' heq
    obtain rfl : k = k' := heq
    have hv := (List.mem_filter.mp hv).1
    have hv' := (List.mem_filter.mp hv').1
    rw [ExtTreeMap.mem_toList_iff_getElem?_eq_some] at hv hv'
    rw [Option.some.inj (hv.symm.trans hv')]
  have hsubset : (t.toList.filter fun kv => p kv.1).map Prod.fst ⊆
      (t'.toList.filter fun kv => p kv.1).map Prod.fst := by
    intro k hk
    obtain ⟨⟨k, v⟩, hmem, rfl⟩ := List.mem_map.mp hk
    obtain ⟨hv, hp⟩ := List.mem_filter.mp hmem
    rw [ExtTreeMap.mem_toList_iff_getElem?_eq_some] at hv
    obtain ⟨v', hv'⟩ := Option.isSome_iff_exists.mp (h k hp (Option.isSome_of_eq_some hv))
    rw [← ExtTreeMap.mem_toList_iff_getElem?_eq_some] at hv'
    exact List.mem_map.mpr ⟨(k, v'), List.mem_filter.mpr ⟨hv', hp⟩, rfl⟩
  have hle := (List.subperm_of_subset hnodup hsubset).length_le
  rw [List.length_map, List.length_map] at hle
  rw [scan, scan, List.length_map, List.length_map]
  exact hle

omit [DecidableEq κ] in
/-- The values of a scan have distinct names, if the key can be told from the name. -/
theorem nodup_map_scan {β : Type} {t : Table κ V} {p : κ → Bool} {name : V → β} {e : β → κ}
    (h : ∀ k v, p k = true → t[k]? = some v → e (name v) = k) : ((t.scan p).map name).Nodup := by
  apply List.Nodup.of_map e
  have hkeys : ((t.scan p).map name).map e = (t.toList.filter fun kv => p kv.1).map Prod.fst := by
    rw [scan, List.map_map, List.map_map]
    apply List.map_congr_left
    intro kv hkv
    obtain ⟨hmem, hp⟩ := List.mem_filter.mp hkv
    exact h kv.1 kv.2 hp (ExtTreeMap.mem_toList_iff_getElem?_eq_some.mp hmem)
  rw [hkeys]
  apply List.Nodup.sublist (List.filter_sublist.map Prod.fst)
  rw [ExtTreeMap.map_fst_toList_eq_keys]
  exact ExtTreeMap.nodup_keys

theorem get_foldl_erase (l : List κ) (t : Table κ V) (k : κ) :
    (l.foldl (fun t k => t.erase k) t)[k]? = if k ∈ l then none else t[k]? := by
  induction l generalizing t with
  | nil => simp
  | cons a l ih =>
    rw [List.foldl_cons, ih, get_erase]
    by_cases hl : k ∈ l
    · simp [hl]
    · simp [hl, eq_comm (a := a)]

/-- **What is left after a removal.** -/
theorem get_removeAll (t : Table κ V) (p : κ → Bool) (k : κ) :
    (t.removeAll p)[k]? = if p k = true then none else t[k]? := by
  rw [removeAll, get_foldl_erase]
  by_cases hp : p k = true
  · rw [if_pos hp]
    split
    · rfl
    · next hk =>
      rw [List.mem_filter, ExtTreeMap.mem_keys, not_and] at hk
      exact ExtTreeMap.getElem?_eq_none fun hm => hk hm hp
  · rw [if_neg hp, if_neg]
    rw [List.mem_filter]
    exact fun h => hp h.2

/-- Erasing a key that is not in use changes nothing. -/
theorem erase_of_unused {t : Table κ V} {k : κ} (h : t[k]?.isSome = false) : t.erase k = t := by
  refine ExtTreeMap.ext_getElem? ?_
  intro k'
  rw [get_erase]
  split
  · next heq => rw [← heq, Option.not_isSome_iff_eq_none.mp (Bool.eq_false_iff.mp h)]
  · rfl

/-- Removing keys that are not in use changes nothing. -/
theorem removeAll_of_unused {t : Table κ V} {p : κ → Bool}
    (h : ∀ k, p k = true → t[k]? = none) : t.removeAll p = t := by
  refine ExtTreeMap.ext_getElem? ?_
  intro k
  rw [get_removeAll]
  split
  · next hp => rw [h k hp]
  · rfl

/-! ### Agreement on part of the keys -/

/-- The two tables have the same entries at the keys that pass the test. -/
def AgreeOn (p : κ → Bool) (t t' : Table κ V) : Prop := ∀ k, p k = true → t'[k]? = t[k]?

omit [LawfulEqOrd κ] [DecidableEq κ] in
theorem AgreeOn.refl (p : κ → Bool) (t : Table κ V) : AgreeOn p t t := fun _ _ => rfl

omit [LawfulEqOrd κ] [DecidableEq κ] in
theorem AgreeOn.trans {p : κ → Bool} {t t' t'' : Table κ V} (h : AgreeOn p t t')
    (h' : AgreeOn p t' t'') : AgreeOn p t t'' :=
  fun k hk => (h' k hk).trans (h k hk)

omit [DecidableEq κ] in
/-- The tested entries, in key order, of tables that agree on them. -/
theorem AgreeOn.filter_toList {p : κ → Bool} {t t' : Table κ V} (h : AgreeOn p t t') :
    (t'.toList.filter fun kv => p kv.1) = t.toList.filter fun kv => p kv.1 := by
  have hfilter : t'.filter (fun k _ => p k) = t.filter fun k _ => p k := by
    refine ExtTreeMap.ext_getElem? ?_
    intro k
    rw [ExtTreeMap.getElem?_filter', ExtTreeMap.getElem?_filter']
    cases hp : p k with
    | true => rw [h k hp]
    | false => simp
  rw [← ExtTreeMap.toList_filter (f := fun k _ => p k),
    ← ExtTreeMap.toList_filter (f := fun k _ => p k), hfilter]

omit [DecidableEq κ] in
/-- **Tables that agree on the tested keys are scanned alike.** -/
theorem AgreeOn.scan {p : κ → Bool} {t t' : Table κ V} (h : AgreeOn p t t') :
    t'.scan p = t.scan p := by
  rw [Table.scan, Table.scan, h.filter_toList]

theorem agreeOn_insert {p : κ → Bool} {t : Table κ V} {k : κ} {v : V} (hk : p k = false) :
    AgreeOn p t (t.insert k v) := by
  intro k' hk'
  apply get_insert_of_ne
  rintro rfl
  rw [hk] at hk'
  cases hk'

theorem agreeOn_erase {p : κ → Bool} {t : Table κ V} {k : κ} (hk : p k = false) :
    AgreeOn p t (t.erase k) := by
  intro k' hk'
  apply get_erase_of_ne
  rintro rfl
  rw [hk] at hk'
  cases hk'

theorem agreeOn_removeAll {p q : κ → Bool} {t : Table κ V}
    (h : ∀ k, p k = true → q k = false) : AgreeOn p t (t.removeAll q) := by
  intro k hk
  rw [get_removeAll, h k hk]
  rfl

/-- Tables that agree stay so under the same statement. -/
theorem AgreeOn.insert {p : κ → Bool} {t t' : Table κ V} (h : AgreeOn p t t') (k : κ) (v : V) :
    AgreeOn p (t.insert k v) (t'.insert k v) := by
  intro k' hk'
  rw [get_insert, get_insert, h k' hk']

theorem AgreeOn.erase {p : κ → Bool} {t t' : Table κ V} (h : AgreeOn p t t') (k : κ) :
    AgreeOn p (t.erase k) (t'.erase k) := by
  intro k' hk'
  rw [get_erase, get_erase, h k' hk']

theorem AgreeOn.removeAll {p : κ → Bool} {t t' : Table κ V} (h : AgreeOn p t t') (q : κ → Bool) :
    AgreeOn p (t.removeAll q) (t'.removeAll q) := by
  intro k' hk'
  rw [get_removeAll, get_removeAll, h k' hk']

/-! ### Properties of every entry -/

/-- Every entry of the table has the property. -/
def Forall (P : κ → V → Prop) (t : Table κ V) : Prop := ∀ k v, t[k]? = some v → P k v

omit [LawfulEqOrd κ] [DecidableEq κ] in
theorem forall_empty (P : κ → V → Prop) : Forall P (∅ : Table κ V) := by
  intro k v h
  simp at h

theorem Forall.insert {P : κ → V → Prop} {t : Table κ V} (h : Forall P t) {k : κ} {v : V}
    (hkv : P k v) : Forall P (t.insert k v) := by
  intro k' v' hk'
  rw [get_insert] at hk'
  split at hk'
  · next heq =>
    obtain rfl := Option.some.inj hk'
    exact heq ▸ hkv
  · exact h k' v' hk'

theorem Forall.erase {P : κ → V → Prop} {t : Table κ V} (h : Forall P t) (k : κ) :
    Forall P (t.erase k) := by
  intro k' v' hk'
  rw [get_erase] at hk'
  split at hk'
  · cases hk'
  · exact h k' v' hk'

theorem Forall.removeAll {P : κ → V → Prop} {t : Table κ V} (h : Forall P t) (p : κ → Bool) :
    Forall P (t.removeAll p) := by
  intro k v hk
  rw [get_removeAll] at hk
  split at hk
  · cases hk
  · exact h k v hk

/-! ### The values of a table -/

/-- The table holds the value. -/
def Has (t : Table κ V) (v : V) : Prop := ∃ k : κ, t[k]? = some v

theorem Has.of_insert {t : Table κ V} {k : κ} {v w : V} (h : Has (t.insert k v) w) :
    Has t w ∨ v = w := by
  obtain ⟨k', hk'⟩ := h
  rw [get_insert] at hk'
  split at hk'
  · exact Or.inr (Option.some.inj hk')
  · exact Or.inl ⟨k', hk'⟩

theorem Has.of_erase {t : Table κ V} {k : κ} {w : V} (h : Has (t.erase k) w) : Has t w := by
  obtain ⟨k', hk'⟩ := h
  rw [get_erase] at hk'
  split at hk'
  · cases hk'
  · exact ⟨k', hk'⟩

theorem Has.of_removeAll {t : Table κ V} {p : κ → Bool} {w : V} (h : Has (t.removeAll p) w) :
    Has t w := by
  obtain ⟨k', hk'⟩ := h
  rw [get_removeAll] at hk'
  split at hk'
  · cases hk'
  · exact ⟨k', hk'⟩

end Table
