import PeatGateway.Lib.Scan

/-!
# Relations with a primary key

A table of a relational database: a list of rows in no particular order, no two with
the same primary key.  An insertion of a key that is there fails; an update of a key
that is not there does nothing; a query filters the rows and sorts what is left by a
column.

## Main definitions

* `Rows` — the rows, with the proof that keys are distinct.
* `Rows.select`, `Rows.insert`, `Rows.update`, `Rows.upsert`, `Rows.delete`,
  `Rows.deleteWhere`, `Rows.orderBy` — the statements.
* `Rows.Has` — a relation holds a value.
* `Rows.Keyed` — every record lies under its own key.
* `Rows.AgreeOn` — two relations have the same rows at some of the keys.
* `Rows.Matches` — a relation and an ordered table hold the same records, the keys of
  the table being encodings of the primary keys.

## Main results

* `Rows.select_insert`, `Rows.select_update`, … — the statements in terms of `select`.
* `Rows.Matches.orderBy` — **a sorted query is a scan**.
* `Rows.AgreeOn.insert`, `Rows.AgreeOn.update`, … — statements about keys on which relations agree
  end alike, and leave relations that agree.
-/

/-- The rows of a relation, each with its primary key. -/
structure Rows (κ V : Type) where
  rows : List (κ × V)
  nodup : (rows.map Prod.fst).Nodup

namespace Rows

variable {κ V : Type} [DecidableEq κ]

omit [DecidableEq κ] in
/-- No two rows have the same key. -/
theorem eq_of_mem {t : Rows κ V} {k : κ} {v w : V} (hv : (k, v) ∈ t.rows) (hw : (k, w) ∈ t.rows) :
    v = w := by
  have := List.inj_on_of_nodup_map t.nodup hv hw rfl
  exact congrArg Prod.snd this

/-! ### Statements -/

/-- No rows. -/
def empty : Rows κ V := ⟨[], List.nodup_nil⟩

/-- `SELECT … WHERE` the key is `k`. -/
def select (t : Rows κ V) (k : κ) : Option V := (t.rows.find? fun r => r.1 == k).map Prod.snd

/-- **The rows are what `select` finds.** -/
theorem mem_rows {t : Rows κ V} {k : κ} {v : V} : (k, v) ∈ t.rows ↔ t.select k = some v := by
  constructor
  · intro h
    cases hf : t.rows.find? fun r => r.1 == k with
    | none => exact absurd (beq_self_eq_true k) (List.find?_eq_none.mp hf _ h)
    | some r =>
      obtain ⟨k', w⟩ := r
      have hk : k' = k := by simpa using List.find?_some hf
      subst hk
      rw [select, hf, Option.map_some, eq_of_mem h (List.mem_of_find?_eq_some hf)]
  · intro h
    obtain ⟨⟨k', w⟩, hf, rfl⟩ := Option.map_eq_some_iff.mp h
    have hk : k' = k := by simpa using List.find?_some hf
    exact hk ▸ List.mem_of_find?_eq_some hf

theorem select_eq_none {t : Rows κ V} {k : κ} : t.select k = none ↔ k ∉ t.rows.map Prod.fst := by
  rw [Option.eq_none_iff_forall_ne_some, List.mem_map]
  constructor
  · rintro h ⟨⟨k', v⟩, hm, rfl⟩
    exact h v (mem_rows.mp hm)
  · exact fun h v hv => h ⟨(k, v), mem_rows.mpr hv, rfl⟩

/-- Two relations have the same rows at `k` if they contain the same rows there. -/
theorem select_congr {t t' : Rows κ V} {k : κ} (h : ∀ v, (k, v) ∈ t.rows ↔ (k, v) ∈ t'.rows) :
    t.select k = t'.select k := by
  ext v
  rw [← mem_rows, ← mem_rows]
  exact h v

/-- `INSERT`: nothing if the key is there. -/
def insert (t : Rows κ V) (k : κ) (v : V) : Option (Rows κ V) :=
  if h : k ∈ t.rows.map Prod.fst then none
  else some ⟨t.rows ++ [(k, v)], by
    rw [List.map_append, List.map_singleton]
    refine List.Nodup.append t.nodup (List.nodup_singleton _) fun a ha hk => h ?_
    obtain rfl := List.mem_singleton.mp hk
    exact ha⟩

/-- `UPDATE … SET data = v WHERE` the key is `k`. -/
def update (t : Rows κ V) (k : κ) (v : V) : Rows κ V where
  rows := t.rows.map fun r => if r.1 = k then (r.1, v) else r
  nodup := by
    rw [List.map_map]
    have : (Prod.fst ∘ fun r : κ × V => if r.1 = k then (r.1, v) else r) = Prod.fst := by
      funext r
      simp only [Function.comp_apply]
      split <;> rfl
    rw [this]
    exact t.nodup

/-- `INSERT … ON CONFLICT DO UPDATE`. -/
def upsert (t : Rows κ V) (k : κ) (v : V) : Rows κ V := (t.insert k v).getD (t.update k v)

/-- `DELETE … WHERE` the key passes the test. -/
def deleteWhere (t : Rows κ V) (p : κ → Bool) : Rows κ V where
  rows := t.rows.filter fun r => !p r.1
  nodup := t.nodup.sublist (List.filter_sublist.map Prod.fst)

/-- `DELETE … WHERE` the key is `k`. -/
def delete (t : Rows κ V) (k : κ) : Rows κ V := t.deleteWhere (· == k)

/-- `SELECT data … WHERE` the key passes the test `ORDER BY` the column. -/
def orderBy {γ : Type} [Ord γ] (t : Rows κ V) (p : κ → Bool) (col : κ → γ) : List V :=
  ((t.rows.filter fun r => p r.1).insertionSort
    fun r r' => (compare (col r.1) (col r'.1)).isLE = true).map Prod.snd

/-- `SELECT count(*) … WHERE` the key passes the test. -/
def count (t : Rows κ V) (p : κ → Bool) : ℕ := t.rows.countP fun r => p r.1

theorem select_insert {t t' : Rows κ V} {k : κ} {v : V} (h : t.insert k v = some t') (k' : κ) :
    t'.select k' = if k = k' then some v else t.select k' := by
  unfold insert at h
  split at h
  · cases h
  · next hk =>
    obtain rfl := Option.some.inj h
    split
    · next heq =>
      subst heq
      exact mem_rows.mp (List.mem_append_right _ (List.mem_singleton_self _))
    · next hne =>
      apply select_congr
      intro w
      simp [Ne.symm hne]

theorem rows_insert {t t' : Rows κ V} {k : κ} {v : V} (h : t.insert k v = some t') :
    t'.rows = t.rows ++ [(k, v)] := by
  unfold insert at h
  split at h
  · cases h
  · obtain rfl := Option.some.inj h
    rfl

/-- An insert succeeds only under a new key. -/
theorem select_of_insert {t t' : Rows κ V} {k : κ} {v : V} (h : t.insert k v = some t') :
    t.select k = none := by
  unfold insert at h
  split at h
  · cases h
  · next hk => exact select_eq_none.mpr hk

theorem count_insert {t t' : Rows κ V} {k : κ} {v : V} (h : t.insert k v = some t')
    (p : κ → Bool) : t'.count p = t.count p + if p k then 1 else 0 := by
  rw [count, rows_insert h, List.countP_append, List.countP_singleton]
  rfl

theorem count_update (t : Rows κ V) (k : κ) (v : V) (p : κ → Bool) :
    (t.update k v).count p = t.count p := by
  rw [count, update, List.countP_map]
  apply List.countP_congr
  intro r _
  simp only [Function.comp_apply]
  split <;> rfl

omit [DecidableEq κ] in
theorem count_deleteWhere_le (t : Rows κ V) (q p : κ → Bool) :
    (t.deleteWhere q).count p ≤ t.count p :=
  List.Sublist.countP_le List.filter_sublist

omit [DecidableEq κ] in
theorem length_orderBy {γ : Type} [Ord γ] (t : Rows κ V) (p : κ → Bool) (col : κ → γ) :
    (t.orderBy p col).length = t.count p := by
  rw [orderBy, List.length_map, List.length_insertionSort, count, List.countP_eq_length_filter]

theorem insert_eq_none {t : Rows κ V} {k : κ} {v : V} :
    t.insert k v = none ↔ (t.select k).isSome = true := by
  unfold insert
  rw [Option.isSome_iff_ne_none, ne_eq, select_eq_none, not_not]
  split <;> simp_all

theorem select_update (t : Rows κ V) (k k' : κ) (v : V) :
    (t.update k v).select k' = if k = k' then (t.select k').map fun _ => v else t.select k' := by
  split
  · next heq =>
    subst heq
    cases hs : t.select k with
    | none =>
      -- An update does not bring in a key that was not there.
      rw [select_eq_none] at hs
      apply select_eq_none.mpr
      intro hm
      obtain ⟨r, hr, rfl⟩ := List.mem_map.mp hm
      obtain ⟨r', hr', heq⟩ := List.mem_map.mp hr
      refine hs (List.mem_map.mpr ⟨r', hr', ?_⟩)
      split at heq
      · assumption
      · exact congrArg Prod.fst heq
    | some w =>
      refine mem_rows.mp (List.mem_map.mpr ⟨(k, w), mem_rows.mpr hs, ?_⟩)
      rw [if_pos rfl]
  · next hne =>
    apply select_congr
    intro w
    simp only [update, List.mem_map]
    constructor
    · rintro ⟨r, hr, heq⟩
      split at heq
      · next hk =>
        have hk' : r.1 = k' := congrArg Prod.fst heq
        exact absurd (hk.symm.trans hk') hne
      · exact heq ▸ hr
    · exact fun hm => ⟨(k', w), hm, if_neg (Ne.symm hne)⟩

theorem select_upsert (t : Rows κ V) (k k' : κ) (v : V) :
    (t.upsert k v).select k' = if k = k' then some v else t.select k' := by
  unfold upsert
  cases hi : t.insert k v with
  | some t' => exact select_insert hi k'
  | none =>
    rw [Option.getD_none, select_update]
    split
    · next heq =>
      subst heq
      obtain ⟨w, hw⟩ := Option.isSome_iff_exists.mp (insert_eq_none.mp hi)
      rw [hw, Option.map_some]
    · rfl

theorem select_deleteWhere (t : Rows κ V) (p : κ → Bool) (k : κ) :
    (t.deleteWhere p).select k = if p k = true then none else t.select k := by
  split
  · next hp =>
    apply select_eq_none.mpr
    intro hm
    obtain ⟨r, hr, rfl⟩ := List.mem_map.mp hm
    have := (List.mem_filter.mp hr).2
    rw [hp] at this
    cases this
  · next hp =>
    apply select_congr
    intro v
    simp [deleteWhere, hp]

theorem select_delete (t : Rows κ V) (k k' : κ) :
    (t.delete k).select k' = if k = k' then none else t.select k' := by
  rw [delete, select_deleteWhere]
  refine if_congr ?_ rfl rfl
  rw [beq_iff_eq, eq_comm]

/-- Deleting a key that is not in use changes nothing. -/
theorem delete_of_unused {t : Rows κ V} {k : κ} (h : t.select k = none) : t.delete k = t := by
  have hrows : (t.delete k).rows = t.rows := by
    apply List.filter_eq_self.mpr
    intro r hr
    have hk : r.1 ≠ k := fun hk => select_eq_none.mp h (hk ▸ List.mem_map_of_mem hr)
    simpa using hk
  cases t
  simp only [delete, deleteWhere] at hrows ⊢
  congr

/-- The relation holds the value. -/
def Has (t : Rows κ V) (v : V) : Prop := ∃ k, t.select k = some v

theorem Has.of_insert {t t' : Rows κ V} {k : κ} {v w : V} (ht : t.insert k v = some t')
    (h : t'.Has w) : t.Has w ∨ v = w := by
  obtain ⟨k', hk'⟩ := h
  rw [select_insert ht] at hk'
  split at hk'
  · exact Or.inr (Option.some.inj hk')
  · exact Or.inl ⟨k', hk'⟩

theorem Has.of_update {t : Rows κ V} {k : κ} {v w : V} (h : (t.update k v).Has w) :
    t.Has w ∨ v = w := by
  obtain ⟨k', hk'⟩ := h
  rw [select_update] at hk'
  split at hk'
  · obtain ⟨-, -, rfl⟩ := Option.map_eq_some_iff.mp hk'
    exact Or.inr rfl
  · exact Or.inl ⟨k', hk'⟩

theorem Has.of_deleteWhere {t : Rows κ V} {p : κ → Bool} {w : V} (h : (t.deleteWhere p).Has w) :
    t.Has w := by
  obtain ⟨k', hk'⟩ := h
  rw [select_deleteWhere] at hk'
  split at hk'
  · cases hk'
  · exact ⟨k', hk'⟩

@[simp] theorem select_empty (k : κ) : (empty : Rows κ V).select k = none := rfl

/-- **What a query finds.** -/
theorem mem_orderBy {γ : Type} [Ord γ] {t : Rows κ V} {p : κ → Bool} {col : κ → γ} {v : V} :
    v ∈ t.orderBy p col ↔ ∃ k, p k = true ∧ t.select k = some v := by
  simp only [orderBy, List.mem_map, List.mem_insertionSort, List.mem_filter, Prod.exists,
    exists_eq_right, mem_rows]
  exact exists_congr fun k => and_comm

/-- The values of a query have distinct names, if the key can be told from the name. -/
theorem nodup_map_orderBy {β γ : Type} [Ord γ] {t : Rows κ V} {p : κ → Bool} {col : κ → γ}
    {name : V → β} {e : β → κ} (h : ∀ k v, p k = true → t.select k = some v → e (name v) = k) :
    ((t.orderBy p col).map name).Nodup := by
  apply List.Nodup.of_map e
  have hkeys : ((t.orderBy p col).map name).map e = ((t.rows.filter fun r => p r.1).insertionSort
      fun r r' => (compare (col r.1) (col r'.1)).isLE = true).map Prod.fst := by
    rw [orderBy, List.map_map, List.map_map]
    apply List.map_congr_left
    intro r hr
    rw [List.mem_insertionSort, List.mem_filter] at hr
    exact h r.1 r.2 hr.2 (mem_rows.mp hr.1)
  rw [hkeys, ((List.perm_insertionSort _ _).map Prod.fst).nodup_iff]
  exact t.nodup.sublist (List.filter_sublist.map Prod.fst)

/-! ### Records under their own keys -/

section Keyed

variable {key : V → κ} {t t' : Rows κ V}

/-- Every record lies under its own key. -/
def Keyed (key : V → κ) (t : Rows κ V) : Prop := ∀ k v, t.select k = some v → k = key v

theorem keyed_empty : Keyed key (empty : Rows κ V) := by
  intro k v hv
  cases hv

theorem Keyed.insert (h : Keyed key t) {v : V} (ht : t.insert (key v) v = some t') :
    Keyed key t' := by
  intro k w hw
  rw [select_insert ht] at hw
  split at hw
  · next heq =>
    obtain rfl := Option.some.inj hw
    exact heq.symm
  · exact h k w hw

theorem Keyed.update (h : Keyed key t) (v : V) : Keyed key (t.update (key v) v) := by
  intro k w hw
  rw [select_update] at hw
  split at hw
  · next heq =>
    obtain ⟨-, -, rfl⟩ := Option.map_eq_some_iff.mp hw
    exact heq.symm
  · exact h k w hw

theorem Keyed.deleteWhere (h : Keyed key t) (p : κ → Bool) : Keyed key (t.deleteWhere p) := by
  intro k v hv
  rw [select_deleteWhere] at hv
  split at hv
  · cases hv
  · exact h k v hv

end Keyed

/-! ### Agreement -/

section AgreeOn

variable {p : κ → Bool} {t t' t'' : Rows κ V}

/-- The relations have the same rows at the keys that pass the test, in the same order. -/
def AgreeOn (p : κ → Bool) (t t' : Rows κ V) : Prop :=
  (t'.rows.filter fun r => p r.1) = t.rows.filter fun r => p r.1

omit [DecidableEq κ] in
theorem AgreeOn.refl (p : κ → Bool) (t : Rows κ V) : AgreeOn p t t := rfl

omit [DecidableEq κ] in
theorem AgreeOn.trans (h : AgreeOn p t t') (h' : AgreeOn p t' t'') : AgreeOn p t t'' :=
  Eq.trans h' h

omit [DecidableEq κ] in
/-- A narrower choice of rows is the same too. -/
theorem AgreeOn.filter (h : AgreeOn p t t') {q : κ × V → Bool}
    (hq : ∀ r, q r = true → p r.1 = true) : t'.rows.filter q = t.rows.filter q := by
  have hnarrow : ∀ l : List (κ × V), l.filter q = (l.filter fun r => p r.1).filter q := by
    intro l
    rw [List.filter_filter]
    apply List.filter_congr
    intro r _
    cases hr : q r with
    | false => rfl
    | true => rw [hq r hr, Bool.and_self]
  rw [hnarrow t'.rows, h, ← hnarrow]

theorem AgreeOn.select (h : AgreeOn p t t') {k : κ} (hk : p k = true) :
    t'.select k = t.select k := by
  have hrow : ∀ r : κ × V, (r.1 == k) = true → p r.1 = true := by
    intro r hr
    rw [beq_iff_eq.mp hr, hk]
  unfold Rows.select
  rw [← List.head?_filter, ← List.head?_filter, h.filter hrow]

/-- A row is inserted into both relations, or into neither. -/
theorem AgreeOn.insert (h : AgreeOn p t t') {k : κ} (hk : p k = true) (v : V) :
    Option.Rel (AgreeOn p) (t.insert k v) (t'.insert k v) := by
  cases hins : t.insert k v with
  | none =>
    have hthere := insert_eq_none.mp hins
    rw [← h.select hk] at hthere
    rw [insert_eq_none.mpr hthere]
    exact .none
  | some t₁ =>
    cases hins' : t'.insert k v with
    | none =>
      have hthere := insert_eq_none.mp hins'
      rw [h.select hk, select_of_insert hins] at hthere
      cases hthere
    | some t₁' =>
      refine .some ?_
      unfold AgreeOn
      rw [rows_insert hins, rows_insert hins', List.filter_append, List.filter_append, h]

/-- A row inserted at another key. -/
theorem agreeOn_insert {k : κ} {v : V} (ht : t.insert k v = some t') (hk : p k = false) :
    AgreeOn p t t' := by
  unfold AgreeOn
  rw [rows_insert ht, List.filter_append, List.filter_singleton, hk]
  exact List.append_nil _

/-- The rows chosen after an update are those chosen before, updated. -/
theorem filter_update (t : Rows κ V) (k : κ) (v : V) (p : κ → Bool) :
    ((t.update k v).rows.filter fun r => p r.1) =
      (t.rows.filter fun r => p r.1).map fun r => if r.1 = k then (r.1, v) else r := by
  unfold Rows.update
  rw [List.filter_map]
  refine congrArg _ (List.filter_congr ?_)
  intro r _
  simp only [Function.comp_apply]
  split <;> rfl

theorem AgreeOn.update (h : AgreeOn p t t') (k : κ) (v : V) :
    AgreeOn p (t.update k v) (t'.update k v) := by
  unfold AgreeOn
  rw [filter_update, filter_update, h]

/-- A row updated at another key. -/
theorem agreeOn_update {k : κ} (t : Rows κ V) (v : V) (hk : p k = false) :
    AgreeOn p t (t.update k v) := by
  unfold AgreeOn
  rw [filter_update]
  refine List.map_congr_left ?_ |>.trans (List.map_id _)
  intro r hr
  refine if_neg ?_
  rintro rfl
  rw [(List.mem_filter.mp hr).2] at hk
  cases hk

theorem AgreeOn.upsert (h : AgreeOn p t t') {k : κ} (hk : p k = true) (v : V) :
    AgreeOn p (t.upsert k v) (t'.upsert k v) := by
  have hrel := h.insert hk v
  unfold Rows.upsert
  generalize t.insert k v = o at hrel ⊢
  generalize t'.insert k v = o' at hrel ⊢
  cases hrel with
  | none => exact h.update k v
  | some h₁ => exact h₁

theorem agreeOn_upsert {k : κ} (t : Rows κ V) (v : V) (hk : p k = false) :
    AgreeOn p t (t.upsert k v) := by
  unfold Rows.upsert
  cases hins : t.insert k v with
  | none => exact agreeOn_update t v hk
  | some t₁ => exact agreeOn_insert hins hk

omit [DecidableEq κ] in
theorem AgreeOn.deleteWhere (h : AgreeOn p t t') (q : κ → Bool) :
    AgreeOn p (t.deleteWhere q) (t'.deleteWhere q) := by
  unfold AgreeOn Rows.deleteWhere
  rw [List.filter_comm, h, List.filter_comm]

omit [DecidableEq κ] in
/-- Rows deleted at other keys. -/
theorem agreeOn_deleteWhere (t : Rows κ V) {q : κ → Bool} (hq : ∀ k, q k = true → p k = false) :
    AgreeOn p t (t.deleteWhere q) := by
  unfold AgreeOn Rows.deleteWhere
  rw [List.filter_filter]
  apply List.filter_congr
  intro r _
  cases hr : q r.1 with
  | true => rw [hq _ hr, Bool.false_and]
  | false => rw [Bool.not_false, Bool.and_true]

theorem agreeOn_delete {k : κ} (t : Rows κ V) (hk : p k = false) : AgreeOn p t (t.delete k) := by
  apply agreeOn_deleteWhere
  intro k' hk'
  rwa [beq_iff_eq.mp hk']

omit [DecidableEq κ] in
theorem AgreeOn.orderBy {γ : Type} [Ord γ] (h : AgreeOn p t t') {q : κ → Bool}
    (hq : ∀ k, q k = true → p k = true) (col : κ → γ) : t'.orderBy q col = t.orderBy q col := by
  unfold Rows.orderBy
  rw [h.filter fun r => hq r.1]

end AgreeOn

/-! ### Relations and ordered tables -/

section Matches

open Std

variable {κ' : Type} [Ord κ'] [TransOrd κ'] [LawfulEqOrd κ'] [DecidableEq κ']

/-- The relation and the table hold the same records.  The keys of the table are the
encodings of the primary keys, all of which are good. -/
structure Matches (good : κ → Prop) (enc : κ → κ') (t : Rows κ V) (T : Table κ' V) : Prop where
  get : ∀ k, good k → T[enc k]? = t.select k
  key : ∀ k' v, T[k']? = some v → ∃ k, good k ∧ k' = enc k
  isGood : ∀ k v, t.select k = some v → good k

/-- Good keys have different encodings. -/
def InjOn (good : κ → Prop) (enc : κ → κ') : Prop :=
  ∀ k k', good k → good k' → enc k = enc k' → k = k'

variable {good : κ → Prop} {enc : κ → κ'} {t t' : Rows κ V} {T : Table κ' V}

omit [LawfulEqOrd κ'] [DecidableEq κ'] in
theorem matches_empty : Matches good enc (empty : Rows κ V) ∅ where
  get _ _ := by simp
  key k' v h := by simp at h
  isGood k v h := by simp at h

/-- Writing a row, however it is written. -/
theorem Matches.insert (h : Matches good enc t T) (hinj : InjOn good enc) {k : κ} {v : V}
    (hk : good k) (ht : ∀ k', t'.select k' = if k = k' then some v else t.select k') :
    Matches good enc t' (T.insert (enc k) v) where
  get k' hk' := by
    rw [ht, Table.get_insert]
    by_cases heq : k = k'
    · rw [if_pos heq, if_pos (congrArg enc heq)]
    · rw [if_neg heq, if_neg fun he => heq (hinj k k' hk hk' he), h.get k' hk']
  key k' w hw := by
    rw [Table.get_insert] at hw
    split at hw
    · next heq => exact ⟨k, hk, heq.symm⟩
    · exact h.key k' w hw
  isGood k' w hw := by
    rw [ht] at hw
    split at hw
    · next heq => exact heq ▸ hk
    · exact h.isGood k' w hw

/-- An update of a row that is there. -/
theorem Matches.update (h : Matches good enc t T) (hinj : InjOn good enc) {k : κ} {v : V}
    (hk : (t.select k).isSome = true) : Matches good enc (t.update k v) (T.insert (enc k) v) := by
  obtain ⟨w, hw⟩ := Option.isSome_iff_exists.mp hk
  apply h.insert hinj (h.isGood k w hw)
  intro k'
  rw [select_update]
  split
  · next heq => rw [← heq, hw, Option.map_some]
  · rfl

/-- Deleting the rows that pass a test, found by a test on the encoded keys. -/
theorem Matches.deleteWhere (h : Matches good enc t T) {p : κ → Bool} {p' : κ' → Bool}
    (hp : ∀ k, good k → p' (enc k) = p k) :
    Matches good enc (t.deleteWhere p) (T.removeAll p') where
  get k hk := by rw [select_deleteWhere, Table.get_removeAll, hp k hk, h.get k hk]
  key k' v hv := by
    rw [Table.get_removeAll] at hv
    split at hv
    · cases hv
    · exact h.key k' v hv
  isGood k v hv := by
    rw [select_deleteWhere] at hv
    split at hv
    · cases hv
    · exact h.isGood k v hv

/-- Deleting one row. -/
theorem Matches.delete (h : Matches good enc t T) (hinj : InjOn good enc) {k : κ} (hk : good k) :
    Matches good enc (t.delete k) (T.erase (enc k)) where
  get k' hk' := by
    rw [select_delete, Table.get_erase, h.get k' hk']
    exact if_congr ⟨hinj k k' hk hk', fun he => he ▸ rfl⟩ rfl rfl
  key k' v hv := by
    rw [Table.get_erase] at hv
    split at hv
    · cases hv
    · exact h.key k' v hv
  isGood k' v hv := by
    rw [select_delete] at hv
    split at hv
    · cases hv
    · exact h.isGood k' v hv

theorem isLE_total {γ : Type} [Ord γ] [OrientedOrd γ] (a b : γ) :
    (compare a b).isLE = true ∨ (compare b a).isLE = true := by
  rw [OrientedOrd.eq_swap (a := b)]
  cases compare a b
  · exact Or.inl rfl
  · exact Or.inl rfl
  · exact Or.inr rfl

omit [DecidableEq κ'] in
/-- **A sorted query is a scan**: if the encoding keeps the order of the column, sorting
the selected rows gives what walking over the table in key order gives. -/
theorem Matches.orderBy {γ : Type} [Ord γ] [TransOrd γ] (h : Matches good enc t T)
    (hinj : InjOn good enc) {p : κ → Bool} {p' : κ' → Bool} {col : κ → γ}
    (hp : ∀ k, good k → p' (enc k) = p k)
    (hcol : ∀ k k', good k → good k' → p k = true → p k' = true →
      compare (enc k) (enc k') = compare (col k) (col k')) :
    t.orderBy p col = T.scan p' := by
  let e : κ × V → κ' × V := fun r => (enc r.1, r.2)
  let r : κ × V → κ × V → Prop := fun x y => (compare (col x.1) (col y.1)).isLE = true
  let L := (t.rows.filter fun r => p r.1).insertionSort r
  have hL : ∀ k v, (k, v) ∈ L ↔ t.select k = some v ∧ p k = true := fun k v => by
    rw [List.mem_insertionSort, List.mem_filter, mem_rows]
  have hmem : ∀ x, x ∈ L.map e ↔ x ∈ T.toList.filter fun kv => p' kv.1 := by
    rintro ⟨k', v⟩
    rw [List.mem_filter, ExtTreeMap.mem_toList_iff_getElem?_eq_some, List.mem_map]
    constructor
    · rintro ⟨⟨k, w⟩, hm, heq⟩
      obtain ⟨hs, hk⟩ := (hL k w).mp hm
      obtain ⟨rfl, rfl⟩ := Prod.mk.inj heq
      have hg := h.isGood k w hs
      exact ⟨(h.get k hg).trans hs, (hp k hg).trans hk⟩
    · rintro ⟨hT, hk⟩
      obtain ⟨k, hg, rfl⟩ := h.key k' v hT
      exact ⟨(k, v), (hL k v).mpr ⟨(h.get k hg).symm.trans hT, (hp k hg).symm.trans hk⟩, rfl⟩
  -- both lists are sorted by the encoded keys
  have hsorted : (L.map e).Pairwise fun x y => (compare x.1 y.1).isLE = true := by
    have : Std.Total r := ⟨fun x y => isLE_total (col x.1) (col y.1)⟩
    have : IsTrans (κ × V) r := ⟨fun x y z => TransCmp.isLE_trans⟩
    refine List.pairwise_map.mpr ((List.pairwise_insertionSort r _).imp_of_mem ?_)
    rintro ⟨k, v⟩ ⟨k', v'⟩ hm hm' hr
    obtain ⟨hs, hk⟩ := (hL k v).mp hm
    obtain ⟨hs', hk'⟩ := (hL k' v').mp hm'
    rw [hcol k k' (h.isGood k v hs) (h.isGood k' v' hs') hk hk']
    exact hr
  have hlt := (ExtTreeMap.ordered_keys_toList (t := T)).filter fun kv => p' kv.1
  have hnodup : (L.map e).Nodup := by
    have hrows : L.Nodup := (List.perm_insertionSort r _).nodup_iff.mpr
      ((List.Nodup.of_map _ t.nodup).filter _)
    refine List.Nodup.map_on ?_ hrows
    rintro ⟨k, v⟩ hm ⟨k', v'⟩ hm' heq
    obtain ⟨hek, rfl⟩ := Prod.mk.inj heq
    have := hinj k k' (h.isGood k v ((hL k v).mp hm).1) (h.isGood k' v ((hL k' v).mp hm').1) hek
    rw [this]
  have hperm : (L.map e).Perm (T.toList.filter fun kv => p' kv.1) := by
    exact (List.perm_ext_iff_of_nodup hnodup ((Table.nodup_toList T).filter _)).mpr hmem
  have heq : L.map e = T.toList.filter fun kv => p' kv.1 := by
    refine List.Perm.eq_of_pairwise ?_ hsorted (hlt.imp ?_) hperm
    · rintro ⟨k, v⟩ ⟨k', v'⟩ hm hm' hle hle'
      have hk : k = k' := LawfulEqCmp.eq_of_compare (OrientedCmp.isLE_antisymm hle hle')
      subst hk
      have hv := (List.mem_filter.mp ((hmem _).mp hm)).1
      have hv' := (List.mem_filter.mp hm').1
      rw [ExtTreeMap.mem_toList_iff_getElem?_eq_some] at hv hv'
      exact congrArg _ (Option.some.inj (hv.symm.trans hv'))
    · intro x y hxy
      rw [hxy]
      rfl
  rw [Table.scan, ← heq, List.map_map]
  rfl

end Matches

end Rows
