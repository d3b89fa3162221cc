import Mathlib.Tactic.Common
import Mathlib.Data.List.Basic
import Mathlib.Data.List.Induction

/-!
# Consumers that drop what they have received

Events carry a key, a content and a tag.  One consumer takes every event, another ignores
those whose tag it has received before.  Both hold, for every key, the content that they took
last.

## Main definitions

* `Dedup.lastSeen` — what a consumer holds for a key.
* `Dedup.taken` — the events that are not ignored.
* `Dedup.Agree` — both consumers hold the same.
* `Dedup.Harmless` — an event is new, or repeats what is held for its key.

## Main results

* `Dedup.agree_append_singleton` — one more event.
* `Dedup.agree_iff` — **the consumers agree all along exactly if every event is harmless**.
-/

namespace Dedup

variable {E K C H : Type} [DecidableEq K] [DecidableEq H] {key : E → K} {content : E → C}
  {tag : E → H}

/-- The content that was taken last for the key. -/
def lastSeen (key : E → K) (content : E → C) (es : List E) (k : K) : Option C :=
  (es.reverse.find? fun e => key e = k).map content

/-- The events that are not ignored, if those in `seen` have been received before. -/
def takenFrom (tag : E → H) : List H → List E → List E
  | _, [] => []
  | seen, e :: es =>
    if tag e ∈ seen then takenFrom tag seen es else e :: takenFrom tag (tag e :: seen) es

/-- The events that are not ignored. -/
def taken (tag : E → H) (es : List E) : List E := takenFrom tag [] es

/-- Both consumers hold the same. -/
def Agree (key : E → K) (content : E → C) (tag : E → H) (es : List E) : Prop :=
  ∀ k, lastSeen key content (taken tag es) k = lastSeen key content es k

/-- The event has a new tag, or repeats what was taken last for its key. -/
def Harmless (key : E → K) (content : E → C) (tag : E → H) (es : List E) (e : E) : Prop :=
  tag e ∉ es.map tag ∨ lastSeen key content es (key e) = some (content e)

theorem lastSeen_append_singleton (es : List E) (e : E) (k : K) :
    lastSeen key content (es ++ [e]) k =
      if key e = k then some (content e) else lastSeen key content es k := by
  rw [lastSeen, List.reverse_append, List.reverse_singleton, List.singleton_append,
    List.find?_cons]
  by_cases hk : key e = k
  · simp [hk]
  · simp [hk, lastSeen]

omit [DecidableEq K] in
theorem takenFrom_append_singleton (seen : List H) (es : List E) (e : E) :
    takenFrom tag seen (es ++ [e]) =
      takenFrom tag seen es ++ if tag e ∈ seen ∨ tag e ∈ es.map tag then [] else [e] := by
  induction es generalizing seen with
  | nil =>
    rw [List.nil_append, takenFrom, takenFrom]
    simp [takenFrom]
  | cons a es ih =>
    rw [List.cons_append, takenFrom, takenFrom]
    by_cases ha : tag a ∈ seen
    · rw [if_pos ha, if_pos ha, ih]
      congr 1
      refine if_congr ?_ rfl rfl
      rw [List.map_cons, List.mem_cons]
      -- the tag of the first event is among those seen
      refine ⟨fun h => h.imp_right Or.inr, ?_⟩
      rintro (h | h | h)
      · exact Or.inl h
      · exact Or.inl (h ▸ ha)
      · exact Or.inr h
    · rw [if_neg ha, if_neg ha, ih, List.cons_append]
      congr 2
      refine if_congr ?_ rfl rfl
      rw [List.map_cons, List.mem_cons, List.mem_cons]
      tauto

omit [DecidableEq K] in
theorem taken_append_singleton (es : List E) (e : E) :
    taken tag (es ++ [e]) = taken tag es ++ if tag e ∈ es.map tag then [] else [e] := by
  rw [taken, takenFrom_append_singleton]
  simp only [List.not_mem_nil, false_or]
  rfl

theorem agree_nil : Agree key content tag [] := fun _ => rfl

/-- **One more event.** -/
theorem agree_append_singleton {es : List E} {e : E} (h : Agree key content tag es) :
    Agree key content tag (es ++ [e]) ↔ Harmless key content tag es e := by
  unfold Agree Harmless
  rw [taken_append_singleton]
  by_cases htag : tag e ∈ es.map tag
  · rw [if_pos htag, List.append_nil]
    simp only [not_true_eq_false, false_or, htag]
    constructor
    · intro hall
      have hkey := hall (key e)
      rw [h, lastSeen_append_singleton, if_pos rfl] at hkey
      exact hkey
    · intro hlast k
      rw [h, lastSeen_append_singleton]
      split
      · next hk => rw [← hk, hlast]
      · rfl
  · rw [if_neg htag]
    refine iff_of_true ?_ (Or.inl htag)
    intro k
    rw [lastSeen_append_singleton, lastSeen_append_singleton, h k]

/-- **The consumers agree all along exactly if every event is harmless.** -/
theorem agree_iff (es : List E) :
    (∀ l₁ l₂, es = l₁ ++ l₂ → Agree key content tag l₁) ↔
      ∀ l₁ e l₂, es = l₁ ++ e :: l₂ → Harmless key content tag l₁ e := by
  constructor
  · intro h l₁ e l₂ heq
    refine (agree_append_singleton (h l₁ (e :: l₂) heq)).mp (h (l₁ ++ [e]) l₂ ?_)
    rw [heq, List.append_assoc, List.singleton_append]
  · intro h l₁
    induction l₁ using List.reverseRecOn with
    | nil => exact fun _ _ => agree_nil
    | append_singleton l₁ e ih =>
      intro l₂ heq
      rw [List.append_assoc, List.singleton_append] at heq
      exact (agree_append_singleton (ih _ heq)).mpr (h l₁ e l₂ heq)

end Dedup
