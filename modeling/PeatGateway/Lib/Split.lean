import Mathlib.Data.List.TakeWhile
import PeatGateway.Lib.Text

/-!
# Splitting and trimming

A text that is written as parts with a separator between them, and white space around them, is
read by splitting it at the separator and trimming what is found.

## Main definitions

* `split`, `join` — the parts of a string, and the string made of parts.
* `Blank`, `Trimmed` — strings of white space, and strings without white space around them.
* `Pads` — a string is another with white space around it.

## Main results

* `trim_of_pads` — **white space around a string is trimmed**.
* `split_join` — **the parts are read back**.
* `map_trim_split_trim` — a string may be trimmed before it is split.
-/

namespace Text

/-! ### White space around a string -/

/-- There is nothing but white space. -/
def Blank (s : String) : Prop := ∀ c ∈ s.toList, isWhitespace c = true

instance (s : String) : Decidable (Blank s) :=
  decidable_of_iff (s.toList.all isWhitespace = true) List.all_eq_true

/-- There is no white space around the string. -/
def Trimmed (s : String) : Prop := trim s = s

instance (s : String) : Decidable (Trimmed s) := inferInstanceAs (Decidable (trim s = s))

/-- The second string is the first with white space around it. -/
def Pads (s t : String) : Prop := ∃ l r, Blank l ∧ Blank r ∧ t = l ++ s ++ r

theorem blank_empty : Blank "" := by simp [Blank]

theorem Pads.refl (s : String) : Pads s s := ⟨"", "", blank_empty, blank_empty, by simp⟩

/-- White space from the end of a list. -/
theorem rdropWhile_append_of_forall {α : Type*} {p : α → Bool} {l r : List α}
    (hr : ∀ x ∈ r, p x = true) : (l ++ r).rdropWhile p = l.rdropWhile p := by
  rw [List.rdropWhile, List.reverse_append, List.dropWhile_append_of_pos, List.rdropWhile]
  simpa using hr

theorem trim_blank_append {l : String} (hl : Blank l) (s : String) : trim (l ++ s) = trim s := by
  rw [trim, String.toList_append, List.dropWhile_append_of_pos hl, trim]

theorem trim_append_blank {r : String} (hr : Blank r) (s : String) : trim (s ++ r) = trim s := by
  rw [trim, String.toList_append, List.dropWhile_append, trim]
  split
  · next hs =>
    have hdrop : r.toList.dropWhile isWhitespace = [] := List.dropWhile_eq_nil_iff.mpr hr
    rw [hdrop, List.isEmpty_iff.mp hs]
  · rw [rdropWhile_append_of_forall hr]

/-- White space around a string does not matter. -/
theorem trim_eq_of_pads {s t : String} (h : Pads s t) : trim t = trim s := by
  rcases h with ⟨l, r, hl, hr, rfl⟩
  rw [trim_append_blank hr, trim_blank_append hl]

/-- **White space around a string is trimmed.** -/
theorem trim_of_pads {s t : String} (hs : Trimmed s) (h : Pads s t) : trim t = s :=
  (trim_eq_of_pads h).trans hs

/-- What is trimmed is white space. -/
theorem pads_trim (s : String) : Pads (trim s) s := by
  let t := s.toList.dropWhile isWhitespace
  refine ⟨String.ofList (s.toList.takeWhile isWhitespace),
    String.ofList (t.rtakeWhile isWhitespace), ?_, ?_, ?_⟩
  · intro c hc
    rw [String.toList_ofList] at hc
    exact List.mem_takeWhile_imp hc
  · intro c hc
    rw [String.toList_ofList] at hc
    exact List.mem_rtakeWhile_imp hc
  · rw [← String.toList_inj]
    simp only [trim, String.toList_append, String.toList_ofList, List.append_assoc]
    rw [List.rdropWhile_append_rtakeWhile, List.takeWhile_append_dropWhile]

/-- What has been trimmed is not trimmed again. -/
theorem trimmed_trim (s : String) : Trimmed (trim s) := (trim_eq_of_pads (pads_trim s)).symm

theorem dropWhile_eq_self_iff_head? {α : Type*} {p : α → Bool} {l : List α} :
    l.dropWhile p = l ↔ ∀ x, l.head? = some x → p x = false := by
  rw [List.dropWhile_eq_self_iff]
  cases l with
  | nil => simp
  | cons x l => simp

theorem rdropWhile_eq_self_iff_getLast? {α : Type*} {p : α → Bool} {l : List α} :
    l.rdropWhile p = l ↔ ∀ x, l.getLast? = some x → p x = false := by
  rw [List.rdropWhile_eq_self_iff]
  induction l using List.reverseRecOn with
  | nil => simp
  | append_singleton l x _ => simp

/-- A string without white space around it neither starts nor ends with any. -/
theorem trimmed_iff {s : String} : Trimmed s ↔
    (∀ c, s.toList.head? = some c → isWhitespace c = false) ∧
      ∀ c, s.toList.getLast? = some c → isWhitespace c = false := by
  rw [← dropWhile_eq_self_iff_head?, ← rdropWhile_eq_self_iff_getLast?, Trimmed, trim,
    ← String.toList_inj, String.toList_ofList]
  constructor
  · intro h
    have hprefix := List.rdropWhile_prefix isWhitespace (l := s.toList.dropWhile isWhitespace)
    rw [h] at hprefix
    have hdrop : s.toList.dropWhile isWhitespace = s.toList :=
      ((List.dropWhile_suffix isWhitespace).eq_of_length_le hprefix.length_le)
    rw [hdrop] at h
    exact ⟨hdrop, h⟩
  · intro h
    rw [h.1, h.2]

theorem trim_eq_empty_iff {s : String} : trim s = "" ↔ Blank s := by
  constructor
  · intro h
    rcases pads_trim s with ⟨l, r, hl, hr, hs⟩
    rw [h] at hs
    intro c hc
    rw [hs, String.append_empty, String.toList_append] at hc
    rcases List.mem_append.mp hc with hc | hc
    · exact hl c hc
    · exact hr c hc
  · intro h
    rw [← String.append_empty (s := s), trim_blank_append h]
    decide

/-! ### Parts -/

/-- `s.split(sep)`. -/
def split (s : String) (sep : Char) : List String := (s.toList.splitOn sep).map String.ofList

/-- The parts with the separator between them. -/
def join (sep : Char) : List String → String
  | [] => ""
  | [s] => s
  | s :: parts => glue sep s (join sep parts)

section Parts

variable {sep : Char}

theorem split_of_free {s : String} (h : Free sep s) : split s sep = [s] := by
  rw [split, List.splitOn_eq_singleton h, List.map_singleton, String.ofList_toList]

theorem split_glue {a : String} (h : Free sep a) (b : String) :
    split (glue sep a b) sep = a :: split b sep := by
  rw [split, toList_glue, List.splitOn_append_cons_self_of_not_mem h, List.map_cons,
    String.ofList_toList, split]

/-- A string holds no separator, or it is glued at the first. -/
theorem free_or_glue (sep : Char) (s : String) :
    Free sep s ∨ ∃ a b, Free sep a ∧ s = glue sep a b := by
  by_cases h : Free sep s
  · exact Or.inl h
  · rcases List.eq_append_cons_of_mem (not_not.mp h) with ⟨a, b, hs, ha⟩
    refine Or.inr ⟨String.ofList a, String.ofList b, ?_, ?_⟩
    · rw [Free, String.toList_ofList]
      exact ha
    · rw [← String.toList_inj, toList_glue, String.toList_ofList, String.toList_ofList, hs]

/-- Induction along the separators of a string. -/
theorem split_induction (sep : Char) {P : String → Prop} (hfree : ∀ s, Free sep s → P s)
    (hglue : ∀ a b, Free sep a → P b → P (glue sep a b)) (s : String) : P s := by
  induction hn : s.toList.length using Nat.strongRecOn generalizing s with
  | ind n ih =>
    rcases free_or_glue sep s with h | ⟨a, b, ha, rfl⟩
    · exact hfree s h
    · refine hglue a b ha (ih b.toList.length ?_ b rfl)
      rw [← hn, toList_glue, List.length_append, List.length_cons]
      omega

/-- **The parts are read back**, if there are any and none holds the separator. -/
theorem split_join {parts : List String} (hparts : ∀ s ∈ parts, Free sep s) (hne : parts ≠ []) :
    split (join sep parts) sep = parts := by
  induction parts with
  | nil => exact absurd rfl hne
  | cons s parts ih =>
    have hs := hparts s List.mem_cons_self
    cases parts with
    | nil => exact split_of_free hs
    | cons s' parts =>
      rw [join, split_glue hs, ih (fun t ht => hparts t (List.mem_cons_of_mem _ ht)) nofun]
      · nofun

theorem free_append_iff {c : Char} {s t : String} : Free c (s ++ t) ↔ Free c s ∧ Free c t := by
  rw [Free, String.toList_append, List.mem_append, not_or]
  rfl

theorem append_glue (l a b : String) : l ++ glue sep a b = glue sep (l ++ a) b := by
  rw [← String.toList_inj]
  simp

theorem glue_append (a b r : String) : glue sep a b ++ r = glue sep a (b ++ r) := by
  rw [← String.toList_inj]
  simp

theorem free_glue_iff {c : Char} {a b : String} (hc : c ≠ sep) :
    Free c (glue sep a b) ↔ Free c a ∧ Free c b := by
  simp [Free, hc]

theorem free_join {c : Char} (hc : c ≠ sep) {parts : List String}
    (h : ∀ s ∈ parts, Free c s) : Free c (join sep parts) := by
  induction parts with
  | nil => simp [join, Free]
  | cons s parts ih =>
    have hs := h s List.mem_cons_self
    have hrest := ih fun t ht => h t (List.mem_cons_of_mem _ ht)
    cases parts with
    | nil => exact hs
    | cons s' parts =>
      rw [join]
      · exact (free_glue_iff hc).mpr ⟨hs, hrest⟩
      · nofun

/-- White space does not hold the separator. -/
theorem Blank.free (hsep : isWhitespace sep = false) {s : String} (h : Blank s) : Free sep s := by
  intro hmem
  rw [h sep hmem] at hsep
  cases hsep

theorem Pads.free (hsep : isWhitespace sep = false) {s t : String} (h : Pads s t)
    (hs : Free sep s) : Free sep t := by
  rcases h with ⟨l, r, hl, hr, rfl⟩
  exact free_append_iff.mpr ⟨free_append_iff.mpr ⟨hl.free hsep, hs⟩, hr.free hsep⟩

/-! ### Trimming before splitting -/

theorem map_trim_split_blank_append (hsep : isWhitespace sep = false) {l : String} (hl : Blank l)
    (s : String) : (split (l ++ s) sep).map trim = (split s sep).map trim := by
  have hfree := hl.free hsep
  rcases free_or_glue sep s with hs | ⟨a, b, ha, rfl⟩
  · have hls : Free sep (l ++ s) := by
      rw [Free, String.toList_append, List.mem_append, not_or]
      exact ⟨hfree, hs⟩
    rw [split_of_free hls, split_of_free hs]
    simp [trim_blank_append hl]
  · have hla : Free sep (l ++ a) := by
      rw [Free, String.toList_append, List.mem_append, not_or]
      exact ⟨hfree, ha⟩
    rw [append_glue, split_glue hla, split_glue ha]
    simp [trim_blank_append hl]

theorem map_trim_split_append_blank (hsep : isWhitespace sep = false) {r : String} (hr : Blank r)
    (s : String) : (split (s ++ r) sep).map trim = (split s sep).map trim := by
  have hfree := hr.free hsep
  induction s using split_induction sep with
  | hfree s hs =>
    have hsr : Free sep (s ++ r) := free_append_iff.mpr ⟨hs, hfree⟩
    rw [split_of_free hsr, split_of_free hs]
    simp [trim_append_blank hr]
  | hglue a b ha ih =>
    rw [glue_append, split_glue ha, split_glue ha, List.map_cons, ih, List.map_cons]

/-- **A string may be trimmed before it is split**, if the parts are trimmed. -/
theorem map_trim_split_trim (hsep : isWhitespace sep = false) (s : String) :
    (split (trim s) sep).map trim = (split s sep).map trim := by
  rcases pads_trim s with ⟨l, r, hl, hr, hs⟩
  conv_rhs => rw [hs]
  rw [map_trim_split_append_blank hsep hr, map_trim_split_blank_append hsep hl]

end Parts

end Text
