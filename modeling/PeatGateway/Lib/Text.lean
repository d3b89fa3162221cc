import Mathlib.Tactic.Common
import Mathlib.Data.List.DropRight

/-!
# Text as the standard library of the source handles it

Strings are sequences of Unicode scalar values that are measured, and compared,
through their UTF-8 bytes.  The byte-wise order of UTF-8 text is the order of the
scalar values, which is the order of `String`.

## Main definitions

* `utf8`, `startsWith`, `stripPrefix`, `trim` — the operations of `str`.
* `Free c s` — the character `c` does not occur in `s`.
* `glue sep a b` — two strings joined by a separator.
* `frames term xs` — blocks, each followed by a terminator.

## Main results

* `glue_inj`, `glue_inj_of_free`, `startsWith_glue` — **a separator that does not occur in
  the parts makes them readable off the whole**.
* `frames_inj` — **blocks that the terminator does not occur in can be read off one after the
  other**.
* `glue_eq_glue_iff` — **when two pairs are glued to one string**.
* `glue_lt_glue` — gluing the same first part keeps the order.
-/

namespace Text

/-- The UTF-8 bytes of a string. -/
def utf8 (s : String) : List UInt8 := s.toList.flatMap String.utf8EncodeChar

/-- `s.starts_with(p)`. -/
def startsWith (s p : String) : Bool := p.toList.isPrefixOf s.toList

/-- `s.strip_prefix(p)`. -/
def stripPrefix (s p : String) : Option String :=
  if startsWith s p then some (String.ofList (s.toList.drop p.toList.length)) else none

/-- The Unicode property `White_Space`. -/
def isWhitespace (c : Char) : Bool :=
  (9 ≤ c.toNat && c.toNat ≤ 13) || c.toNat == 32 || c.toNat == 0x85 || c.toNat == 0xA0 ||
    c.toNat == 0x1680 || (0x2000 ≤ c.toNat && c.toNat ≤ 0x200A) || c.toNat == 0x2028 ||
    c.toNat == 0x2029 || c.toNat == 0x202F || c.toNat == 0x205F || c.toNat == 0x3000

/-- `s.trim()`. -/
def trim (s : String) : String :=
  String.ofList ((s.toList.dropWhile isWhitespace).rdropWhile isWhitespace)

/-- `s.trim_end_matches(c)`. -/
def trimEndMatches (s : String) (c : Char) : String :=
  String.ofList (s.toList.rdropWhile (· == c))

/-- `b.is_ascii_alphanumeric()`. -/
def isAsciiAlphanumeric (b : UInt8) : Bool :=
  (48 ≤ b && b ≤ 57) || (65 ≤ b && b ≤ 90) || (97 ≤ b && b ≤ 122)

theorem startsWith_iff {s p : String} : startsWith s p = true ↔ p.toList <+: s.toList :=
  List.isPrefixOf_iff_prefix

/-! ### Separators -/

/-- The character does not occur in the string. -/
def Free (c : Char) (s : String) : Prop := c ∉ s.toList

instance (c : Char) (s : String) : Decidable (Free c s) :=
  inferInstanceAs (Decidable (c ∉ s.toList))

/-- Two strings joined by a separator. -/
def glue (sep : Char) (a b : String) : String := a ++ String.singleton sep ++ b

@[simp] theorem toList_glue (sep : Char) (a b : String) :
    (glue sep a b).toList = a.toList ++ sep :: b.toList := by
  simp [glue]

theorem append_cons_inj {α : Type*} {c : α} : ∀ {a a' b b' : List α},
    c ∉ a → c ∉ a' → a ++ c :: b = a' ++ c :: b' → a = a' ∧ b = b'
  | [], [], _, _, _, _, h => ⟨rfl, (List.cons.inj h).2⟩
  | [], _ :: _, _, _, _, ha', h => absurd (List.cons.inj h).1 fun e => ha' (e ▸ List.mem_cons_self)
  | _ :: _, [], _, _, ha, _, h =>
    absurd (List.cons.inj h).1.symm fun e => ha (e ▸ List.mem_cons_self)
  | x :: a, y :: a', b, b', ha, ha', h => by
    obtain ⟨hxy, h⟩ := List.cons.inj h
    obtain ⟨haa, hbb⟩ := append_cons_inj (fun hc => ha (List.mem_cons_of_mem _ hc))
      (fun hc => ha' (List.mem_cons_of_mem _ hc)) h
    exact ⟨by rw [hxy, haa], hbb⟩

/-- Blocks, each followed by a terminator. -/
def frames {α : Type*} (term : α) (xs : List (List α)) : List α := xs.flatMap (· ++ [term])

@[simp] theorem frames_nil {α : Type*} (term : α) : frames term [] = [] := rfl

@[simp] theorem frames_cons {α : Type*} (term : α) (x : List α) (xs : List (List α)) :
    frames term (x :: xs) = x ++ term :: frames term xs := by
  rw [frames, List.flatMap_cons, List.append_assoc]
  rfl

/-- **The blocks can be read off one after the other** when the terminator occurs in none. -/
theorem frames_inj {α : Type*} {term : α} {xs ys : List (List α)} (hx : ∀ x ∈ xs, term ∉ x)
    (hy : ∀ y ∈ ys, term ∉ y) (h : frames term xs = frames term ys) : xs = ys := by
  induction xs generalizing ys with
  | nil =>
    cases ys with
    | nil => rfl
    | cons y ys => simp at h
  | cons x xs ih =>
    cases ys with
    | nil => simp at h
    | cons y ys =>
      rw [frames_cons, frames_cons] at h
      have hparts := append_cons_inj (hx x List.mem_cons_self) (hy y List.mem_cons_self) h
      have hrest := ih (fun z hz => hx z (List.mem_cons_of_mem _ hz))
        (fun z hz => hy z (List.mem_cons_of_mem _ hz)) hparts.2
      rw [hparts.1, hrest]

/-- **The parts can be read off the whole** when the separator occurs in neither
first part. -/
theorem glue_inj {sep : Char} {a a' b b' : String} (ha : Free sep a) (ha' : Free sep a')
    (h : glue sep a b = glue sep a' b') : a = a' ∧ b = b' := by
  have h' := congrArg String.toList h
  rw [toList_glue, toList_glue] at h'
  obtain ⟨h₁, h₂⟩ := append_cons_inj ha ha' h'
  exact ⟨String.toList_injective h₁, String.toList_injective h₂⟩

/-- The second part can be read off if the first is known. -/
theorem glue_cancel {sep : Char} {a b b' : String} (h : glue sep a b = glue sep a b') :
    b = b' := by
  have h' := congrArg String.toList h
  rw [toList_glue, toList_glue] at h'
  exact String.toList_injective (List.cons.inj (List.append_cancel_left h')).2

/-- **The parts can be read off the whole** when the separator occurs in neither part of
one of the two: then it occurs once in all. -/
theorem glue_inj_of_free {sep : Char} {a a' b b' : String} (ha : Free sep a) (hb : Free sep b)
    (h : glue sep a b = glue sep a' b') : a = a' ∧ b = b' := by
  refine glue_inj ha ?_ h
  have h' := congrArg (fun s => s.toList.count sep) h
  simp only [toList_glue, List.count_append, List.count_cons_self] at h'
  rw [List.count_eq_zero_of_not_mem ha, List.count_eq_zero_of_not_mem hb] at h'
  exact List.count_eq_zero.mp (by omega)

/-- The lists are the same, or the one is cut at a separator inside a part of the other. -/
theorem append_cons_eq_iff {α : Type*} {c : α} {a a' b b' : List α} :
    a ++ c :: b = a' ++ c :: b' ↔
      (a = a' ∧ b = b') ∨ (∃ x, a' = a ++ c :: x ∧ b = x ++ c :: b') ∨
        ∃ x, a = a' ++ c :: x ∧ b' = x ++ c :: b := by
  rw [List.append_eq_append_iff]
  constructor
  · rintro (⟨x, rfl, h⟩ | ⟨x, rfl, h⟩)
    · cases x with
      | nil => exact Or.inl ⟨(List.append_nil a).symm, (List.cons.inj h).2⟩
      | cons y x =>
        obtain ⟨rfl, hb⟩ := List.cons.inj h
        exact Or.inr (Or.inl ⟨x, rfl, hb⟩)
    · cases x with
      | nil => exact Or.inl ⟨List.append_nil a', (List.cons.inj h).2.symm⟩
      | cons y x =>
        obtain ⟨rfl, hb⟩ := List.cons.inj h
        exact Or.inr (Or.inr ⟨x, rfl, hb⟩)
  · rintro (⟨rfl, rfl⟩ | ⟨x, rfl, rfl⟩ | ⟨x, rfl, rfl⟩)
    · exact Or.inl ⟨[], by simp⟩
    · exact Or.inl ⟨c :: x, by simp⟩
    · exact Or.inr ⟨c :: x, by simp⟩

/-- **When two pairs of strings are glued to one string.** -/
theorem glue_eq_glue_iff {sep : Char} {a a' b b' : String} :
    glue sep a b = glue sep a' b' ↔
      (a = a' ∧ b = b') ∨ (∃ x, a' = glue sep a x ∧ b = glue sep x b') ∨
        ∃ x, a = glue sep a' x ∧ b' = glue sep x b := by
  -- a string is known by its characters, and any characters make a string
  have hstr : ∀ P : List Char → Prop, (∃ l, P l) ↔ ∃ s : String, P s.toList := fun P =>
    ⟨fun ⟨l, hl⟩ => ⟨String.ofList l, by rwa [String.toList_ofList]⟩, fun ⟨s, hs⟩ => ⟨_, hs⟩⟩
  simp only [← String.toList_inj, toList_glue]
  rw [append_cons_eq_iff, hstr, hstr]

/-- A string starts with `a` and the separator exactly when it is glued from `a`. -/
theorem startsWith_glue_iff {sep : Char} {a s : String} :
    startsWith s (glue sep a "") = true ↔ ∃ b, s = glue sep a b := by
  rw [startsWith_iff, toList_glue]
  constructor
  · rintro ⟨t, ht⟩
    refine ⟨String.ofList t, String.toList_injective ?_⟩
    rw [toList_glue, ← ht, String.toList_ofList]
    simp
  · rintro ⟨b, rfl⟩
    exact ⟨b.toList, by simp⟩

/-- **Only its own first part is a prefix of a glued string.** -/
theorem startsWith_glue {sep : Char} {a a' b : String} (ha : Free sep a) (ha' : Free sep a') :
    startsWith (glue sep a b) (glue sep a' "") = true ↔ a = a' := by
  rw [startsWith_glue_iff]
  constructor
  · rintro ⟨b', h⟩
    exact (glue_inj ha ha' h).1
  · rintro rfl
    exact ⟨b, rfl⟩

/-- A common first part does not matter. -/
theorem append_lt_append_left_iff {α : Type*} [LT α] [Std.Irrefl (fun a b : α => a < b)]
    (l : List α) {x y : List α} : l ++ x < l ++ y ↔ x < y := by
  induction l with
  | nil => rfl
  | cons c l ih => rw [List.cons_append, List.cons_append, List.cons_lt_cons_self, ih]

/-- Gluing the same first part keeps the order. -/
theorem glue_lt_glue {sep : Char} {a b b' : String} :
    glue sep a b < glue sep a b' ↔ b < b' := by
  rw [String.lt_iff, String.lt_iff, toList_glue, toList_glue, append_lt_append_left_iff,
    List.cons_lt_cons_self]

end Text
