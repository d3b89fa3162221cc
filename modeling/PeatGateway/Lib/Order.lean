import Mathlib.Data.String.Basic
import Mathlib.Tactic.Linarith
import PeatGateway.Lib.Text

/-!
# The order of text

Text is compared by its UTF-8 bytes.  The bytes of a character with a smaller scalar value
come first, so the order of the bytes is the order of the characters.  Numbers written with
equally many digits are ordered by their values.

## Main results

* `utf8_lt_utf8_iff` — **the order of UTF-8 bytes is that of the text**.
* `utf8_inj`, `not_mem_utf8` — text is known by its bytes, none of which is `0xff`.
* `lt_iff_ofDigitChars_lt` — **padded numbers are ordered by their values**.
-/

namespace Text

/-- First parts of one length are compared first. -/
theorem append_lt_append_iff_of_length {α : Type*} [LT α] {a a' b b' : List α}
    (h : a.length = a'.length) :
    a ++ b < a' ++ b' ↔ a < a' ∨ a = a' ∧ b < b' := by
  induction a generalizing a' with
  | nil =>
    have ha' : a' = [] := List.length_eq_zero_iff.mp h.symm
    subst ha'
    simp
  | cons x a ih =>
    cases a' with
    | nil => simp at h
    | cons x' a' =>
      have hlen : a.length = a'.length := by simpa using h
      rw [List.cons_append, List.cons_append, List.cons_lt_cons_iff, List.cons_lt_cons_iff,
        ih hlen, List.cons.injEq]
      tauto

/-! ### UTF-8 -/

/-- The bytes of a character are below `0xf8`. -/
theorem lt_of_mem_utf8EncodeChar {c : Char} {b : UInt8} (h : b ∈ String.utf8EncodeChar c) :
    b.toNat < 0xf8 := by
  unfold String.utf8EncodeChar at h
  dsimp only at h
  split_ifs at h <;> simp only [List.mem_cons, List.not_mem_nil, or_false] at h
  · subst h
    rw [UInt8.toNat_ofNat']
    omega
  · rcases h with rfl | rfl <;> rw [UInt8.toNat_ofNat'] <;> omega
  · rcases h with rfl | rfl | rfl <;> rw [UInt8.toNat_ofNat'] <;> omega
  · rcases h with rfl | rfl | rfl | rfl <;> rw [UInt8.toNat_ofNat'] <;> omega

/-- A character that is smaller has bytes that come first, whatever follows. -/
theorem utf8EncodeChar_append_lt {c d : Char} (h : c < d) (u v : List UInt8) :
    String.utf8EncodeChar c ++ u < String.utf8EncodeChar d ++ v := by
  have hlt : c.val.toNat < d.val.toNat := h
  have hd : d.val.toNat < 0x110000 := by
    have hvalid := d.valid
    simp only [UInt32.isValidChar, Nat.isValidChar] at hvalid
    omega
  unfold String.utf8EncodeChar
  dsimp only
  split_ifs <;>
    simp only [List.cons_append, List.cons_lt_cons_iff, UInt8.lt_iff_toNat_lt, ← UInt8.toNat_inj,
      UInt8.toNat_ofNat', List.nil_append] <;>
    simp (disch := omega) only [Nat.mod_eq_of_lt] <;>
    omega

/-- Characters of smaller value come first exactly if their bytes do. -/
theorem flatMap_lt_flatMap_iff {cs ds : List Char} :
    cs.flatMap String.utf8EncodeChar < ds.flatMap String.utf8EncodeChar ↔ cs < ds := by
  induction cs generalizing ds with
  | nil =>
    cases ds with
    | nil => simp
    | cons d ds =>
      have hne : String.utf8EncodeChar d ≠ [] := String.utf8EncodeChar_ne_nil
      rw [List.flatMap_cons, List.flatMap_nil]
      cases hd : String.utf8EncodeChar d with
      | nil => exact absurd hd hne
      | cons b bs => simp
  | cons c cs ih =>
    cases ds with
    | nil => simp
    | cons d ds =>
      rw [List.flatMap_cons, List.flatMap_cons, List.cons_lt_cons_iff]
      rcases lt_trichotomy c d with hlt | heq | hgt
      · exact iff_of_true (utf8EncodeChar_append_lt hlt _ _) (Or.inl hlt)
      · subst heq
        rw [append_lt_append_left_iff, ih]
        simp
      · have hafter := utf8EncodeChar_append_lt hgt (ds.flatMap String.utf8EncodeChar)
          (cs.flatMap String.utf8EncodeChar)
        apply iff_of_false (List.lt_asymm hafter)
        rintro (hlt | ⟨heq, -⟩)
        · exact lt_asymm hlt hgt
        · exact (ne_of_gt hgt) heq

/-- **The order of UTF-8 bytes is that of the text.** -/
theorem utf8_lt_utf8_iff {s t : String} : utf8 s < utf8 t ↔ s < t := by
  rw [String.lt_iff]
  exact flatMap_lt_flatMap_iff

/-- Text is known by its bytes. -/
theorem utf8_inj {s t : String} : utf8 s = utf8 t ↔ s = t := by
  constructor
  · intro h
    rcases lt_trichotomy s t with hlt | heq | hgt
    · exact absurd (utf8_lt_utf8_iff.mpr hlt) (h ▸ List.lt_irrefl _)
    · exact heq
    · exact absurd (utf8_lt_utf8_iff.mpr hgt) (h ▸ List.lt_irrefl _)
  · intro h
    rw [h]

/-- No byte of UTF-8 is `0xff`. -/
theorem not_mem_utf8 (s : String) : (0xff : UInt8) ∉ utf8 s := by
  intro h
  rcases List.mem_flatMap.mp h with ⟨c, -, hb⟩
  have hlt := lt_of_mem_utf8EncodeChar hb
  exact absurd hlt (by decide)

/-! ### Decimals -/

theorem digit_bounds {c : Char} (h : c.isDigit = true) : 48 ≤ c.toNat ∧ c.toNat ≤ 57 :=
  Char.isDigit_iff_toNat.mp h

theorem ofDigitChars_cons_zero (c : Char) (cs : List Char) :
    Nat.ofDigitChars 10 (c :: cs) 0 =
      10 ^ cs.length * (c.toNat - 48) + Nat.ofDigitChars 10 cs 0 := by
  rw [Nat.ofDigitChars_cons, Nat.ofDigitChars_eq_ofDigitChars_zero, Nat.mul_zero, Nat.zero_add]
  rfl

/-- A number is bounded by its length. -/
theorem ofDigitChars_lt {cs : List Char} (h : ∀ c ∈ cs, c.isDigit = true) :
    Nat.ofDigitChars 10 cs 0 < 10 ^ cs.length := by
  induction cs with
  | nil => simp
  | cons c cs ih =>
    have hc := digit_bounds (h c List.mem_cons_self)
    have hcs := ih fun d hd => h d (List.mem_cons_of_mem _ hd)
    have hle : 10 ^ cs.length * (c.toNat - 48) ≤ 10 ^ cs.length * 9 :=
      Nat.mul_le_mul_left _ (by omega)
    rw [ofDigitChars_cons_zero, List.length_cons, pow_succ]
    omega

/-- The first digit is compared first. -/
theorem mul_add_lt_mul_add_iff {p x y a b : ℕ} (ha : a < p) (hb : b < p) :
    p * x + a < p * y + b ↔ x < y ∨ x = y ∧ a < b := by
  rcases lt_trichotomy x y with hlt | heq | hgt
  · have hle : p * (x + 1) ≤ p * y := Nat.mul_le_mul_left p hlt
    rw [Nat.mul_succ] at hle
    omega
  · subst heq
    omega
  · have hle : p * (y + 1) ≤ p * x := Nat.mul_le_mul_left p hgt
    rw [Nat.mul_succ] at hle
    omega

/-- **Numbers with equally many digits are ordered by their values.** -/
theorem lt_iff_ofDigitChars_lt {cs ds : List Char} (hlen : cs.length = ds.length)
    (hcs : ∀ c ∈ cs, c.isDigit = true) (hds : ∀ d ∈ ds, d.isDigit = true) :
    cs < ds ↔ Nat.ofDigitChars 10 cs 0 < Nat.ofDigitChars 10 ds 0 := by
  induction cs generalizing ds with
  | nil =>
    have hnil : ds = [] := List.length_eq_zero_iff.mp hlen.symm
    simp [hnil]
  | cons c cs ih =>
    cases ds with
    | nil => simp at hlen
    | cons d ds =>
      have hlen' : cs.length = ds.length := by simpa using hlen
      have hcs' : ∀ c ∈ cs, c.isDigit = true := fun x hx => hcs x (List.mem_cons_of_mem _ hx)
      have hds' : ∀ d ∈ ds, d.isDigit = true := fun x hx => hds x (List.mem_cons_of_mem _ hx)
      have hc := digit_bounds (hcs c List.mem_cons_self)
      have hd := digit_bounds (hds d List.mem_cons_self)
      have hclt := ofDigitChars_lt hcs'
      have hlt : c < d ↔ c.toNat < d.toNat := Iff.rfl
      have heq : c = d ↔ c.toNat = d.toNat := Char.toNat_inj.symm
      rw [hlen'] at hclt
      rw [List.cons_lt_cons_iff, ih hlen' hcs' hds', ofDigitChars_cons_zero,
        ofDigitChars_cons_zero, hlen', mul_add_lt_mul_add_iff hclt (ofDigitChars_lt hds'), hlt, heq]
      omega

/-- Zeros in front change nothing. -/
theorem ofDigitChars_leftpad (k : ℕ) (cs : List Char) :
    Nat.ofDigitChars 10 (List.leftpad k '0' cs) 0 = Nat.ofDigitChars 10 cs 0 := by
  rw [List.leftpad, Nat.ofDigitChars_append, Nat.ofDigitChars_replicate_zero, Nat.mul_zero]

end Text
