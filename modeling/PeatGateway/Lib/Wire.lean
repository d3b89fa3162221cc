import Mathlib.Tactic.Common
import Mathlib.Tactic.IntervalCases

/-!
# Byte strings on the wire

Slices with their bounds, sixteen-bit lengths in little-endian order, and hexadecimal
text.

## Main definitions

* `Wire.slice` — a range of a byte string that is known to lie inside it.
* `Wire.le16`, `Wire.fromLe16` — a length as two bytes.
* `Wire.hexEncode`, `Wire.hexDecode` — bytes as hexadecimal digits.

## Main results

* `Wire.slice_eq` — the parts of a concatenation are its slices.
* `Wire.fromLe16_le16` — a length below `2 ^ 16` is read back.
* `Wire.eq_of_digits_eq` — a number is known by its digits.
* `Wire.digitsVal_toDigits` — a number is read back from its hexadecimal digits.
-/

namespace Wire

variable {α : Type}

/-- `&d[a..b]`, for a range inside the data. -/
def slice (d : List α) (a b : ℕ) (_h : a ≤ b ∧ b ≤ d.length) : List α := (d.drop a).take (b - a)

/-- **The middle of three parts is the slice between their lengths.** -/
theorem slice_eq {d x y z : List α} {a b : ℕ} (h : a ≤ b ∧ b ≤ d.length)
    (hd : d = x ++ (y ++ z)) (ha : a = x.length) (hb : b = x.length + y.length) :
    slice d a b h = y := by
  subst hd ha hb
  rw [slice, List.drop_left, Nat.add_sub_cancel_left, List.take_left]

/-! ### Lengths -/

/-- The two bytes of a length, the lower one first. -/
def le16 (n : ℕ) : List UInt8 := [UInt8.ofNat (n % 256), UInt8.ofNat (n / 256)]

/-- The length two bytes stand for. -/
def fromLe16 (lo hi : UInt8) : ℕ := lo.toNat + 256 * hi.toNat

@[simp] theorem length_le16 (n : ℕ) : (le16 n).length = 2 := rfl

/-- **A length below `2 ^ 16` is read back.** -/
theorem fromLe16_le16 {n : ℕ} (hn : n ≤ 65535) :
    fromLe16 (UInt8.ofNat (n % 256)) (UInt8.ofNat (n / 256)) = n := by
  rw [fromLe16, UInt8.toNat_ofNat', UInt8.toNat_ofNat']
  omega

theorem fromLe16_le (lo hi : UInt8) : fromLe16 lo hi ≤ 65535 := by
  have hlo := lo.toNat_lt
  have hhi := hi.toNat_lt
  rw [fromLe16]
  omega

/-- Any two bytes are those of the length they stand for. -/
theorem le16_fromLe16 (lo hi : UInt8) : le16 (fromLe16 lo hi) = [lo, hi] := by
  have hlo := lo.toNat_lt
  have h₁ : (lo.toNat + 256 * hi.toNat) % 256 = lo.toNat := by omega
  have h₂ : (lo.toNat + 256 * hi.toNat) / 256 = hi.toNat := by omega
  rw [le16, fromLe16, h₁, h₂, UInt8.ofNat_toNat, UInt8.ofNat_toNat]

/-- **A number is known by its digits**, the lowest first. -/
theorem eq_of_digits_eq {b w m n : ℕ} (hm : m < b ^ w) (hn : n < b ^ w)
    (h : ∀ i < w, m / b ^ i % b = n / b ^ i % b) : m = n := by
  induction w generalizing m n with
  | zero =>
    rw [pow_zero] at hm hn
    omega
  | succ w ih =>
    have hlow : m % b = n % b := by simpa using h 0 (Nat.succ_pos w)
    have hhigh : m / b = n / b := by
      refine ih ?_ ?_ ?_
      · exact Nat.div_lt_of_lt_mul (by rwa [← pow_succ'])
      · exact Nat.div_lt_of_lt_mul (by rwa [← pow_succ'])
      · intro i hi
        rw [Nat.div_div_eq_div_mul, Nat.div_div_eq_div_mul, ← pow_succ']
        exact h (i + 1) (Nat.succ_lt_succ hi)
    rw [← Nat.div_add_mod m b, ← Nat.div_add_mod n b, hlow, hhigh]

/-! ### Hexadecimal -/

/-- A lower-case hexadecimal digit. -/
def hexDigit (n : ℕ) : Char := if n < 10 then Char.ofNat (48 + n) else Char.ofNat (87 + n)

/-- `hex::encode`. -/
def hexEncode (bs : List UInt8) : String :=
  String.ofList (bs.flatMap fun b => [hexDigit (b.toNat / 16), hexDigit (b.toNat % 16)])

/-- The value of a hexadecimal digit of either case. -/
def hexVal (c : Char) : Option ℕ :=
  if 48 ≤ c.toNat ∧ c.toNat ≤ 57 then some (c.toNat - 48)
  else if 97 ≤ c.toNat ∧ c.toNat ≤ 102 then some (c.toNat - 87)
  else if 65 ≤ c.toNat ∧ c.toNat ≤ 70 then some (c.toNat - 55)
  else none

/-- The bytes of a list of digits, two digits each. -/
def hexPairs : List Char → Option (List UInt8)
  | [] => some []
  | [_] => none
  | hi :: lo :: cs => do
    let h ← hexVal hi
    let l ← hexVal lo
    let bs ← hexPairs cs
    return UInt8.ofNat (16 * h + l) :: bs

/-- `hex::decode`: `none` for an odd number of digits or a character that is none. -/
def hexDecode (s : String) : Option (List UInt8) := hexPairs s.toList

/-! ### Numbers in hexadecimal -/

/-- The number that digits stand for. -/
def digitsVal (cs : List Char) : ℕ := cs.foldl (fun n c => 16 * n + (hexVal c).getD 0) 0

theorem hexVal_digitChar {n : ℕ} (hn : n < 16) : (hexVal n.digitChar).getD 0 = n := by
  interval_cases n <;> rfl

theorem digitsVal_append_singleton (cs : List Char) (c : Char) :
    digitsVal (cs ++ [c]) = 16 * digitsVal cs + (hexVal c).getD 0 := by
  rw [digitsVal, List.foldl_append]
  rfl

/-- The digits of a number stand for it. -/
theorem digitsVal_toDigits (n : ℕ) : digitsVal (Nat.toDigits 16 n) = n := by
  induction n using Nat.strongRecOn with
  | ind n ih =>
    by_cases hn : n < 16
    · rw [Nat.toDigits_of_lt_base hn, ← List.nil_append [_], digitsVal_append_singleton,
        hexVal_digitChar hn]
      exact Nat.zero_add n
    · rw [Nat.toDigits_of_base_le (by decide) (Nat.le_of_not_lt hn), digitsVal_append_singleton,
        ih _ (by omega), hexVal_digitChar (Nat.mod_lt n (by decide))]
      omega

/-- Zeros in front change nothing. -/
theorem digitsVal_leftpad (k : ℕ) (cs : List Char) :
    digitsVal (List.leftpad k '0' cs) = digitsVal cs := by
  rw [List.leftpad, digitsVal, List.foldl_append]
  congr 1
  generalize k - cs.length = m
  induction m with
  | zero => rfl
  | succ m ih =>
    rw [List.replicate_succ, List.foldl_cons]
    exact ih

end Wire
