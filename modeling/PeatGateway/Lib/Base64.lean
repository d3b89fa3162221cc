import Mathlib.Tactic.Common

/-!
# Base64

Three bytes are written as four digits of six bits each; a last group of one or two bytes is filled
up with the padding sign.  The reader accepts nothing but what the writer writes: padding has to be
there, and the bits of the last digit that stand for no byte have to be zero.

## Main definitions

* `Base64.encode`, `Base64.decode` — the writer and the reader.

## Main results

* `Base64.decode_encode` — **bytes are read back from their text**.
-/

namespace Base64

/-- The digits in the order of their values. -/
def alphabet : List Char :=
  "ABCDEFGHIJKLMNOPQRSTUVWXYZabcdefghijklmnopqrstuvwxyz0123456789+/".toList

/-- The digit of a value below 64. -/
def digit (n : ℕ) : Char := alphabet.getD n '='

/-- The value of a digit. -/
def value (c : Char) : Option ℕ := alphabet.idxOf? c

/-- The padding sign. -/
def pad : Char := '='

/-- The digits of a list of bytes. -/
def encodeChars : List UInt8 → List Char
  | [] => []
  | [x] => [digit (x.toNat / 4), digit (x.toNat % 4 * 16), pad, pad]
  | [x, y] =>
    [digit (x.toNat / 4), digit (x.toNat % 4 * 16 + y.toNat / 16), digit (y.toNat % 16 * 4), pad]
  | x :: y :: z :: bytes =>
    digit (x.toNat / 4) :: digit (x.toNat % 4 * 16 + y.toNat / 16) ::
      digit (y.toNat % 16 * 4 + z.toNat / 64) :: digit (z.toNat % 64) :: encodeChars bytes

/-- The byte at the end of a text. -/
def lastOne (a b : Char) : Option (List UInt8) := do
  let m ← value a
  let n ← value b
  if n % 16 = 0 then some [UInt8.ofNat (m * 4 + n / 16)] else none

/-- The two bytes at the end of a text. -/
def lastTwo (a b c : Char) : Option (List UInt8) := do
  let m ← value a
  let n ← value b
  let o ← value c
  if o % 4 = 0 then
    some [UInt8.ofNat (m * 4 + n / 16), UInt8.ofNat (n % 16 * 16 + o / 4)]
  else none

/-- Three bytes. -/
def group (a b c d : Char) : Option (List UInt8) := do
  let m ← value a
  let n ← value b
  let o ← value c
  let p ← value d
  return [UInt8.ofNat (m * 4 + n / 16), UInt8.ofNat (n % 16 * 16 + o / 4),
    UInt8.ofNat (o % 4 * 64 + p)]

/-- The bytes of a list of digits. -/
def decodeChars : List Char → Option (List UInt8)
  | [] => some []
  | a :: b :: c :: d :: cs =>
    if d = pad then
      if cs ≠ [] then none
      else if c = pad then lastOne a b
      else lastTwo a b c
    else do return (← group a b c d) ++ (← decodeChars cs)
  | _ => none

/-- `STANDARD.encode`. -/
def encode (bytes : List UInt8) : String := String.ofList (encodeChars bytes)

/-- `STANDARD.decode`. -/
def decode (s : String) : Option (List UInt8) := decodeChars s.toList

/-! ### Reading back -/

@[simp] theorem value_digit {n : ℕ} (hn : n < 64) : value (digit n) = some n := by
  have hall : ∀ n < 64, value (digit n) = some n := by decide +kernel
  exact hall n hn

@[simp] theorem digit_ne_pad {n : ℕ} (hn : n < 64) : digit n ≠ pad := by
  have hall : ∀ n < 64, digit n ≠ pad := by decide +kernel
  exact hall n hn

/-- A byte is known by its value. -/
theorem ofNat_eq {n : ℕ} {x : UInt8} (h : n = x.toNat) : UInt8.ofNat n = x := by
  rw [h, UInt8.ofNat_toNat]

theorem decodeChars_encodeChars (bytes : List UInt8) :
    decodeChars (encodeChars bytes) = some bytes := by
  induction bytes using encodeChars.induct with
  | case1 => rfl
  | case2 x =>
    have hx := x.toNat_lt
    have hhigh : x.toNat / 4 < 64 := by omega
    have hlow : x.toNat % 4 * 16 < 64 := by omega
    have hbyte : UInt8.ofNat (x.toNat / 4 * 4 + x.toNat % 4 * 16 / 16) = x := ofNat_eq (by omega)
    simp only [encodeChars, decodeChars, lastOne, value_digit hhigh, value_digit hlow,
      Option.bind_eq_bind, Option.bind_some, hbyte]
    simp
  | case3 x y =>
    have hx := x.toNat_lt
    have hy := y.toNat_lt
    have h₁ : x.toNat / 4 < 64 := by omega
    have h₂ : x.toNat % 4 * 16 + y.toNat / 16 < 64 := by omega
    have h₃ : y.toNat % 16 * 4 < 64 := by omega
    have hfirst : UInt8.ofNat (x.toNat / 4 * 4 + (x.toNat % 4 * 16 + y.toNat / 16) / 16) = x :=
      ofNat_eq (by omega)
    have hsecond : UInt8.ofNat ((x.toNat % 4 * 16 + y.toNat / 16) % 16 * 16 +
        y.toNat % 16 * 4 / 4) = y := ofNat_eq (by omega)
    simp only [encodeChars, decodeChars, lastTwo, digit_ne_pad h₃, value_digit h₁, value_digit h₂,
      value_digit h₃, Option.bind_eq_bind, Option.bind_some, hfirst, hsecond]
    simp
  | case4 x y z bytes ih =>
    have hx := x.toNat_lt
    have hy := y.toNat_lt
    have hz := z.toNat_lt
    have h₁ : x.toNat / 4 < 64 := by omega
    have h₂ : x.toNat % 4 * 16 + y.toNat / 16 < 64 := by omega
    have h₃ : y.toNat % 16 * 4 + z.toNat / 64 < 64 := by omega
    have h₄ : z.toNat % 64 < 64 := by omega
    have hfirst : UInt8.ofNat (x.toNat / 4 * 4 + (x.toNat % 4 * 16 + y.toNat / 16) / 16) = x :=
      ofNat_eq (by omega)
    have hsecond : UInt8.ofNat ((x.toNat % 4 * 16 + y.toNat / 16) % 16 * 16 +
        (y.toNat % 16 * 4 + z.toNat / 64) / 4) = y := ofNat_eq (by omega)
    have hthird : UInt8.ofNat ((y.toNat % 16 * 4 + z.toNat / 64) % 4 * 64 + z.toNat % 64) = z :=
      ofNat_eq (by omega)
    rw [encodeChars, decodeChars, if_neg (digit_ne_pad h₄), ih]
    simp only [group, value_digit h₁, value_digit h₂, value_digit h₃, value_digit h₄,
      Option.bind_eq_bind, Option.bind_some, hfirst, hsecond, hthird]
    rfl

/-- **Bytes are read back from their text.** -/
theorem decode_encode (bytes : List UInt8) : decode (encode bytes) = some bytes := by
  rw [decode, encode, String.toList_ofList, decodeChars_encodeChars]

end Base64
