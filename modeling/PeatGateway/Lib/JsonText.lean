import Mathlib.Data.List.TakeWhile
import Mathlib.Tactic.Common
import PeatGateway.Lib.Codec
import PeatGateway.Lib.Text

/-!
# Reading JSON

A reader of JSON texts, which gives back the value that a compact text was made from.

A number is kept as it is written, so what is read from a text is not what the text would be
normalized to.

## Main definitions

* `Json.isNumber` — the grammar of numbers.
* `Json.readString`, `Json.readValue`, `Json.ofText` — the reader.
* `Json.wellFormed` — the numbers of a value are numbers.

## Main results

* `Json.readValue_toText` — the text of a value is read, and nothing beyond it.
* `Json.ofText_toText` — **a value is read back from its compact text**.
* `Json.ofBytes_toBytes` — a value is read back from its bytes.
-/

namespace Json

/-! ### Numbers -/

/-- The end of a number: an exponent or nothing. -/
def isExponent : List Char → Bool
  | [] => true
  | c :: cs =>
    (c == 'e' || c == 'E') &&
      (let digits := match cs with
        | '+' :: ds | '-' :: ds => ds
        | ds => ds
      !digits.isEmpty && digits.all Char.isDigit)

/-- What follows the integral part of a number. -/
def isFraction : List Char → Bool
  | '.' :: cs => (cs.head?.any Char.isDigit) && isExponent (cs.dropWhile Char.isDigit)
  | cs => isExponent cs

/-- The grammar of numbers without a sign. -/
def isUnsigned : List Char → Bool
  | '0' :: cs => isFraction cs
  | c :: cs => c.isDigit && isFraction (cs.dropWhile Char.isDigit)
  | [] => false

/-- The grammar of numbers. -/
def isNumber : List Char → Bool
  | '-' :: cs => isUnsigned cs
  | cs => isUnsigned cs

/-- The characters of numbers. -/
def numberChar (c : Char) : Bool :=
  c.isDigit || c == '-' || c == '+' || c == '.' || c == 'e' || c == 'E'

/-- A number, up to the first character that is none of a number's. -/
def readNumber (cs : List Char) : Option (Json × List Char) :=
  if isNumber (cs.takeWhile numberChar) then
    some (.number (String.ofList (cs.takeWhile numberChar)), cs.dropWhile numberChar)
  else none

/-! ### Strings -/

/-- The number that four hexadecimal digits stand for. -/
def readHex4 (a b c d : Char) : Option ℕ := do
  return 4096 * (← Wire.hexVal a) + 256 * (← Wire.hexVal b) + 16 * (← Wire.hexVal c) +
    (← Wire.hexVal d)

/-- The character of a short escape. -/
def unescape (c : Char) : Option Char :=
  if c == '"' || c == '\\' || c == '/' then some c
  else if c == 'b' then some (Char.ofNat 8)
  else if c == 'f' then some (Char.ofNat 12)
  else if c == 'n' then some (Char.ofNat 10)
  else if c == 'r' then some (Char.ofNat 13)
  else if c == 't' then some (Char.ofNat 9)
  else none

/-- What follows a backslash.  Two escapes may stand for one character beyond the first 65536. -/
def readEscape : List Char → Option (Char × List Char)
  | 'u' :: a :: b :: c :: d :: cs => do
    let code ← readHex4 a b c d
    if 0xD800 ≤ code ∧ code < 0xDC00 then
      match cs with
      | '\\' :: 'u' :: a' :: b' :: c' :: d' :: cs =>
        let low ← readHex4 a' b' c' d'
        if 0xDC00 ≤ low ∧ low < 0xE000 then
          some (Char.ofNat (0x10000 + (code - 0xD800) * 0x400 + (low - 0xDC00)), cs)
        else none
      | _ => none
    else if 0xDC00 ≤ code ∧ code < 0xE000 then none
    else some (Char.ofNat code, cs)
  | c :: cs => (unescape c).map fun c => (c, cs)
  | [] => none

/-- The characters up to the closing quote, if there are less than the fuel. -/
def readString : ℕ → List Char → Option (List Char × List Char)
  | 0, _ => none
  | _ + 1, [] => none
  | n + 1, c :: cs =>
    if c = '"' then some ([], cs)
    else if c = '\\' then do
      let (c, cs) ← readEscape cs
      let (s, rest) ← readString n cs
      return (c :: s, rest)
    else if c.toNat < 32 then none
    else do
      let (s, rest) ← readString n cs
      return (c :: s, rest)

/-! ### Values -/

/-- White space between the parts of a text. -/
def isSpace (c : Char) : Bool :=
  c.toNat == 32 || c.toNat == 9 || c.toNat == 10 || c.toNat == 13

/-- The text without the white space it begins with. -/
def skipSpace (cs : List Char) : List Char := cs.dropWhile isSpace

/-- What follows a word. -/
def afterWord (word cs : List Char) : Option (List Char) :=
  if word.isPrefixOf cs then some (cs.drop word.length) else none

/-- A key and the colon after it. -/
def readKey (n : ℕ) (cs : List Char) : Option (String × List Char) :=
  match skipSpace cs with
  | '"' :: cs => do
    let (key, cs) ← readString n cs
    match skipSpace cs with
    | ':' :: cs => return (String.ofList key, cs)
    | _ => none
  | _ => none

mutual

/-- A value, and what follows it. -/
def readValue : ℕ → List Char → Option (Json × List Char)
  | 0, _ => none
  | n + 1, cs =>
    match skipSpace cs with
    | [] => none
    | c :: cs =>
      if c = '"' then do
        let (s, rest) ← readString n cs
        return (.string (String.ofList s), rest)
      else if c = '[' then
        match skipSpace cs with
        | ']' :: rest => some (.array [], rest)
        | cs => do
          let (vs, rest) ← readElems n cs
          return (.array vs, rest)
      else if c = '\x7b' then
        match skipSpace cs with
        | '\x7d' :: rest => some (.object [], rest)
        | cs => do
          let (fields, rest) ← readFields n cs
          return (.object fields, rest)
      else if c = 'n' then (afterWord ['u', 'l', 'l'] cs).map fun rest => (.null, rest)
      else if c = 't' then (afterWord ['r', 'u', 'e'] cs).map fun rest => (.bool true, rest)
      else if c = 'f' then
        (afterWord ['a', 'l', 's', 'e'] cs).map fun rest => (.bool false, rest)
      else readNumber (c :: cs)

/-- The elements of an array, of which there is one at least, and what follows the bracket. -/
def readElems : ℕ → List Char → Option (List Json × List Char)
  | 0, _ => none
  | n + 1, cs => do
    let (v, cs) ← readValue n cs
    match skipSpace cs with
    | ',' :: cs => do
      let (vs, rest) ← readElems n cs
      return (v :: vs, rest)
    | ']' :: rest => return ([v], rest)
    | _ => none

/-- The entries of an object, of which there is one at least, and what follows the brace. -/
def readFields : ℕ → List Char → Option (List (String × Json) × List Char)
  | 0, _ => none
  | n + 1, cs => do
    let (key, cs) ← readKey n cs
    let (v, cs) ← readValue n cs
    match skipSpace cs with
    | ',' :: cs => do
      let (fields, rest) ← readFields n cs
      return ((key, v) :: fields, rest)
    | '\x7d' :: rest => return ([(key, v)], rest)
    | _ => none

end

/-- The value of a JSON text. -/
def ofText (text : String) : Option Json := do
  let (v, rest) ← readValue (text.length + 1) text.toList
  if (skipSpace rest).isEmpty then some v else none

/-! ### Values that are read back -/

mutual

/-- The numbers in a value are numbers. -/
def wellFormed : Json → Bool
  | .null | .bool _ | .string _ => true
  | .number text => isNumber text.toList
  | .array vs => elemsWellFormed vs
  | .object fields => fieldsWellFormed fields

/-- The same for the elements of a list. -/
def elemsWellFormed : List Json → Bool
  | [] => true
  | v :: vs => wellFormed v && elemsWellFormed vs

/-- The same for the values of an object. -/
def fieldsWellFormed : List (String × Json) → Bool
  | [] => true
  | (_, v) :: fields => wellFormed v && fieldsWellFormed fields

end

/-! ### Reading numbers back -/

/-- The text that follows a number does not go on with it. -/
def Stops (rest : List Char) : Prop := ∀ c ∈ rest.head?, numberChar c = false

theorem stops_nil : Stops [] := by simp [Stops]

theorem stops_cons {c : Char} {cs : List Char} (h : numberChar c = false) : Stops (c :: cs) := by
  simpa [Stops] using h

theorem all_numberChar_cons {c : Char} {cs : List Char} (hc : numberChar c = true)
    (h : cs.all numberChar = true) : (c :: cs).all numberChar = true := by
  rw [List.all_cons, hc, h, Bool.true_and]

theorem numberChar_of_isDigit {c : Char} (h : c.isDigit = true) : numberChar c = true := by
  simp [numberChar, h]

theorem all_numberChar_of_digits {cs : List Char} (h : cs.all Char.isDigit = true) :
    cs.all numberChar = true := by
  rw [List.all_eq_true] at h ⊢
  exact fun c hc => numberChar_of_isDigit (h c hc)

/-- Digits, and what follows them, are characters of numbers if what follows is. -/
theorem all_numberChar_of_dropWhile {cs : List Char}
    (h : (cs.dropWhile Char.isDigit).all numberChar = true) : cs.all numberChar = true := by
  rw [← List.takeWhile_append_dropWhile (p := Char.isDigit) (l := cs), List.all_append, h,
    Bool.and_true]
  exact all_numberChar_of_digits List.all_takeWhile

theorem all_numberChar_of_isExponent {cs : List Char} (h : isExponent cs = true) :
    cs.all numberChar = true := by
  cases cs with
  | nil => rfl
  | cons c cs =>
    simp only [isExponent, Bool.and_eq_true, Bool.or_eq_true, beq_iff_eq] at h
    obtain ⟨hc, -, hdigits⟩ := h
    have hhead : numberChar c = true := by
      rcases hc with rfl | rfl <;> rfl
    apply all_numberChar_cons hhead
    split at hdigits
    · exact all_numberChar_cons rfl (all_numberChar_of_digits hdigits)
    · exact all_numberChar_cons rfl (all_numberChar_of_digits hdigits)
    · exact all_numberChar_of_digits hdigits

theorem all_numberChar_of_isFraction {cs : List Char} (h : isFraction cs = true) :
    cs.all numberChar = true := by
  unfold isFraction at h
  split at h
  · rw [Bool.and_eq_true] at h
    exact all_numberChar_cons rfl (all_numberChar_of_dropWhile (all_numberChar_of_isExponent h.2))
  · exact all_numberChar_of_isExponent h

theorem all_numberChar_of_isUnsigned {cs : List Char} (h : isUnsigned cs = true) :
    cs.all numberChar = true := by
  unfold isUnsigned at h
  split at h
  · exact all_numberChar_cons rfl (all_numberChar_of_isFraction h)
  · rw [Bool.and_eq_true] at h
    exact all_numberChar_cons (numberChar_of_isDigit h.1)
      (all_numberChar_of_dropWhile (all_numberChar_of_isFraction h.2))
  · cases h

theorem all_numberChar_of_isNumber {cs : List Char} (h : isNumber cs = true) :
    cs.all numberChar = true := by
  unfold isNumber at h
  split at h
  · exact all_numberChar_cons rfl (all_numberChar_of_isUnsigned h)
  · exact all_numberChar_of_isUnsigned h

/-- A number starts with a digit or a minus sign. -/
theorem exists_cons_of_isNumber {cs : List Char} (h : isNumber cs = true) :
    ∃ c cs', cs = c :: cs' ∧ (c.isDigit = true ∨ c = '-') := by
  have hunsigned : ∀ ds, isUnsigned ds = true → ∃ c ds', ds = c :: ds' ∧ c.isDigit = true := by
    intro ds hds
    unfold isUnsigned at hds
    split at hds
    · exact ⟨_, _, rfl, rfl⟩
    · rw [Bool.and_eq_true] at hds
      exact ⟨_, _, rfl, hds.1⟩
    · cases hds
  unfold isNumber at h
  split at h
  · exact ⟨_, _, rfl, Or.inr rfl⟩
  · obtain ⟨c, cs', hcs, hc⟩ := hunsigned _ h
    exact ⟨c, cs', hcs, Or.inl hc⟩

/-- **A number is read back.** -/
theorem readNumber_append {cs rest : List Char} (h : isNumber cs = true) (hrest : Stops rest) :
    readNumber (cs ++ rest) = some (.number (String.ofList cs), rest) := by
  have hall := List.all_eq_true.mp (all_numberChar_of_isNumber h)
  have htake : (cs ++ rest).takeWhile numberChar = cs := by
    rw [List.takeWhile_append_of_pos hall]
    cases rest with
    | nil => simp
    | cons c rest => simp [hrest c rfl]
  have hdrop : (cs ++ rest).dropWhile numberChar = rest := by
    rw [List.dropWhile_append_of_pos hall]
    cases rest with
    | nil => rfl
    | cons c rest => simp [hrest c rfl]
  rw [readNumber, htake, hdrop, if_pos h]

/-- The leading digit of a positive number is not zero. -/
theorem exists_cons_toDigits {n : ℕ} (hn : 0 < n) :
    ∃ c cs, Nat.toDigits 10 n = c :: cs ∧ c ≠ '0' := by
  induction n using Nat.strongRecOn with
  | ind n ih =>
    by_cases hsmall : n < 10
    · rw [Nat.toDigits_of_lt_base hsmall]
      refine ⟨_, _, rfl, ?_⟩
      interval_cases n <;> decide
    · obtain ⟨c, cs, hcs, hc⟩ := ih (n / 10) (by omega) (by omega)
      rw [Nat.toDigits_of_base_le (by decide) (Nat.le_of_not_lt hsmall), hcs]
      exact ⟨c, _, rfl, hc⟩

/-- **The decimal digits of a number are a number.** -/
@[simp] theorem isNumber_repr (n : ℕ) : isNumber n.repr.toList = true := by
  rw [Nat.toList_repr]
  rcases Nat.eq_zero_or_pos n with rfl | hn
  · rfl
  · obtain ⟨c, cs, hcs, hc⟩ := exists_cons_toDigits hn
    have hdigit : ∀ d ∈ c :: cs, d.isDigit = true := by
      intro d hd
      exact Nat.isDigit_of_mem_toDigits (by decide) (by decide) (hcs ▸ hd)
    have hdrop : cs.dropWhile Char.isDigit = [] :=
      List.dropWhile_eq_nil_iff.mpr fun d hd => hdigit d (List.mem_cons_of_mem _ hd)
    have hminus : c ≠ '-' := by
      rintro rfl
      exact absurd (hdigit '-' List.mem_cons_self) (by decide)
    have hunsigned : isUnsigned (c :: cs) = true := by
      simp [isUnsigned, hdigit c List.mem_cons_self, hdrop, isFraction, isExponent]
    rw [hcs]
    unfold isNumber
    split
    · next heq => exact absurd (List.cons.inj heq).1 hminus
    · exact hunsigned

/-! ### Reading strings back -/

/-- A control character without a short escape is read back from its code. -/
theorem readEscape_control {k : ℕ} (hk : k < 32) (cs : List Char) :
    readEscape ('u' :: '0' :: '0' :: Wire.hexDigit (k / 16) :: Wire.hexDigit (k % 16) :: cs) =
      some (Char.ofNat k, cs) := by
  interval_cases k <;> rfl

/-- **A character is read back from its escape.** -/
theorem readString_escapeChar (n : ℕ) (c : Char) (cs : List Char) :
    readString (n + 1) (escapeChar c ++ cs) = (readString n cs).map fun p => (c :: p.1, p.2) := by
  have hescape : ∀ ds, readEscape (ds ++ cs) = some (c, cs) →
      readString (n + 1) ('\\' :: ds ++ cs) = (readString n cs).map fun p => (c :: p.1, p.2) := by
    intro ds hds
    simp only [List.cons_append, readString, hds]
    rw [if_neg (by decide), if_pos trivial, Option.bind_eq_bind, Option.bind_some]
    cases readString n cs <;> rfl
  have hcode : ∀ k, c.toNat = k → c = Char.ofNat k := by
    rintro k rfl
    exact (Char.ofNat_toNat c).symm
  unfold escapeChar
  simp only [beq_iff_eq]
  split
  · next h => exact hescape ['"'] (by rw [h]; rfl)
  split
  · next h => exact hescape ['\\'] (by rw [h]; rfl)
  split
  · next h => exact hescape ['b'] (by rw [hcode _ h]; rfl)
  split
  · next h => exact hescape ['t'] (by rw [hcode _ h]; rfl)
  split
  · next h => exact hescape ['n'] (by rw [hcode _ h]; rfl)
  split
  · next h => exact hescape ['f'] (by rw [hcode _ h]; rfl)
  split
  · next h => exact hescape ['r'] (by rw [hcode _ h]; rfl)
  split
  · next h =>
    have hread := readEscape_control h cs
    rw [Char.ofNat_toNat] at hread
    exact hescape ['u', '0', '0', _, _] hread
  · next hquote hslash _ _ _ _ _ hcontrol =>
    simp only [List.cons_append, List.nil_append, readString]
    rw [if_neg hquote, if_neg hslash, if_neg hcontrol]
    cases readString n cs <;> rfl

/-- **A string is read back**, up to its closing quote. -/
theorem readString_quote {n : ℕ} {s : List Char} (hn : s.length < n) (rest : List Char) :
    readString n (s.flatMap escapeChar ++ '"' :: rest) = some (s, rest) := by
  induction s generalizing n with
  | nil =>
    obtain ⟨m, rfl⟩ := Nat.exists_eq_succ_of_ne_zero (Nat.ne_of_gt hn)
    rfl
  | cons c s ih =>
    obtain ⟨m, rfl⟩ := Nat.exists_eq_succ_of_ne_zero (Nat.ne_zero_of_lt hn)
    rw [List.flatMap_cons, List.append_assoc, readString_escapeChar,
      ih (Nat.lt_of_succ_lt_succ hn)]
    rfl

theorem length_le_length_flatMap_escapeChar (s : List Char) :
    s.length ≤ (s.flatMap escapeChar).length := by
  induction s with
  | nil => simp
  | cons c s ih =>
    have hc : 1 ≤ (escapeChar c).length := by
      unfold escapeChar
      repeat' split
      all_goals simp
    rw [List.flatMap_cons, List.length_append, List.length_cons]
    omega

@[simp] theorem toList_quote (s : String) :
    (quote s).toList = '"' :: (s.toList.flatMap escapeChar ++ ['"']) := by
  simp [quote]

/-- A string in quotes is longer than what is quoted. -/
theorem length_lt_length_quote (s : String) : s.toList.length + 1 < (quote s).toList.length := by
  have hle := length_le_length_flatMap_escapeChar s.toList
  simp only [toList_quote, List.length_cons, List.length_append, List.length_nil]
  omega

/-! ### Reading values back -/

/-- A character that a value may start with: no white space, and none that closes a list. -/
def startsValue (c : Char) : Bool := 32 < c.toNat && c.toNat != 93 && c.toNat != 125

theorem startsValue_of_number {c : Char} (h : c.isDigit = true ∨ c = '-') :
    startsValue c = true := by
  rcases h with h | rfl
  · rw [Char.isDigit_iff_toNat, show '0'.toNat = 48 from rfl, show '9'.toNat = 57 from rfl] at h
    simp only [startsValue, Bool.and_eq_true, decide_eq_true_eq, bne_iff_ne, ne_eq]
    omega
  · rfl

/-- The text of a value starts with a character that a value may start with. -/
theorem exists_cons_toText {v : Json} (h : v.wellFormed = true) :
    ∃ c cs, (toText v).toList = c :: cs ∧ startsValue c = true := by
  cases v with
  | null => exact ⟨_, _, rfl, rfl⟩
  | bool b => cases b <;> exact ⟨_, _, rfl, rfl⟩
  | number text =>
    obtain ⟨c, cs, hcs, hc⟩ := exists_cons_of_isNumber h
    exact ⟨c, cs, hcs, startsValue_of_number hc⟩
  | string s => exact ⟨'"', _, by rw [toText, toList_quote], rfl⟩
  | array vs => exact ⟨'[', (elemsText vs).toList ++ [']'], by simp [toText], rfl⟩
  | object fields =>
    exact ⟨'\x7b', (fieldsText fields).toList ++ ['\x7d'], by simp [toText], rfl⟩

theorem skipSpace_cons {c : Char} {cs : List Char} (h : startsValue c = true) :
    skipSpace (c :: cs) = c :: cs := by
  have hspace : isSpace c = false := by
    simp only [startsValue, Bool.and_eq_true, decide_eq_true_eq] at h
    simp only [isSpace, Bool.or_eq_false_iff, beq_eq_false_iff_ne]
    omega
  rw [skipSpace, List.dropWhile_cons_of_neg]
  simp [hspace]

theorem toList_elemsText_cons_cons (v w : Json) (vs : List Json) :
    (elemsText (v :: w :: vs)).toList =
      (toText v).toList ++ ',' :: (elemsText (w :: vs)).toList := by
  rw [show elemsText (v :: w :: vs) = toText v ++ "," ++ elemsText (w :: vs) from rfl]
  simp

theorem toList_fieldText (key : String) (v : Json) :
    (fieldText (key, v)).toList = (quote key).toList ++ ':' :: (toText v).toList := by
  simp [fieldText]

theorem toList_fieldsText_cons_cons (f g : String × Json) (fs : List (String × Json)) :
    (fieldsText (f :: g :: fs)).toList =
      (fieldText f).toList ++ ',' :: (fieldsText (g :: fs)).toList := by
  rw [show fieldsText (f :: g :: fs) = fieldText f ++ "," ++ fieldsText (g :: fs) from rfl]
  simp

theorem exists_cons_elemsText {v : Json} (vs : List Json) (h : v.wellFormed = true) :
    ∃ c cs, (elemsText (v :: vs)).toList = c :: cs ∧ startsValue c = true := by
  obtain ⟨c, cs, hcs, hc⟩ := exists_cons_toText h
  cases vs with
  | nil => exact ⟨c, cs, hcs, hc⟩
  | cons w vs =>
    rw [toList_elemsText_cons_cons, hcs]
    exact ⟨c, _, rfl, hc⟩

theorem exists_cons_fieldsText (f : String × Json) (fs : List (String × Json)) :
    ∃ cs, (fieldsText (f :: fs)).toList = '"' :: cs := by
  obtain ⟨key, v⟩ := f
  cases fs with
  | nil =>
    rw [show fieldsText [(key, v)] = fieldText (key, v) from rfl, toList_fieldText, toList_quote]
    exact ⟨_, rfl⟩
  | cons g fs =>
    rw [toList_fieldsText_cons_cons, toList_fieldText, toList_quote]
    exact ⟨_, rfl⟩

/-- What a text no longer than the fuel is read as. -/
structure Reads (n : ℕ) : Prop where
  value : ∀ v rest, v.wellFormed = true → (toText v).toList.length ≤ n → Stops rest →
    readValue n ((toText v).toList ++ rest) = some (v, rest)
  elems : ∀ v vs rest, elemsWellFormed (v :: vs) = true →
    (elemsText (v :: vs)).toList.length < n →
    readElems n ((elemsText (v :: vs)).toList ++ ']' :: rest) = some (v :: vs, rest)
  fields : ∀ f fs rest, fieldsWellFormed (f :: fs) = true →
    (fieldsText (f :: fs)).toList.length < n →
    readFields n ((fieldsText (f :: fs)).toList ++ '\x7d' :: rest) = some (f :: fs, rest)

theorem toText_ne_nil {v : Json} (h : v.wellFormed = true) : 0 < (toText v).toList.length := by
  obtain ⟨c, cs, hcs, -⟩ := exists_cons_toText h
  simp [hcs]

/-- One more value on the fuel. -/
theorem Reads.value_succ {n : ℕ} (hn : Reads n) (v : Json) (rest : List Char)
    (hv : v.wellFormed = true) (hlen : (toText v).toList.length ≤ n + 1) (hrest : Stops rest) :
    readValue (n + 1) ((toText v).toList ++ rest) = some (v, rest) := by
  obtain ⟨c, cs, hcs, hc⟩ := exists_cons_toText hv
  have hskip : skipSpace ((toText v).toList ++ rest) = (toText v).toList ++ rest := by
    rw [hcs]
    exact skipSpace_cons hc
  rw [readValue, hskip]
  cases v with
  | null => rfl
  | bool b => cases b <;> rfl
  | number text =>
    obtain ⟨d, ds, hds, hd⟩ := exists_cons_of_isNumber hv
    have hread := readNumber_append hv hrest
    rw [String.ofList_toList, hds] at hread
    have hword : d ≠ '"' ∧ d ≠ '[' ∧ d ≠ '\x7b' ∧ d ≠ 'n' ∧ d ≠ 't' ∧ d ≠ 'f' := by
      rcases hd with hd | rfl
      · refine ⟨?_, ?_, ?_, ?_, ?_, ?_⟩ <;> (rintro rfl; cases hd)
      · decide
    obtain ⟨h₁, h₂, h₃, h₄, h₅, h₆⟩ := hword
    simp only [toText, hds, List.cons_append, if_neg h₁, if_neg h₂, if_neg h₃, if_neg h₄, if_neg h₅,
      if_neg h₆]
    exact hread
  | string s =>
    have hlt := length_lt_length_quote s
    simp only [toText] at hlen
    have hread := readString_quote (s := s.toList) (n := n) (by omega) rest
    simp only [toText, toList_quote, List.cons_append, List.append_assoc, List.nil_append, if_true,
      hread]
    simp
  | array vs =>
    cases vs with
    | nil => rfl
    | cons v vs =>
      have hvs : elemsWellFormed (v :: vs) = true := hv
      have hlt : (elemsText (v :: vs)).toList.length < n := by
        simp only [toText, String.toList_append, List.length_append] at hlen
        change 1 + _ + 1 ≤ n + 1 at hlen
        omega
      have hread := hn.elems v vs rest hvs hlt
      obtain ⟨c, cs, hcs, hc⟩ := exists_cons_elemsText vs (Bool.and_eq_true_iff.mp hvs).1
      have htext : (toText (.array (v :: vs))).toList ++ rest =
          '[' :: ((elemsText (v :: vs)).toList ++ ']' :: rest) := by
        simp [toText]
      rw [htext]
      dsimp only
      rw [if_neg (by decide), if_pos rfl]
      rw [hcs, List.cons_append] at hread ⊢
      rw [skipSpace_cons hc]
      split
      · next heq =>
        obtain rfl := (List.cons.inj heq).1
        cases hc
      · rw [hread]
        rfl
  | object fields =>
    cases fields with
    | nil => rfl
    | cons f fs =>
      have hlt : (fieldsText (f :: fs)).toList.length < n := by
        simp only [toText, String.toList_append, List.length_append] at hlen
        change 1 + _ + 1 ≤ n + 1 at hlen
        omega
      have hread := hn.fields f fs rest hv hlt
      obtain ⟨cs, hcs⟩ := exists_cons_fieldsText f fs
      have htext : (toText (.object (f :: fs))).toList ++ rest =
          '\x7b' :: ((fieldsText (f :: fs)).toList ++ '\x7d' :: rest) := by
        simp [toText]
      rw [htext]
      dsimp only
      rw [if_neg (by decide), if_neg (by decide), if_pos rfl]
      rw [hcs, List.cons_append] at hread ⊢
      rw [skipSpace_cons (c := '"') rfl]
      split
      · next heq => exact absurd (List.cons.inj heq).1 (by decide)
      · rw [hread]
        rfl

/-- One more element on the fuel. -/
theorem Reads.elems_succ {n : ℕ} (hn : Reads n) (v : Json) (vs : List Json) (rest : List Char)
    (hwell : elemsWellFormed (v :: vs) = true)
    (hlen : (elemsText (v :: vs)).toList.length < n + 1) :
    readElems (n + 1) ((elemsText (v :: vs)).toList ++ ']' :: rest) = some (v :: vs, rest) := by
  obtain ⟨hv, hvs⟩ := Bool.and_eq_true_iff.mp hwell
  cases vs with
  | nil =>
    have hread := hn.value v (']' :: rest) hv (Nat.le_of_lt_succ hlen) (stops_cons rfl)
    rw [readElems, show elemsText [v] = toText v from rfl, hread]
    rfl
  | cons w vs =>
    rw [toList_elemsText_cons_cons, List.length_append, List.length_cons] at hlen
    have hread := hn.value v (',' :: ((elemsText (w :: vs)).toList ++ ']' :: rest)) hv (by omega)
      (stops_cons rfl)
    have htail := hn.elems w vs rest hvs (by omega)
    rw [toList_elemsText_cons_cons, List.append_assoc, List.cons_append, readElems, hread]
    simp only [Option.bind_eq_bind, Option.bind_some]
    rw [skipSpace_cons (c := ',') rfl]
    simp only [htail]
    rfl

/-- A key is read back. -/
theorem readKey_quote {n : ℕ} {key : String} (hn : key.toList.length < n) (cs : List Char) :
    readKey n ((quote key).toList ++ ':' :: cs) = some (key, cs) := by
  have hread := readString_quote hn (':' :: cs)
  rw [readKey, toList_quote, List.cons_append, skipSpace_cons (c := '"') rfl, List.append_assoc,
    List.singleton_append]
  simp only [hread, Option.bind_eq_bind, Option.bind_some]
  rw [skipSpace_cons (c := ':') rfl]
  simp

/-- One more entry on the fuel. -/
theorem Reads.fields_succ {n : ℕ} (hn : Reads n) (f : String × Json) (fs : List (String × Json))
    (rest : List Char) (hwell : fieldsWellFormed (f :: fs) = true)
    (hlen : (fieldsText (f :: fs)).toList.length < n + 1) :
    readFields (n + 1) ((fieldsText (f :: fs)).toList ++ '\x7d' :: rest) =
      some (f :: fs, rest) := by
  obtain ⟨key, v⟩ := f
  obtain ⟨hv, hfs⟩ := Bool.and_eq_true_iff.mp hwell
  have hkey := length_lt_length_quote key
  cases fs with
  | nil =>
    rw [show fieldsText [(key, v)] = fieldText (key, v) from rfl, toList_fieldText] at hlen ⊢
    rw [List.length_append, List.length_cons] at hlen
    have hread := hn.value v ('\x7d' :: rest) hv (by omega) (stops_cons rfl)
    rw [List.append_assoc, List.cons_append, readFields, readKey_quote (by omega)]
    simp only [Option.bind_eq_bind, Option.bind_some]
    rw [hread]
    rfl
  | cons g fs =>
    rw [toList_fieldsText_cons_cons, toList_fieldText] at hlen ⊢
    simp only [List.length_append, List.length_cons] at hlen
    have hread := hn.value v (',' :: ((fieldsText (g :: fs)).toList ++ '\x7d' :: rest)) hv
      (by omega) (stops_cons rfl)
    have htail := hn.fields g fs rest hfs (by omega)
    rw [List.append_assoc, List.append_assoc, List.cons_append, readFields,
      readKey_quote (by omega)]
    simp only [Option.bind_eq_bind, Option.bind_some, List.cons_append]
    rw [hread]
    simp only [Option.bind_some]
    rw [skipSpace_cons (c := ',') rfl]
    simp only [htail]
    rfl

/-- **Texts are read back on enough fuel.** -/
theorem reads (n : ℕ) : Reads n := by
  induction n with
  | zero =>
    refine ⟨fun v rest hv hlen => ?_, fun _ _ _ _ hlen => ?_, fun _ _ _ _ hlen => ?_⟩
    · exact absurd (toText_ne_nil hv) (by omega)
    · cases hlen
    · cases hlen
  | succ n ih => exact ⟨ih.value_succ, ih.elems_succ, ih.fields_succ⟩

/-- **The text of a value is read, and nothing beyond it.** -/
theorem readValue_toText {v : Json} (hv : v.wellFormed = true) {n : ℕ}
    (hn : (toText v).toList.length ≤ n) {rest : List Char} (hrest : Stops rest) :
    readValue n ((toText v).toList ++ rest) = some (v, rest) :=
  (reads n).value v rest hv hn hrest

/-- **A value is read back from its compact text.** -/
theorem ofText_toText {v : Json} (hv : v.wellFormed = true) : ofText (toText v) = some v := by
  have hread := readValue_toText hv (Nat.le_succ _) stops_nil
  rw [List.append_nil, String.length_toList] at hread
  rw [ofText, hread]
  rfl

/-! ### Bytes -/

/-- The compact text in UTF-8. -/
def toBytes (v : Json) : List UInt8 := Text.utf8 (toText v)

/-- The value of a JSON text in UTF-8. -/
def ofBytes (bytes : List UInt8) : Option Json :=
  (String.fromUTF8? ⟨bytes.toArray⟩).bind ofText

theorem fromUTF8?_utf8 (s : String) : String.fromUTF8? ⟨(Text.utf8 s).toArray⟩ = some s := by
  have hbytes : (⟨(Text.utf8 s).toArray⟩ : ByteArray) = s.toByteArray := by
    rw [← String.utf8Encode_toList]
    exact (ByteArray.ext List.data_toByteArray).symm
  rw [hbytes, String.fromUTF8?, dif_pos s.isValidUTF8]
  rfl

/-- **A value is read back from its bytes.** -/
theorem ofBytes_toBytes {v : Json} (hv : v.wellFormed = true) : ofBytes (toBytes v) = some v := by
  rw [ofBytes, toBytes, fromUTF8?_utf8, Option.bind_some, ofText_toText hv]

end Json

/-! ### What codecs write -/

namespace Codec

variable {α : Type}

/-- All that the codec writes is well formed. -/
def WellFormed (c : Codec α) : Prop := ∀ a, (c.write a).wellFormed = true

@[simp] theorem wellFormed_string (s : String) : (string.write s).wellFormed = true := rfl

@[simp] theorem wellFormed_bool (b : Bool) : (bool.write b).wellFormed = true := rfl

@[simp] theorem wellFormed_uint32 (n : UInt32) : (uint32.write n).wellFormed = true :=
  Json.isNumber_repr n.toNat

@[simp] theorem wellFormed_uint64 (n : UInt64) : (uint64.write n).wellFormed = true :=
  Json.isNumber_repr n.toNat

@[simp] theorem WellFormed.option {c : Codec α} {hc : ∀ a, c.write a ≠ .null} (h : c.WellFormed)
    (a : Option α) : ((c.option hc).write a).wellFormed = true := by
  cases a with
  | none => rfl
  | some a => exact h a

end Codec
