import PeatGateway.Crypto.Envelope
import PeatGateway.Lib.Prog

/-!
# What the parser of envelopes accepts

Whatever bytes there are in the store are handed to `open`.  Here it is a program that asks
the provider and the cipher, and in which a byte or a range outside the data ends in a panic,
as it does in the source.  No run ends so: each range is inside the data by the tests made
before, and what is asked of the provider and the cipher are the parts of the one envelope the
data is, if it is one.

## Main definitions

* `CryptoCall`, `Crypto` — what is asked of the provider and of the cipher.
* `openCalls` — `open`, with every index checked.
* `cryptoHandler` — a provider and a cipher that answer.
* `ParsesAs` — the data is an envelope with these parts.
* `Opens` — a program unwraps a key and decrypts under it.

## Main results

* `run_openCalls` — what `open` returns is what the calls lead to; there is no panic.
* `openCalls_cases` — **what the parser does with any data**.
* `open_parses` — **the parser accepts exactly the format**.
-/

namespace PeatGateway

open Wire Effect Prog

/-! ### The parser -/

/-- What is asked of the provider and of the cipher. -/
inductive CryptoCall
  | unwrapDek (wrapped : Bytes)
  | decrypt (key nonce ciphertext : Bytes)

/-- The provider answers with a key, the cipher with a text or not. -/
abbrev Crypto : Sig := ⟨CryptoCall, fun
  | .unwrapDek _ => Bytes
  | .decrypt _ _ _ => Option Bytes⟩

/-- How a function ends that does not return a value. -/
inductive Failure
  | error (msg : Error)
  | panic
  deriving DecidableEq

/-- Programs of `open`. -/
abbrev CryptoProg (α : Type) : Type := Prog Crypto Failure α

/-- `data[i]`. -/
def index (data : Bytes) (i : ℕ) : CryptoProg UInt8 := okOrElse data[i]? .panic

/-- `&data[a..b]`. -/
def range (data : Bytes) (a b : ℕ) : CryptoProg Bytes :=
  if h : a ≤ b ∧ b ≤ data.length then pure (slice data a b h) else bail .panic

/-- `Nonce::from_slice`: there is no nonce of another length. -/
def nonceFromSlice (bytes : Bytes) : CryptoProg Bytes :=
  if bytes.length = 12 then pure bytes else bail .panic

/-- The second half of `open`: unwrap the data key and decrypt. -/
def openPartsCalls (wrappedDek dataNonce ciphertext : Bytes) : CryptoProg (Option Bytes) := do
  let dek ← perform (S := Crypto) (.unwrapDek wrappedDek)
  if dek.length ≠ 32 then
    bail (.error s!"KeyProvider.unwrap_dek must return 32 bytes, got {dek.length}")
  else
    let nonce ← nonceFromSlice dataNonce
    let plaintext ← perform (S := Crypto) (.decrypt dek nonce ciphertext)
    match plaintext with
    | none => bail (.error "AES-GCM decryption failed (wrong KEK?): aead::Error")
    | some plaintext => return some plaintext

/-- `open`. -/
def openCalls (data : Bytes) : CryptoProg (Option Bytes) := do
  if data.length < fixedHeader then return none
  else
    let head ← range data 0 4
    if head ≠ magic then return none
    else
      let v ← index data 4
      if v ≠ version then bail (.error s!"Unsupported envelope version: {v}")
      else
        let lo ← index data 5
        let hi ← index data 6
        let wrappedEnd := fixedHeader + fromLe16 lo hi
        let nonceEnd := wrappedEnd + 12
        if data.length < nonceEnd + 16 then
          bail (.error "Envelope too short: truncated ciphertext")
        else
          let wrappedDek ← range data fixedHeader wrappedEnd
          let dataNonce ← range data wrappedEnd nonceEnd
          let ciphertext ← range data nonceEnd data.length
          openPartsCalls wrappedDek dataNonce ciphertext

/-- A provider and a cipher that answer. -/
def cryptoHandler (A : Aead) (P : KeyProvider) (w : Bytes) : Handler Crypto Failure Unit
  | .unwrapDek wrapped, s => ((P.unwrapDek w wrapped).mapError .error, s)
  | .decrypt key nonce ciphertext, s => (.ok (A.decrypt key nonce ciphertext), s)

/-! ### The format -/

/-- The data is an envelope with these parts. -/
structure ParsesAs (data wrappedDek dataNonce ciphertext : Bytes) : Prop where
  assembled : data = assemble wrappedDek dataNonce ciphertext
  wrapped : wrappedDek.length ≤ 65535
  nonce : dataNonce.length = 12
  tag : 16 ≤ ciphertext.length

/-- The program has a key unwrapped and, if that is a key of 32 bytes, the ciphertext decrypted
under it, and returns the text.  It fails if it gets no such key or no text. -/
def Opens (p : CryptoProg (Option Bytes)) (wrappedDek dataNonce ciphertext : Bytes) : Prop :=
  ∃ k, p = .call (S := Crypto) (.unwrapDek wrappedDek) k ∧
    (∀ key : Bytes, key.length = 32 → ∃ k',
      k (.ok key) = .call (S := Crypto) (.decrypt key dataNonce ciphertext) k' ∧
        (∀ text, k' (.ok (some text)) = .done (.ok (some text))) ∧
        ∃ msg, k' (.ok none) = .done (.error (.error msg))) ∧
    (∀ key : Bytes, key.length ≠ 32 → ∃ msg, k (.ok key) = .done (.error (.error msg))) ∧
    ∀ e, k (.error e) = .done (.error e)

theorem opens_openPartsCalls {wrappedDek dataNonce ciphertext : Bytes}
    (hn : dataNonce.length = 12) :
    Opens (openPartsCalls wrappedDek dataNonce ciphertext) wrappedDek dataNonce ciphertext := by
  refine ⟨_, rfl, ?_, ?_, fun e => rfl⟩
  · intro key hkey
    change ∃ k', (if key.length ≠ 32 then _ else _) = _ ∧ _
    rw [if_neg (not_not.mpr hkey), nonceFromSlice, if_pos hn]
    exact ⟨_, rfl, fun text => rfl, _, rfl⟩
  · intro key hkey
    change ∃ msg, (if key.length ≠ 32 then _ else _) = _
    rw [if_pos hkey]
    exact ⟨_, rfl⟩

/-! ### Data with a header -/

section Header

variable {data wrappedDek dataNonce ciphertext body : Bytes} {v lo hi : UInt8}

/-- The data starts with the magic bytes, and there are the version and the length. -/
theorem isEnvelope_iff : isEnvelope data = true ↔
    ∃ v lo hi body, data = magic ++ v :: lo :: hi :: body := by
  rw [isEnvelope, Bool.and_eq_true, decide_eq_true_eq, beq_iff_eq]
  constructor
  · rintro ⟨hlen, hmagic⟩
    have hsplit := List.take_append_drop 4 data
    have hrest : (data.drop 4).length = data.length - 4 := List.length_drop
    rw [fixedHeader] at hlen
    rcases hd : data.drop 4 with _ | ⟨v, _ | ⟨lo, _ | ⟨hi, body⟩⟩⟩
    · rw [hd, List.length_nil] at hrest
      omega
    · simp only [hd, List.length_cons, List.length_nil] at hrest
      omega
    · simp only [hd, List.length_cons, List.length_nil] at hrest
      omega
    · exact ⟨v, lo, hi, body, by rw [← hsplit, hmagic, hd]⟩
  · rintro ⟨v, lo, hi, body, rfl⟩
    exact ⟨by simp [fixedHeader, magic], rfl⟩

/-- **Data without the header is returned as such.** -/
theorem openCalls_of_not_isEnvelope (h : isEnvelope data = false) :
    openCalls data = .done (.ok none) := by
  unfold openCalls
  split
  · rfl
  · next hlen =>
    have hhead : data.take 4 ≠ magic := by
      intro heq
      rw [isEnvelope, heq, beq_self_eq_true, Bool.and_true, decide_eq_false_iff_not] at h
      exact h (Nat.le_of_not_lt hlen)
    have hrange : range data 0 4 = pure (data.take 4) := by
      rw [fixedHeader] at hlen
      exact dif_pos ⟨by omega, by omega⟩
    rw [hrange, pure_eq, ok_bind, if_pos hhead]
    rfl

/-- What the parser does with a header. -/
theorem openCalls_header (v lo hi : UInt8) (body : Bytes) :
    openCalls (magic ++ v :: lo :: hi :: body) =
      if v ≠ version then bail (.error s!"Unsupported envelope version: {v}")
      else if body.length < fromLe16 lo hi + 12 + 16 then
        bail (.error "Envelope too short: truncated ciphertext")
      else
        openPartsCalls (body.take (fromLe16 lo hi)) ((body.drop (fromLe16 lo hi)).take 12)
          (body.drop (fromLe16 lo hi + 12)) := by
  have hlen : (magic ++ v :: lo :: hi :: body).length = 7 + body.length := by
    simp [magic]
    omega
  have hhead : range (magic ++ v :: lo :: hi :: body) 0 4 = pure magic :=
    dif_pos ⟨by omega, by omega⟩
  unfold openCalls
  rw [if_neg (by rw [hlen, fixedHeader]; omega), hhead, pure_eq, ok_bind, if_neg (by simp)]
  change (if v ≠ version then _ else _) = _
  split
  · rfl
  · change (if (magic ++ v :: lo :: hi :: body).length < 7 + fromLe16 lo hi + 12 + 16 then _
      else _) = _
    by_cases hshort : body.length < fromLe16 lo hi + 12 + 16
    · rw [if_pos (by omega), if_pos hshort]
    · -- the three ranges are inside the data
      rw [if_neg (by omega), if_neg hshort]
      have hdrop : ∀ a, (magic ++ v :: lo :: hi :: body).drop (7 + a) = body.drop a := fun a => by
        rw [← List.drop_drop]
        rfl
      have hrange : ∀ a b, a ≤ b → b ≤ body.length →
          range (magic ++ v :: lo :: hi :: body) (7 + a) (7 + b) =
            pure ((body.drop a).take (b - a)) := by
        intro a b hab hb
        rw [range, dif_pos ⟨by omega, by omega⟩, slice, hdrop, Nat.add_sub_add_left]
      have h₁ := hrange 0 (fromLe16 lo hi) (by omega) (by omega)
      have h₂ := hrange (fromLe16 lo hi) (fromLe16 lo hi + 12) (by omega) (by omega)
      have h₃ := hrange (fromLe16 lo hi + 12) body.length (by omega) (le_refl _)
      rw [List.drop_zero, Nat.sub_zero, Nat.add_zero] at h₁
      rw [Nat.add_sub_cancel_left, ← Nat.add_assoc] at h₂
      rw [← Nat.add_assoc, ← hlen, List.take_of_length_le (by rw [List.length_drop])] at h₃
      change (range _ 7 (7 + fromLe16 lo hi) >>= _) = _
      rw [h₁, pure_eq, ok_bind]
      change (range _ (7 + fromLe16 lo hi) (7 + fromLe16 lo hi + 12) >>= _) = _
      rw [h₂, pure_eq, ok_bind]
      change (range _ (7 + fromLe16 lo hi + 12) _ >>= _) = _
      rw [h₃, pure_eq, ok_bind]

/-- When data with a header is an envelope, and of which parts. -/
theorem parsesAs_header :
    ParsesAs (magic ++ v :: lo :: hi :: body) wrappedDek dataNonce ciphertext ↔
    v = version ∧ fromLe16 lo hi + 12 + 16 ≤ body.length ∧
      wrappedDek = body.take (fromLe16 lo hi) ∧
      dataNonce = (body.drop (fromLe16 lo hi)).take 12 ∧
      ciphertext = body.drop (fromLe16 lo hi + 12) := by
  constructor
  · rintro ⟨hdata, hw, hn, hc⟩
    rw [assemble_eq, header, List.append_assoc, List.append_assoc, List.append_cancel_left_eq,
      List.singleton_append, le16] at hdata
    obtain ⟨hv, hdata⟩ := List.cons.inj hdata
    obtain ⟨hlo, hdata⟩ := List.cons.inj hdata
    obtain ⟨hhi, hdata⟩ := List.cons.inj hdata
    have hbody : body = wrappedDek ++ (dataNonce ++ ciphertext) := hdata
    rw [hlo, hhi, fromLe16_le16 hw, hbody]
    refine ⟨hv, by simp only [List.length_append]; omega, List.take_left.symm, ?_, ?_⟩
    · rw [List.drop_left, List.take_left' hn]
    · rw [← List.drop_drop, List.drop_left, List.drop_left' hn]
  · rintro ⟨rfl, hlen, rfl, rfl, rfl⟩
    have hw : (body.take (fromLe16 lo hi)).length = fromLe16 lo hi := by
      rw [List.length_take]
      omega
    refine ⟨?_, hw.trans_le (fromLe16_le lo hi), ?_, ?_⟩
    · rw [assemble_eq, header, hw, le16_fromLe16, ← List.drop_drop, List.take_append_drop,
        List.take_append_drop]
      rfl
    · rw [List.length_take, List.length_drop]
      omega
    · rw [List.length_drop]
      omega

end Header

/-! ### Any data -/

section Any

variable {data wrappedDek dataNonce ciphertext wrappedDek' dataNonce' ciphertext' : Bytes}

theorem ParsesAs.isEnvelope (h : ParsesAs data wrappedDek dataNonce ciphertext) :
    isEnvelope data = true := by
  rw [h.assembled]
  exact isEnvelope_assemble _ _ _

/-- Data is an envelope in one way. -/
theorem ParsesAs.unique (h : ParsesAs data wrappedDek dataNonce ciphertext)
    (h' : ParsesAs data wrappedDek' dataNonce' ciphertext') :
    wrappedDek = wrappedDek' ∧ dataNonce = dataNonce' ∧ ciphertext = ciphertext' := by
  obtain ⟨v, lo, hi, body, rfl⟩ := isEnvelope_iff.mp h.isEnvelope
  obtain ⟨-, -, rfl, rfl, rfl⟩ := parsesAs_header.mp h
  obtain ⟨-, -, rfl, rfl, rfl⟩ := parsesAs_header.mp h'
  exact ⟨rfl, rfl, rfl⟩

/-- A program opens one envelope. -/
theorem Opens.unique {p : CryptoProg (Option Bytes)} (h : Opens p wrappedDek dataNonce ciphertext)
    (h' : Opens p wrappedDek' dataNonce' ciphertext') :
    wrappedDek = wrappedDek' ∧ dataNonce = dataNonce' ∧ ciphertext = ciphertext' := by
  obtain ⟨k, rfl, hkey, -⟩ := h
  obtain ⟨k', heq, hkey', -⟩ := h'
  cases heq
  obtain ⟨_, hdec, -⟩ := hkey (List.replicate 32 0) (by simp)
  obtain ⟨_, hdec', -⟩ := hkey' (List.replicate 32 0) (by simp)
  cases hdec.symm.trans hdec'
  exact ⟨rfl, rfl, rfl⟩

/-- A program that has ended opens nothing. -/
theorem Opens.not_done {r : Except Failure (Option Bytes)} :
    ¬ Opens (.done r) wrappedDek dataNonce ciphertext := by
  rintro ⟨k, hcall, -⟩
  cases hcall

/-- **What the parser does with any data.** -/
theorem openCalls_cases (data : Bytes) :
    (isEnvelope data = false ∧ openCalls data = .done (.ok none)) ∨
    (∃ wrappedDek dataNonce ciphertext, ParsesAs data wrappedDek dataNonce ciphertext ∧
      openCalls data = openPartsCalls wrappedDek dataNonce ciphertext) ∨
    isEnvelope data = true ∧ (∀ wrappedDek dataNonce ciphertext,
      ¬ ParsesAs data wrappedDek dataNonce ciphertext) ∧
      ∃ msg, openCalls data = .done (.error (.error msg)) := by
  cases henv : isEnvelope data with
  | false => exact Or.inl ⟨rfl, openCalls_of_not_isEnvelope henv⟩
  | true =>
    obtain ⟨v, lo, hi, body, rfl⟩ := isEnvelope_iff.mp henv
    rw [openCalls_header]
    by_cases hv : v = version
    · by_cases hshort : body.length < fromLe16 lo hi + 12 + 16
      · rw [if_neg (not_not.mpr hv), if_pos hshort]
        refine Or.inr (Or.inr ⟨rfl, ?_, _, rfl⟩)
        intro _ _ _ h
        have hlen := (parsesAs_header.mp h).2.1
        omega
      · rw [if_neg (not_not.mpr hv), if_neg hshort]
        refine Or.inr (Or.inl ⟨_, _, _, ?_, rfl⟩)
        exact parsesAs_header.mpr ⟨hv, Nat.le_of_not_lt hshort, rfl, rfl, rfl⟩
    · rw [if_pos hv]
      exact Or.inr (Or.inr ⟨rfl, fun _ _ _ h => hv (parsesAs_header.mp h).1, _, rfl⟩)

/-! ### What is returned -/

variable (A : Aead) (P : KeyProvider) (x : Bytes)

theorem run_openPartsCalls (hn : dataNonce.length = 12) :
    ((openPartsCalls wrappedDek dataNonce ciphertext).run (cryptoHandler A P x) ()).1 =
      (openParts A P x wrappedDek dataNonce ciphertext).mapError .error := by
  rw [openPartsCalls, openParts, run_perform_bind, cryptoHandler]
  cases P.unwrapDek x wrappedDek with
  | error e => rfl
  | ok dek =>
    change (Prog.run _ (if dek.length ≠ 32 then _ else _) _).1 =
      Except.mapError _ (if dek.length ≠ 32 then _ else _)
    split
    · rfl
    · rw [nonceFromSlice, if_pos hn, pure_eq, ok_bind, run_perform_bind, cryptoHandler, next_ok]
      cases A.decrypt dek dataNonce ciphertext <;> rfl

/-- An envelope is not returned as such. -/
theorem openParts_ne_none (wrappedDek dataNonce ciphertext : Bytes) :
    openParts A P x wrappedDek dataNonce ciphertext ≠ .ok none := by
  rw [openParts]
  cases P.unwrapDek x wrappedDek with
  | error e => rintro ⟨⟩
  | ok dek =>
    change (if dek.length ≠ 32 then _ else _) ≠ _
    split
    · rintro ⟨⟩
    · cases A.decrypt dek dataNonce ciphertext <;> rintro ⟨⟩

/-- What `open` does without a header. -/
theorem openEnvelope_of_not_isEnvelope (h : isEnvelope data = false) :
    openEnvelope A P x data = .ok none := by
  rw [openEnvelope, dif_pos]
  by_contra hall
  rw [not_or, not_not, Nat.not_lt] at hall
  rw [isEnvelope, hall.2, beq_self_eq_true, Bool.and_true, decide_eq_false_iff_not] at h
  exact h hall.1

/-- What `open` does with a header. -/
theorem openEnvelope_header (v lo hi : UInt8) (body : Bytes) :
    openEnvelope A P x (magic ++ v :: lo :: hi :: body) =
      if v ≠ version then .error s!"Unsupported envelope version: {v}"
      else if body.length < fromLe16 lo hi + 12 + 16 then
        .error "Envelope too short: truncated ciphertext"
      else
        openParts A P x (body.take (fromLe16 lo hi)) ((body.drop (fromLe16 lo hi)).take 12)
          (body.drop (fromLe16 lo hi + 12)) := by
  have hlen : (magic ++ v :: lo :: hi :: body).length = 7 + body.length := by
    simp [magic]
    omega
  have hhead : ¬ ((magic ++ v :: lo :: hi :: body).length < fixedHeader ∨
      (magic ++ v :: lo :: hi :: body).take 4 ≠ magic) := by
    rintro (hshort | hne)
    · rw [hlen, fixedHeader] at hshort
      omega
    · exact hne rfl
  by_cases hv : v = version
  · by_cases hshort : body.length < fromLe16 lo hi + 12 + 16
    · rw [if_neg (not_not.mpr hv), if_pos hshort, openEnvelope, dif_neg hhead]
      change (if v ≠ version then _ else
        (if _ : (magic ++ v :: lo :: hi :: body).length < 7 + fromLe16 lo hi + 12 + 16 then _
          else _)) = _
      rw [if_neg (not_not.mpr hv), dif_pos (by omega)]
    · -- the data is an envelope, of parts that are found again
      have hparse := parsesAs_header.mpr ⟨hv, Nat.le_of_not_lt hshort, rfl, rfl, rfl⟩
      rw [if_neg (not_not.mpr hv), if_neg hshort, hparse.assembled,
        openEnvelope_assemble A P x hparse.wrapped hparse.nonce hparse.tag]
  · rw [if_pos hv, openEnvelope, dif_neg hhead]
    change (if v ≠ version then _ else _) = _
    rw [if_pos hv]
    rfl

/-- **What `open` returns is what the calls lead to.** -/
theorem run_openCalls (data : Bytes) :
    ((openCalls data).run (cryptoHandler A P x) ()).1 =
      (openEnvelope A P x data).mapError .error := by
  cases henv : isEnvelope data with
  | false =>
    rw [openCalls_of_not_isEnvelope henv, openEnvelope_of_not_isEnvelope A P x henv]
    rfl
  | true =>
    obtain ⟨v, lo, hi, body, rfl⟩ := isEnvelope_iff.mp henv
    rw [openCalls_header, openEnvelope_header]
    by_cases hv : v = version
    · rw [if_neg (not_not.mpr hv), if_neg (not_not.mpr hv)]
      split
      · rfl
      · next hshort =>
        have hparse := parsesAs_header.mpr ⟨hv, Nat.le_of_not_lt hshort, rfl, rfl, rfl⟩
        exact run_openPartsCalls A P x hparse.nonce
    · rw [if_pos hv, if_pos hv]
      rfl

end Any

/-- Only data without the header is returned as such. -/
theorem openEnvelope_eq_none_iff (A : Aead) (P : KeyProvider) (x data : Bytes) :
    openEnvelope A P x data = .ok none ↔ isEnvelope data = false := by
  rcases openCalls_cases data with ⟨henv, -⟩ | ⟨w, n, c, hparse, -⟩ | ⟨henv, -, msg, hcalls⟩
  · exact iff_of_true (openEnvelope_of_not_isEnvelope A P x henv) henv
  · rw [hparse.isEnvelope, hparse.assembled,
      openEnvelope_assemble A P x hparse.wrapped hparse.nonce hparse.tag]
    exact iff_of_false (openParts_ne_none A P x w n c) nofun
  · have hrun := run_openCalls A P x data
    rw [hcalls, run_done] at hrun
    rw [henv]
    refine iff_of_false ?_ nofun
    intro hopen
    rw [hopen] at hrun
    cases hrun

/-- **A key is unwrapped exactly for the envelope the data is.** -/
theorem opens_openCalls_iff {data wrappedDek dataNonce ciphertext : Bytes} :
    Opens (openCalls data) wrappedDek dataNonce ciphertext ↔
      ParsesAs data wrappedDek dataNonce ciphertext := by
  rcases openCalls_cases data with ⟨henv, hcalls⟩ | ⟨w, n, c, hparse, hcalls⟩ |
    ⟨-, hnone, msg, hcalls⟩
  · rw [hcalls]
    refine iff_of_false (fun h => Opens.not_done h) ?_
    intro h
    rw [h.isEnvelope] at henv
    cases henv
  · rw [hcalls]
    have hopens : Opens (openPartsCalls w n c) w n c := opens_openPartsCalls hparse.nonce
    constructor
    · intro h
      obtain ⟨rfl, rfl, rfl⟩ := hopens.unique h
      exact hparse
    · intro h
      obtain ⟨rfl, rfl, rfl⟩ := hparse.unique h
      exact hopens
  · rw [hcalls]
    exact iff_of_false (fun h => Opens.not_done h) (hnone _ _ _)

/-- **The parser accepts exactly the format.**  Whatever the data is and whatever the provider
and the cipher answer, there is no panic; data without the header is returned as such; a key is
unwrapped and the ciphertext decrypted exactly for the parts of the one envelope the data is; and
anything else fails. -/
theorem open_parses (data : Bytes) :
    (∀ A P x, ((openCalls data).run (cryptoHandler A P x) ()).1 =
        (openEnvelope A P x data).mapError .error ∧
      ((openCalls data).run (cryptoHandler A P x) ()).1 ≠ .error .panic) ∧
    (∀ A P x, openEnvelope A P x data = .ok none ↔ isEnvelope data = false) ∧
    (∀ wrappedDek dataNonce ciphertext, Opens (openCalls data) wrappedDek dataNonce ciphertext ↔
      ParsesAs data wrappedDek dataNonce ciphertext) ∧
    (∀ wrappedDek dataNonce ciphertext wrappedDek' dataNonce' ciphertext',
      ParsesAs data wrappedDek dataNonce ciphertext →
      ParsesAs data wrappedDek' dataNonce' ciphertext' →
      wrappedDek = wrappedDek' ∧ dataNonce = dataNonce' ∧ ciphertext = ciphertext') ∧
    (isEnvelope data = true →
      (∀ wrappedDek dataNonce ciphertext, ¬ ParsesAs data wrappedDek dataNonce ciphertext) →
      ∃ msg, openCalls data = .done (.error (.error msg)) ∧
        ∀ A P x, openEnvelope A P x data = .error msg) := by
  have hrun := fun A P x => run_openCalls A P x data
  refine ⟨fun A P x => ⟨hrun A P x, ?_⟩, ?_, ?_,
    fun _ _ _ _ _ _ h h' => h.unique h', ?_⟩
  · rw [hrun]
    cases openEnvelope A P x data <;> exact nofun
  · intro A P x
    exact openEnvelope_eq_none_iff A P x data
  · intro w n c
    exact opens_openCalls_iff
  · intro henv hnone
    rcases openCalls_cases data with ⟨henv', -⟩ | ⟨w, n, c, hparse, -⟩ | ⟨-, -, msg, hcalls⟩
    · rw [henv] at henv'
      cases henv'
    · exact absurd hparse (hnone w n c)
    · refine ⟨msg, hcalls, ?_⟩
      intro A P x
      have hfail := hrun A P x
      rw [hcalls, run_done] at hfail
      cases hopen : openEnvelope A P x data with
      | error e => rw [hopen] at hfail; cases hfail; rfl
      | ok r => rw [hopen] at hfail; cases hfail

end PeatGateway
