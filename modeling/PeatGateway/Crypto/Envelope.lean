import Mathlib.Data.List.TakeDrop
import PeatGateway.Lib.Wire
import PeatGateway.Models

/-!
# Envelope encryption of key material

A record is sealed under a fresh data key; the data key is wrapped by a *key provider*
and stored, with its length, in front of the ciphertext:

    "PENV" | version | length of the wrapped key (two bytes) | wrapped key | nonce | ciphertext

The cipher is the crate `aes-gcm`, taken as a parameter with the two facts the code
relies on.  A provider may be a remote service: the outcome of a call to it depends on
more than the argument, namely on what it draws and on whether it can be reached.  The
byte string `w` in front of the argument stands for all of that.

## Main definitions

* `Aead`, `KeyProvider` — the cipher and the provider.
* `sealEnvelope`, `isEnvelope`, `openEnvelope` — `seal`, `is_envelope` and `open`;
  the first and the last are keywords here.
* `LocalKeyProvider`, `PlaintextProvider` — the providers that need no service.

## Main results

* `sealEnvelope_eq_ok` — the shape of what `seal` writes.
* `openEnvelope_assemble` — how `open` reads an assembled envelope.
* `seal_open_roundtrip` — **what is sealed can be opened again**.
-/

namespace PeatGateway

open Wire

/-! ### Ciphers and providers -/

/-- The AES-256-GCM cipher: key, nonce and text; `none` is `aead::Error`. -/
structure Aead where
  encrypt : Bytes → Bytes → Bytes → Option Bytes
  decrypt : Bytes → Bytes → Bytes → Option Bytes

/-- What is assumed of the cipher. -/
structure Aead.Lawful (A : Aead) : Prop where
  /-- Decryption inverts encryption under the same key and nonce. -/
  decrypt_encrypt : ∀ {key nonce pt ct}, A.encrypt key nonce pt = some ct →
    A.decrypt key nonce ct = some pt
  /-- A ciphertext is 16 bytes longer than its plaintext. -/
  length_encrypt : ∀ {key nonce pt ct}, A.encrypt key nonce pt = some ct →
    ct.length = pt.length + 16

/-- Wraps and unwraps data keys.  The first argument of each operation stands for what
its outcome depends on besides the data: drawn bytes, the state of a service. -/
structure KeyProvider where
  wrapDek : Bytes → Bytes → Except Error Bytes
  unwrapDek : Bytes → Bytes → Except Error Bytes

/-- The contract of the trait: `unwrap_dek(wrap_dek(dek))` is the original key, for keys
of 32 bytes. -/
def KeyProvider.Inverts (P : KeyProvider) : Prop :=
  ∀ {w dek wrapped}, dek.length = 32 → P.wrapDek w dek = .ok wrapped →
    ∀ w', P.unwrapDek w' wrapped = .ok dek

/-- The provider used when none is configured. -/
def PlaintextProvider : KeyProvider where
  wrapDek _ _ := .error "PlaintextProvider does not wrap DEKs — configure a key provider"
  unwrapDek _ _ := .error "PlaintextProvider does not unwrap DEKs — configure a key provider"

/-- The provider that holds a 256-bit key itself.  The wrapped key is a nonce of twelve
drawn bytes followed by the encrypted key. -/
def LocalKeyProvider (A : Aead) (kek : Vector UInt8 32) : KeyProvider where
  wrapDek w dek :=
    match A.encrypt kek.toList (List.takeD 12 w 0) dek with
    | none => .error "DEK wrapping failed: aead::Error"
    | some ct => .ok (List.takeD 12 w 0 ++ ct)
  unwrapDek _ wrapped :=
    if wrapped.length < 12 + 16 then .error s!"Wrapped DEK too short: {wrapped.length}"
    else
      match A.decrypt kek.toList (wrapped.take 12) (wrapped.drop 12) with
      | none => .error "DEK unwrapping failed (wrong KEK?): aead::Error"
      | some dek => .ok dek

/-! ### The envelope -/

/-- `b"PENV"`. -/
def magic : Bytes := [80, 69, 78, 86]

/-- The version byte. -/
def version : UInt8 := 0x01

/-- Magic, version and length of the wrapped key. -/
def fixedHeader : ℕ := 4 + 1 + 2

/-- What `seal` draws: a data key, a nonce, and what its call of the provider depends on. -/
structure SealDraw where
  dek : Vector UInt8 32
  dataNonce : Vector UInt8 12
  wrap : Bytes

/-- The bytes of an envelope. -/
def assemble (wrappedDek dataNonce ciphertext : Bytes) : Bytes :=
  magic ++ [version] ++ le16 wrappedDek.length ++ wrappedDek ++ dataNonce ++ ciphertext

/-- Encrypt with a fresh data key, wrapped by the provider.  A wrapped key too long for
its length field is refused. -/
def sealEnvelope (A : Aead) (P : KeyProvider) (d : SealDraw) (plaintext : Bytes) :
    Except Error Bytes := do
  let wrappedDek ← P.wrapDek d.wrap d.dek.toList
  if wrappedDek.length > 65535 then
    .error "Wrapped DEK exceeds 65535 bytes — provider returned unreasonable output"
  else
    match A.encrypt d.dek.toList d.dataNonce.toList plaintext with
    | none => .error "AES-GCM encryption failed: aead::Error"
    | some ciphertext => .ok (assemble wrappedDek d.dataNonce.toList ciphertext)

/-- The data starts with the envelope header. -/
def isEnvelope (data : Bytes) : Bool := fixedHeader ≤ data.length && data.take 4 == magic

/-- The second half of `open`: unwrap the data key and decrypt. -/
def openParts (A : Aead) (P : KeyProvider) (w wrappedDek dataNonce ciphertext : Bytes) :
    Except Error (Option Bytes) := do
  let dek ← P.unwrapDek w wrappedDek
  if dek.length ≠ 32 then
    .error s!"KeyProvider.unwrap_dek must return 32 bytes, got {dek.length}"
  else
    match A.decrypt dek dataNonce ciphertext with
    | none => .error "AES-GCM decryption failed (wrong KEK?): aead::Error"
    | some plaintext => .ok (some plaintext)

/-- Read an envelope.  Data without the header is plaintext of an earlier version, for
the caller to handle: `none`. -/
def openEnvelope (A : Aead) (P : KeyProvider) (w data : Bytes) : Except Error (Option Bytes) :=
  if hd : data.length < fixedHeader ∨ data.take 4 ≠ magic then .ok none
  else
    have hlen : 7 ≤ data.length := Nat.le_of_not_lt fun h => hd (Or.inl h)
    if data[4] ≠ version then .error s!"Unsupported envelope version: {data[4]}"
    else
      let wrappedEnd := fixedHeader + fromLe16 data[5] data[6]
      let nonceEnd := wrappedEnd + 12
      if ht : data.length < nonceEnd + 16 then .error "Envelope too short: truncated ciphertext"
      else
        -- every range below is inside the data by the test just made
        have ht' : nonceEnd + 16 ≤ data.length := Nat.le_of_not_lt ht
        openParts A P w (slice data fixedHeader wrappedEnd ⟨by omega, by omega⟩)
          (slice data wrappedEnd nonceEnd ⟨by omega, by omega⟩)
          (slice data nonceEnd data.length ⟨by omega, by omega⟩)

/-! ### Reading what was written -/

/-- The seven bytes in front of the wrapped key. -/
def header (n : ℕ) : Bytes := magic ++ [version] ++ le16 n

@[simp] theorem length_header (n : ℕ) : (header n).length = 7 := rfl

theorem assemble_eq (wrappedDek dataNonce ciphertext : Bytes) :
    assemble wrappedDek dataNonce ciphertext =
      header wrappedDek.length ++ (wrappedDek ++ (dataNonce ++ ciphertext)) := by
  simp only [assemble, header, List.append_assoc]

theorem isEnvelope_assemble (wrappedDek dataNonce ciphertext : Bytes) :
    isEnvelope (assemble wrappedDek dataNonce ciphertext) = true := by
  have hlen : fixedHeader ≤ (assemble wrappedDek dataNonce ciphertext).length := by
    rw [assemble_eq, List.length_append, length_header, fixedHeader]
    omega
  rw [isEnvelope, Bool.and_eq_true, decide_eq_true_eq]
  exact ⟨hlen, rfl⟩

/-- **How an assembled envelope is read**: its three parts are found again, whatever the
length of the wrapped key. -/
theorem openEnvelope_assemble (A : Aead) (P : KeyProvider) (w : Bytes)
    {wrappedDek dataNonce ciphertext : Bytes} (hw : wrappedDek.length ≤ 65535)
    (hn : dataNonce.length = 12) (hc : 16 ≤ ciphertext.length) :
    openEnvelope A P w (assemble wrappedDek dataNonce ciphertext) =
      openParts A P w wrappedDek dataNonce ciphertext := by
  have hdata := assemble_eq wrappedDek dataNonce ciphertext
  have hmagic : (assemble wrappedDek dataNonce ciphertext).take 4 = magic := rfl
  have hver : ∀ h, (assemble wrappedDek dataNonce ciphertext).get ⟨4, h⟩ = version := fun _ => rfl
  have hwlen : ∀ h₅ h₆, fromLe16 ((assemble wrappedDek dataNonce ciphertext).get ⟨5, h₅⟩)
      ((assemble wrappedDek dataNonce ciphertext).get ⟨6, h₆⟩) = wrappedDek.length :=
    fun _ _ => fromLe16_le16 hw
  generalize assemble wrappedDek dataNonce ciphertext = data at *
  have hlen : data.length = 7 + (wrappedDek.length + (12 + ciphertext.length)) := by
    rw [hdata]
    simp only [List.length_append, length_header, hn]
  have hver' : data[4] = version := hver (by omega)
  have hend : fixedHeader + fromLe16 data[5] data[6] = 7 + wrappedDek.length := by
    rw [fixedHeader]
    exact congrArg (7 + ·) (hwlen _ _)
  -- the three ranges of the reader are the three parts of the writer
  have h₁ : ∀ h, slice data fixedHeader (7 + wrappedDek.length) h = wrappedDek :=
    fun h => slice_eq h hdata rfl (by simp)
  have h₂ : ∀ h, slice data (7 + wrappedDek.length) (7 + wrappedDek.length + 12) h = dataNonce :=
    fun h => slice_eq h (x := header wrappedDek.length ++ wrappedDek) (z := ciphertext)
      (by rw [hdata, List.append_assoc]) (by simp) (by simp [hn])
  have h₃ : ∀ h, slice data (7 + wrappedDek.length + 12) data.length h = ciphertext :=
    fun h => slice_eq h (x := header wrappedDek.length ++ wrappedDek ++ dataNonce) (z := [])
      (by rw [hdata]; simp only [List.append_assoc, List.append_nil]) (by simp [hn, Nat.add_assoc])
      (by simp [hlen, hn]; omega)
  unfold openEnvelope
  rw [dif_neg (by rw [hmagic, fixedHeader]; simp; omega)]
  dsimp only
  rw [if_neg (not_not.mpr hver')]
  simp only [hend]
  rw [dif_neg (by omega), h₁, h₂, h₃]

/-- **What `seal` writes**: the provider wrapped the key in at most 65535 bytes, the
cipher encrypted the text, and the envelope is assembled from the two. -/
theorem sealEnvelope_eq_ok {A : Aead} {P : KeyProvider} {d : SealDraw} {plaintext e : Bytes}
    (h : sealEnvelope A P d plaintext = .ok e) :
    ∃ wrappedDek ciphertext, P.wrapDek d.wrap d.dek.toList = .ok wrappedDek ∧
      wrappedDek.length ≤ 65535 ∧
      A.encrypt d.dek.toList d.dataNonce.toList plaintext = some ciphertext ∧
      e = assemble wrappedDek d.dataNonce.toList ciphertext := by
  unfold sealEnvelope at h
  cases hw : P.wrapDek d.wrap d.dek.toList with
  | error msg => rw [hw] at h; cases h
  | ok wrappedDek =>
    rw [hw] at h
    change (if _ then _ else _) = _ at h
    split at h
    · cases h
    · next hlen =>
      cases hc : A.encrypt d.dek.toList d.dataNonce.toList plaintext with
      | none => rw [hc] at h; cases h
      | some ciphertext =>
        rw [hc] at h
        exact ⟨wrappedDek, ciphertext, rfl, Nat.le_of_not_lt hlen, rfl, (Except.ok.inj h).symm⟩

/-- The bytes `seal` returns carry the envelope header. -/
theorem isEnvelope_sealEnvelope {A : Aead} {P : KeyProvider} {d : SealDraw} {plaintext e : Bytes}
    (h : sealEnvelope A P d plaintext = .ok e) : isEnvelope e = true := by
  obtain ⟨wrappedDek, ciphertext, -, -, -, rfl⟩ := sealEnvelope_eq_ok h
  exact isEnvelope_assemble _ _ _

/-- Opening what was sealed, for a cipher and a provider that keep their contracts. -/
theorem openEnvelope_sealEnvelope {A : Aead} (hA : A.Lawful) {P : KeyProvider} (hP : P.Inverts)
    {d : SealDraw} {plaintext e : Bytes} (h : sealEnvelope A P d plaintext = .ok e) (w : Bytes) :
    openEnvelope A P w e = .ok (some plaintext) := by
  obtain ⟨wrappedDek, ciphertext, hwrap, hlen, hct, rfl⟩ := sealEnvelope_eq_ok h
  have hctlen := hA.length_encrypt hct
  rw [openEnvelope_assemble A P w hlen (by simp) (by omega), openParts,
    hP (by simp) hwrap w]
  change (if _ then _ else _) = _
  rw [if_neg (by simp), hA.decrypt_encrypt hct]

/-- The local provider keeps the contract, whatever its key. -/
theorem LocalKeyProvider.inverts {A : Aead} (hA : A.Lawful) (kek : Vector UInt8 32) :
    (LocalKeyProvider A kek).Inverts := by
  intro w dek wrapped hdek hwrap w'
  simp only [LocalKeyProvider] at hwrap ⊢
  cases hct : A.encrypt kek.toList (List.takeD 12 w 0) dek with
  | none => rw [hct] at hwrap; cases hwrap
  | some ct =>
    rw [hct] at hwrap
    obtain rfl := Except.ok.inj hwrap
    have hctlen := hA.length_encrypt hct
    have hnonce : (List.takeD 12 w (0 : UInt8)).length = 12 := List.takeD_length _ _ _
    rw [if_neg (by rw [List.length_append]; omega), List.take_left' hnonce,
      List.drop_left' hnonce, hA.decrypt_encrypt hct]

/-- **What is sealed can be opened again.**  For a cipher that keeps its contract: every
envelope is recognised and opens to the sealed text, whatever the provider, the text and
the draws; a wrapped key too long for its length field is refused; and the local provider
keeps the contract of providers. -/
theorem seal_open_roundtrip (A : Aead) (hA : A.Lawful) :
    (∀ P : KeyProvider, P.Inverts → ∀ d plaintext e, sealEnvelope A P d plaintext = .ok e →
      isEnvelope e = true ∧ ∀ w, openEnvelope A P w e = .ok (some plaintext)) ∧
    (∀ (P : KeyProvider) d plaintext wrappedDek, P.wrapDek d.wrap d.dek.toList = .ok wrappedDek →
      65535 < wrappedDek.length → ∃ msg, sealEnvelope A P d plaintext = .error msg) ∧
    ∀ kek, (LocalKeyProvider A kek).Inverts := by
  refine ⟨fun P hP d plaintext e h => ⟨isEnvelope_sealEnvelope h,
    openEnvelope_sealEnvelope hA hP h⟩, ?_, LocalKeyProvider.inverts hA⟩
  intro P d plaintext wrappedDek hwrap hlen
  cases h : sealEnvelope A P d plaintext with
  | error msg => exact ⟨msg, rfl⟩
  | ok e =>
    obtain ⟨wrappedDek', _, hwrap', hlen', -⟩ := sealEnvelope_eq_ok h
    rw [hwrap] at hwrap'
    obtain rfl := Except.ok.inj hwrap'
    omega

/-! ### A cipher to run

Any keystream gives a cipher in counter mode, and any function of the ciphertext a tag;
the facts assumed of AES-GCM hold of all of them. -/

/-- Add a keystream to a text. -/
def xorStream (ks : ℕ → UInt8) (text : Bytes) : Bytes := text.mapIdx fun i b => b ^^^ ks i

@[simp] theorem length_xorStream (ks : ℕ → UInt8) (text : Bytes) :
    (xorStream ks text).length = text.length := List.length_mapIdx

@[simp] theorem xorStream_xorStream (ks : ℕ → UInt8) (text : Bytes) :
    xorStream ks (xorStream ks text) = text := by
  apply List.ext_getElem (by simp)
  intro i h₁ h₂
  simp only [xorStream, List.getElem_mapIdx, UInt8.xor_assoc, UInt8.xor_self, UInt8.xor_zero]

/-- The sixteen-byte tag of `counterAead`: the sum of key, nonce and ciphertext. -/
def counterTag (key nonce body : Bytes) : Bytes :=
  List.replicate 16 ((key ++ nonce ++ body).foldl (· + ·) 0)

/-- A small cipher in counter mode with a tag. -/
def counterAead : Aead where
  encrypt key nonce pt :=
    let body := xorStream (fun i => key.getD (i % 32) 0 + nonce.getD (i % 12) 0) pt
    some (body ++ counterTag key nonce body)
  decrypt key nonce ct :=
    let body := ct.take (ct.length - 16)
    if ct.drop (ct.length - 16) = counterTag key nonce body then
      some (xorStream (fun i => key.getD (i % 32) 0 + nonce.getD (i % 12) 0) body)
    else none

theorem counterAead_lawful : counterAead.Lawful where
  decrypt_encrypt := by
    rintro key nonce pt ct ⟨⟩
    simp [counterAead, counterTag]
  length_encrypt := by
    rintro key nonce pt ct ⟨⟩
    simp [counterTag]

/-- The round trip of one byte through the local provider. -/
theorem seal_open_roundtrip_byte :
    ∃ e, sealEnvelope counterAead (LocalKeyProvider counterAead (Vector.replicate 32 7))
        ⟨Vector.replicate 32 1, Vector.replicate 12 2, [3]⟩ [42] = .ok e ∧
      isEnvelope e = true ∧
      openEnvelope counterAead (LocalKeyProvider counterAead (Vector.replicate 32 7)) [] e
        = .ok (some [42]) := by
  obtain ⟨hround, -, hlocal⟩ := seal_open_roundtrip counterAead counterAead_lawful
  obtain ⟨henv, hopen⟩ := hround _ (hlocal (Vector.replicate 32 7))
    ⟨Vector.replicate 32 1, Vector.replicate 12 2, [3]⟩ [42] _ rfl
  exact ⟨_, rfl, henv, hopen []⟩

end PeatGateway
