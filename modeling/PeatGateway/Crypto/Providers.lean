import PeatGateway.Cli.MigrateSafe
import PeatGateway.Lib.Base64
import PeatGateway.Lib.JsonText

/-!
# Key providers that are services

With Vault the wrapped key is the ciphertext that its Transit engine answers, as a text; the
data key travels in Base64.  With AWS KMS it is the ciphertext blob.  Both services may be out
of reach, refuse a call or answer something else.

## Main definitions

* `VaultClient`, `KmsClient` — the services.
* `VaultTransitProvider`, `AwsKmsProvider` — the two providers.
* `keyEnv` — what a build supplies.
* `ConfiguredVault` — the Vault provider of a configuration.

## Main results

* `VaultTransitProvider.unwrapDek_eq_ok_iff` — when a wrapped key is unwrapped, and to what.
* `selected_provider_opens` — **what is sealed with the configured provider opens to nothing but
  what was sealed**, and opens whenever the service answers.
-/

namespace PeatGateway

/-! ### Vault Transit -/

/-- A POST to Vault; the token goes into the header `X-Vault-Token`. -/
structure VaultRequest where
  url : String
  token : String
  body : Json

/-- An answer of Vault. -/
structure VaultResponse where
  status : ℕ
  /-- The status as it is shown. -/
  statusText : String
  /-- The body as a text, unless it breaks off. -/
  text : Option String
  /-- The body, unless it breaks off. -/
  bytes : Option Bytes

/-- `StatusCode::is_success`. -/
def VaultResponse.isSuccess (resp : VaultResponse) : Bool := 200 ≤ resp.status && resp.status < 300

/-- `Response::json`. -/
def VaultResponse.json {α : Type} (resp : VaultResponse) (c : Codec α) : Option α := do
  c.read (← Json.ofBytes (← resp.bytes))

/-- Sending a request; `none` if it fails.  The first argument stands for what the answer depends
on besides the request. -/
abbrev VaultClient := Bytes → VaultRequest → Option VaultResponse

/-- A record with a single field. -/
def oneField {α : Type} (name : String) (c : Codec α) : Codec α where
  write a := .object [(name, c.write a)]
  read j := do c.field name (← j.entries [name] 0)
  absent := none
  read_write a := by simp [Codec.field_cons_self]

/-- `EncryptRequest`. -/
def encryptRequest : Codec String := oneField "plaintext" Codec.string

/-- `EncryptResponse` with `EncryptData`. -/
def encryptResponse : Codec String := oneField "data" (oneField "ciphertext" Codec.string)

/-- `DecryptRequest`. -/
def decryptRequest : Codec String := oneField "ciphertext" Codec.string

/-- `DecryptResponse` with `DecryptData`. -/
def decryptResponse : Codec String := oneField "data" (oneField "plaintext" Codec.string)

/-- `VaultTransitProvider`. -/
structure VaultTransitProvider where
  client : VaultClient
  encryptUrl : String
  decryptUrl : String
  token : String

namespace VaultTransitProvider

/-- `VaultTransitProvider::new`.  There is no client if it cannot be built. -/
def new (client : Option VaultClient) (addr token keyName : String) :
    Except Error VaultTransitProvider :=
  let base := Text.trimEndMatches addr '/'
  match client with
  | none => .error "Failed to build Vault HTTP client"
  | some client => .ok {
      client
      encryptUrl := s!"{base}/v1/transit/encrypt/{keyName}"
      decryptUrl := s!"{base}/v1/transit/decrypt/{keyName}"
      token }

variable (V : VaultTransitProvider)

/-- The call of an endpoint. -/
def call (op url : String) (w : Bytes) (body : Json) (c : Codec String) : Except Error String :=
  match V.client w ⟨url, V.token, body⟩ with
  | none => .error s!"Vault Transit {op} request failed"
  | some resp =>
    if resp.isSuccess then
      match resp.json c with
      | none => .error s!"Failed to parse Vault Transit {op} response"
      | some a => .ok a
    else
      let status := resp.statusText
      let body := resp.text.getD ""
      .error s!"Vault Transit {op} returned {status}: {body}"

/-- `wrap_dek`. -/
def wrapDek (w dek : Bytes) : Except Error Bytes := do
  let ciphertext ← V.call "encrypt" V.encryptUrl w (encryptRequest.write (Base64.encode dek))
    encryptResponse
  return Text.utf8 ciphertext

/-- The key in the plaintext that Vault answers. -/
def dekOf (plaintext : String) : Except Error Bytes :=
  match Base64.decode plaintext with
  | none => .error "Invalid base64 in Vault response"
  | some dek =>
    if dek.length ≠ 32 then
      .error s!"Vault Transit returned DEK of {dek.length} bytes, expected 32"
    else .ok dek

/-- `unwrap_dek`. -/
def unwrapDek (w wrapped : Bytes) : Except Error Bytes :=
  match String.fromUTF8? ⟨wrapped.toArray⟩ with
  | none => .error "Wrapped DEK is not valid UTF-8 (expected Vault ciphertext string)"
  | some ciphertext => do
    let plaintext ← V.call "decrypt" V.decryptUrl w (decryptRequest.write ciphertext)
      decryptResponse
    dekOf plaintext

/-- The provider as the envelope sees it. -/
def toKeyProvider : KeyProvider := ⟨V.wrapDek, V.unwrapDek⟩

/-- The endpoint answers a value. -/
def Answers (url : String) (w : Bytes) (body : Json) (c : Codec String) (a : String) : Prop :=
  ∃ resp, V.client w ⟨url, V.token, body⟩ = some resp ∧ resp.isSuccess = true ∧
    resp.json c = some a

/-- A ciphertext that the Transit engine made of a plaintext. -/
def Issued (p c : String) : Prop :=
  ∃ w, V.Answers V.encryptUrl w (encryptRequest.write p) encryptResponse c

/-- What is assumed of the Transit engine: a ciphertext it made is decrypted, if at all, to the
plaintext it was made of. -/
def Transits : Prop :=
  ∀ p c, V.Issued p c →
    ∀ w q, V.Answers V.decryptUrl w (decryptRequest.write c) decryptResponse q → q = p

/-- The Transit engine can be reached and decrypts the ciphertexts it made. -/
def Available : Prop :=
  ∀ p c, V.Issued p c → ∀ w, V.Answers V.decryptUrl w (decryptRequest.write c) decryptResponse p

variable {V}

/-- A call succeeds with what is answered. -/
theorem call_eq_ok_iff (op : String) {url a : String} {w : Bytes} {body : Json} {c : Codec String} :
    V.call op url w body c = .ok a ↔ V.Answers url w body c a := by
  unfold call Answers
  cases V.client w ⟨url, V.token, body⟩ with
  | none => simp
  | some resp =>
    by_cases hs : resp.isSuccess
    · cases hj : resp.json c <;> simp [hs, hj]
    · simp [hs]

/-- A key is wrapped as the text of the ciphertext that is answered. -/
theorem wrapDek_eq_ok_iff {w dek wrapped : Bytes} :
    V.wrapDek w dek = .ok wrapped ↔
      ∃ c, V.Answers V.encryptUrl w (encryptRequest.write (Base64.encode dek)) encryptResponse c ∧
        wrapped = Text.utf8 c := by
  unfold wrapDek
  simp only [← call_eq_ok_iff "encrypt"]
  cases V.call "encrypt" V.encryptUrl w (encryptRequest.write (Base64.encode dek))
    encryptResponse with
  | error msg =>
    constructor
    · intro h
      cases h
    · intro ⟨_, h, _⟩
      cases h
  | ok c =>
    constructor
    · intro h
      exact ⟨c, rfl, (Except.ok.inj h).symm⟩
    · intro ⟨c', hc, hw⟩
      rw [hw, ← Except.ok.inj hc]
      rfl

/-- A key of 32 bytes is found in its Base64. -/
theorem dekOf_encode {dek : Bytes} (hlen : dek.length = 32) :
    dekOf (Base64.encode dek) = .ok dek := by
  simp [dekOf, Base64.decode_encode, hlen]

/-- **When a wrapped key is unwrapped, and to what**: the service answers a plaintext that is the
Base64 of 32 bytes. -/
theorem unwrapDek_eq_ok_iff {w dek : Bytes} {c : String} :
    V.unwrapDek w (Text.utf8 c) = .ok dek ↔
      ∃ p, V.Answers V.decryptUrl w (decryptRequest.write c) decryptResponse p ∧
        dekOf p = .ok dek := by
  unfold unwrapDek
  rw [Json.fromUTF8?_utf8]
  simp only [← call_eq_ok_iff "decrypt"]
  cases V.call "decrypt" V.decryptUrl w (decryptRequest.write c) decryptResponse with
  | error msg =>
    constructor
    · intro h
      cases h
    · intro ⟨_, h, _⟩
      cases h
  | ok p =>
    constructor
    · intro h
      exact ⟨p, rfl, h⟩
    · intro ⟨p', hp, hdek⟩
      rw [← Except.ok.inj hp] at hdek
      exact hdek

theorem Transits.recovers (h : V.Transits) : V.toKeyProvider.Recovers := by
  intro w dek wrapped hlen hwrap w' dek' hun
  obtain ⟨c, hc, rfl⟩ := wrapDek_eq_ok_iff.mp hwrap
  obtain ⟨p, hp, hdek⟩ := unwrapDek_eq_ok_iff.mp hun
  rw [h _ c ⟨w, hc⟩ w' p hp, dekOf_encode hlen] at hdek
  exact (Except.ok.inj hdek).symm

theorem Available.inverts (h : V.Available) : V.toKeyProvider.Inverts := by
  intro w dek wrapped hlen hwrap w'
  obtain ⟨c, hc, rfl⟩ := wrapDek_eq_ok_iff.mp hwrap
  exact unwrapDek_eq_ok_iff.mpr ⟨_, h _ c ⟨w, hc⟩ w', dekOf_encode hlen⟩

end VaultTransitProvider

/-! ### AWS KMS -/

/-- The calls of the SDK: `none` if the call fails, else the blob of the answer, if it has one. -/
structure KmsClient where
  encrypt : Bytes → String → Bytes → Option (Option Bytes)
  decrypt : Bytes → Bytes → Option (Option Bytes)

/-- `KmsOps`. -/
structure KmsOps where
  encrypt : Bytes → String → Bytes → Except Error Bytes
  decrypt : Bytes → Bytes → Except Error Bytes

/-- `RealKmsOps`. -/
def RealKmsOps (client : KmsClient) : KmsOps where
  encrypt w keyId plaintext :=
    match client.encrypt w keyId plaintext with
    | none => .error "KMS Encrypt call failed"
    | some none => .error "KMS Encrypt returned no ciphertext"
    | some (some ciphertext) => .ok ciphertext
  decrypt w ciphertext :=
    match client.decrypt w ciphertext with
    | none => .error "KMS Decrypt call failed"
    | some none => .error "KMS Decrypt returned no plaintext"
    | some (some plaintext) => .ok plaintext

/-- `AwsKmsProvider`, made by `with_ops`. -/
def AwsKmsProvider (ops : KmsOps) (keyId : String) : KeyProvider where
  wrapDek w dek := ops.encrypt w keyId dek
  unwrapDek w wrapped := ops.decrypt w wrapped

/-- `AwsKmsProvider::from_env`. -/
def AwsKmsProvider.fromEnv (client : KmsClient) (keyArn : String) : Except Error KeyProvider :=
  .ok (AwsKmsProvider (RealKmsOps client) keyArn)

namespace KmsClient

variable (K : KmsClient)

/-- What is assumed of KMS: a ciphertext it made is decrypted, if at all, to its plaintext. -/
def Decrypts : Prop :=
  ∀ w keyId p c, K.encrypt w keyId p = some (some c) →
    ∀ w' q, K.decrypt w' c = some (some q) → q = p

/-- KMS can be reached and decrypts the ciphertexts it made. -/
def Available : Prop :=
  ∀ w keyId p c, K.encrypt w keyId p = some (some c) → ∀ w', K.decrypt w' c = some (some p)

variable {K}

theorem encrypt_eq_ok_iff {w p c : Bytes} {keyId : String} :
    (RealKmsOps K).encrypt w keyId p = .ok c ↔ K.encrypt w keyId p = some (some c) := by
  unfold RealKmsOps
  rcases h : K.encrypt w keyId p with _ | _ | b <;> simp [h]

theorem decrypt_eq_ok_iff {w p c : Bytes} :
    (RealKmsOps K).decrypt w c = .ok p ↔ K.decrypt w c = some (some p) := by
  unfold RealKmsOps
  rcases h : K.decrypt w c with _ | _ | b <;> simp [h]

theorem Decrypts.recovers (h : K.Decrypts) (keyId : String) :
    (AwsKmsProvider (RealKmsOps K) keyId).Recovers := by
  intro w dek wrapped _ hwrap w' dek' hun
  exact h w keyId dek wrapped (encrypt_eq_ok_iff.mp hwrap) w' dek' (decrypt_eq_ok_iff.mp hun)

theorem Available.inverts (h : K.Available) (keyId : String) :
    (AwsKmsProvider (RealKmsOps K) keyId).Inverts := by
  intro w dek wrapped _ hwrap w'
  exact decrypt_eq_ok_iff.mpr (h w keyId dek wrapped (encrypt_eq_ok_iff.mp hwrap) w')

end KmsClient

/-! ### The configured provider -/

/-- What a build supplies: a service whose feature is not compiled in is missing. -/
def keyEnv (A : Aead) (kms : Option KmsClient) (vault : Option (Option VaultClient)) : KeyEnv where
  aead := A
  kms := kms.map AwsKmsProvider.fromEnv
  vault := vault.map fun client addr token keyName => do
    return (← VaultTransitProvider.new client addr token keyName).toKeyProvider

/-- The Vault provider of a configuration. -/
def ConfiguredVault (vault : Option (Option VaultClient)) (config : KeyConfig)
    (V : VaultTransitProvider) : Prop :=
  ∃ client addr token, vault = some client ∧ config.vaultAddr = some addr ∧
    config.vaultToken = some token ∧
    VaultTransitProvider.new client addr token (config.vaultTransitKey.getD "peat-gateway") = .ok V

/-- **Which provider is selected**, when records are encrypted. -/
theorem buildKeyProvider_eq_ok {A : Aead} {kms : Option KmsClient}
    {vault : Option (Option VaultClient)} {config : KeyConfig} {P : KeyProvider}
    (h : buildKeyProvider (keyEnv A kms vault) config = .ok (P, true)) :
    (∃ K arn, kms = some K ∧ P = AwsKmsProvider (RealKmsOps K) arn) ∨
    (∃ V, ConfiguredVault vault config V ∧ P = V.toKeyProvider) ∨
    ∃ kek, P = LocalKeyProvider A kek := by
  unfold buildKeyProvider keyEnv at h
  cases harn : config.kmsKeyArn with
  | some arn =>
    rw [harn] at h
    cases hkms : kms with
    | none => rw [hkms] at h; cases h
    | some K =>
      rw [hkms] at h
      cases h
      exact Or.inl ⟨K, arn, rfl, rfl⟩
  | none =>
    rw [harn] at h
    cases haddr : config.vaultAddr with
    | some addr =>
      rw [haddr] at h
      cases hvault : vault with
      | none => rw [hvault] at h; cases h
      | some client =>
        rw [hvault] at h
        cases htoken : config.vaultToken with
        | none => rw [htoken] at h; cases h
        | some token =>
          rw [htoken] at h
          dsimp only [Option.map_some] at h
          cases hnew : VaultTransitProvider.new client addr token
              (config.vaultTransitKey.getD "peat-gateway") with
          | error msg => rw [hnew] at h; cases h
          | ok V =>
            rw [hnew] at h
            cases h
            exact Or.inr (Or.inl ⟨V, ⟨client, addr, token, rfl, haddr, htoken, hnew⟩, rfl⟩)
    | none =>
      rw [haddr] at h
      cases hkek : config.kek with
      | none => rw [hkek] at h; cases h
      | some kekHex =>
        rw [hkek] at h
        dsimp only [LocalKeyProvider.fromHex] at h
        cases hhex : Wire.hexDecode kekHex with
        | none => rw [hhex] at h; cases h
        | some bytes =>
          rw [hhex] at h
          dsimp only at h
          by_cases hlen : bytes.length = 32
          · rw [dif_pos hlen] at h
            cases h
            exact Or.inr (Or.inr ⟨_, rfl⟩)
          · rw [dif_neg hlen] at h
            cases h

section Selected

variable {A : Aead} {kms : Option KmsClient} {vault : Option (Option VaultClient)}
  {config : KeyConfig} {P : KeyProvider}

/-- The configured provider never unwraps a key to another one. -/
theorem selected_recovers (hA : A.Lawful) (hkms : ∀ K ∈ kms, K.Decrypts)
    (hvault : ∀ V, ConfiguredVault vault config V → V.Transits)
    (h : buildKeyProvider (keyEnv A kms vault) config = .ok (P, true)) : P.Recovers := by
  rcases buildKeyProvider_eq_ok h with ⟨K, arn, hK, rfl⟩ | ⟨V, hV, rfl⟩ | ⟨kek, rfl⟩
  · exact (hkms K hK).recovers arn
  · exact (hvault V hV).recovers
  · exact KeyProvider.Inverts.recovers (LocalKeyProvider.inverts hA kek)

/-- It unwraps every key it wrapped, if its service answers. -/
theorem selected_inverts (hA : A.Lawful) (hkms : ∀ K ∈ kms, K.Available)
    (hvault : ∀ V, ConfiguredVault vault config V → V.Available)
    (h : buildKeyProvider (keyEnv A kms vault) config = .ok (P, true)) : P.Inverts := by
  rcases buildKeyProvider_eq_ok h with ⟨K, arn, hK, rfl⟩ | ⟨V, hV, rfl⟩ | ⟨kek, rfl⟩
  · exact (hkms K hK).inverts arn
  · exact (hvault V hV).inverts
  · exact LocalKeyProvider.inverts hA kek

/-- **Whichever provider is configured, what is sealed with it opens to nothing but what was
sealed**, however the calls of its service come out; and it opens, if the service answers. -/
theorem selected_provider_opens (hA : A.Lawful) (hkms : ∀ K ∈ kms, K.Decrypts)
    (hvault : ∀ V, ConfiguredVault vault config V → V.Transits)
    (h : buildKeyProvider (keyEnv A kms vault) config = .ok (P, true)) {d : SealDraw}
    {plaintext e : Bytes} (he : sealEnvelope A P d plaintext = .ok e) :
    isEnvelope e = true ∧
      (∀ w r, openEnvelope A P w e = .ok r → r = some plaintext) ∧
      ((∀ K ∈ kms, K.Available) → (∀ V, ConfiguredVault vault config V → V.Available) →
        ∀ w, openEnvelope A P w e = .ok (some plaintext)) := by
  refine ⟨isEnvelope_sealEnvelope he, fun w r hr => ?_, fun hkms' hvault' w => ?_⟩
  · exact openEnvelope_recovers hA (selected_recovers hA hkms hvault h) he hr
  · exact openEnvelope_sealEnvelope hA (selected_inverts hA hkms' hvault' h) he w

end Selected

/-! ### A Vault to run -/

/-- A response with a value. -/
def okResponse (j : Json) : VaultResponse := ⟨200, "200 OK", none, some (Json.toBytes j)⟩

/-- A Vault that writes a mark in front of the plaintext.  A call fails if something is drawn
for it. -/
def markVault : VaultClient := fun w req =>
  if w = [] then
    match encryptRequest.read req.body with
    | some p => some (okResponse (encryptResponse.write ("vault:v1:" ++ p)))
    | none =>
      match decryptRequest.read req.body with
      | some c =>
        (Text.stripPrefix c "vault:v1:").map fun p => okResponse (decryptResponse.write p)
      | none => some ⟨400, "400 Bad Request", some "invalid request", none⟩
  else none

/-- A configuration with that Vault. -/
def vaultConfig : KeyConfig where
  kek := none
  kmsKeyArn := none
  vaultAddr := some "http://vault:8200/"
  vaultToken := some "s.token"
  vaultTransitKey := none

/-- The provider it selects. -/
def markProvider : VaultTransitProvider where
  client := markVault
  encryptUrl := "http://vault:8200/v1/transit/encrypt/peat-gateway"
  decryptUrl := "http://vault:8200/v1/transit/decrypt/peat-gateway"
  token := "s.token"

theorem new_markVault : VaultTransitProvider.new (some markVault) "http://vault:8200/" "s.token"
    "peat-gateway" = .ok markProvider := by
  have hbase : Text.trimEndMatches "http://vault:8200/" '/' = "http://vault:8200" := by
    decide +kernel
  simp only [VaultTransitProvider.new, hbase]
  rfl

/-- The answer with a value is read back. -/
theorem json_okResponse {c : Codec String} {a : String} (hc : (c.write a).wellFormed = true) :
    (okResponse (c.write a)).json c = some a := by
  simp [VaultResponse.json, okResponse, Json.ofBytes_toBytes hc]

theorem stripPrefix_mark (p : String) :
    Text.stripPrefix ("vault:v1:" ++ p) "vault:v1:" = some p := by
  have hstarts : Text.startsWith ("vault:v1:" ++ p) "vault:v1:" = true := by
    rw [Text.startsWith_iff, String.toList_append]
    exact List.prefix_append _ _
  rw [Text.stripPrefix, if_pos hstarts, String.toList_append, List.drop_left,
    String.ofList_toList]

theorem markVault_encrypt (url token p : String) :
    markVault [] ⟨url, token, encryptRequest.write p⟩ =
      some (okResponse (encryptResponse.write ("vault:v1:" ++ p))) := by
  simp [markVault]

theorem markVault_decrypt (url token p : String) :
    markVault [] ⟨url, token, decryptRequest.write ("vault:v1:" ++ p)⟩ =
      some (okResponse (decryptResponse.write p)) := by
  have hread : encryptRequest.read (decryptRequest.write ("vault:v1:" ++ p)) = none := rfl
  simp [markVault, hread, stripPrefix_mark]

/-- What it answers to a request for encryption. -/
theorem markVault_issued {V : VaultTransitProvider} (hV : V.client = markVault) {p c : String}
    (h : V.Issued p c) : c = "vault:v1:" ++ p := by
  obtain ⟨w, resp, hsend, -, hjson⟩ := h
  rw [hV] at hsend
  by_cases hw : w = []
  · rw [hw, markVault_encrypt] at hsend
    rw [← Option.some.inj hsend, json_okResponse rfl] at hjson
    exact (Option.some.inj hjson).symm
  · simp [markVault, hw] at hsend

theorem markVault_transits {V : VaultTransitProvider} (hV : V.client = markVault) :
    V.Transits := by
  intro p c hc w q hq
  obtain ⟨resp, hsend, -, hjson⟩ := hq
  rw [hV, markVault_issued hV hc] at hsend
  by_cases hw : w = []
  · rw [hw, markVault_decrypt] at hsend
    rw [← Option.some.inj hsend, json_okResponse rfl] at hjson
    exact (Option.some.inj hjson).symm
  · simp [markVault, hw] at hsend

/-- The key that is drawn, and what it is wrapped as. -/
def markDraw : SealDraw := ⟨Vector.replicate 32 1, Vector.replicate 12 2, []⟩

@[inherit_doc markDraw] def markWrapped : Bytes :=
  Text.utf8 ("vault:v1:" ++ Base64.encode markDraw.dek.toList)

theorem markProvider_wrapDek :
    markProvider.toKeyProvider.wrapDek markDraw.wrap markDraw.dek.toList = .ok markWrapped := by
  refine VaultTransitProvider.wrapDek_eq_ok_iff.mpr ?_
  exact ⟨_, ⟨_, markVault_encrypt markProvider.encryptUrl markProvider.token _, rfl,
    json_okResponse rfl⟩, rfl⟩

/-- When sealing succeeds. -/
theorem sealEnvelope_of_wrap {A : Aead} {P : KeyProvider} {d : SealDraw}
    {plaintext wrapped ciphertext : Bytes} (hwrap : P.wrapDek d.wrap d.dek.toList = .ok wrapped)
    (hlen : wrapped.length ≤ 65535)
    (hct : A.encrypt d.dek.toList d.dataNonce.toList plaintext = some ciphertext) :
    sealEnvelope A P d plaintext = .ok (assemble wrapped d.dataNonce.toList ciphertext) := by
  unfold sealEnvelope
  rw [hwrap]
  change (if _ then _ else _) = _
  rw [if_neg (by omega), hct]

theorem buildKeyProvider_vault :
    buildKeyProvider (keyEnv counterAead none (some (some markVault))) vaultConfig =
      .ok (markProvider.toKeyProvider, true) := by
  have hnew := new_markVault
  show (do return (← (do return (← VaultTransitProvider.new (some markVault) "http://vault:8200/"
    "s.token" "peat-gateway").toKeyProvider), true)) = _
  rw [hnew]
  rfl

/-- What is sealed with the mark Vault opens to what was sealed, or not at all. -/
theorem selected_provider_opens_vault : ∃ e,
    sealEnvelope counterAead markProvider.toKeyProvider markDraw [42] = .ok e ∧
      isEnvelope e = true ∧
      ∀ w r, openEnvelope counterAead markProvider.toKeyProvider w e = .ok r → r = some [42] := by
  have hlen : markWrapped.length ≤ 65535 := by decide +kernel
  have hct : ∃ ct, counterAead.encrypt markDraw.dek.toList markDraw.dataNonce.toList [42] =
      some ct := ⟨_, rfl⟩
  obtain ⟨ct, hct⟩ := hct
  have he := sealEnvelope_of_wrap markProvider_wrapDek hlen hct
  have hvault : ∀ V, ConfiguredVault (some (some markVault)) vaultConfig V → V.Transits := by
    intro V ⟨client, addr, token, hclient, _, _, hnew⟩
    cases hclient
    cases hnew
    exact markVault_transits rfl
  have hkms : ∀ K ∈ (none : Option KmsClient), K.Decrypts := by simp
  obtain ⟨henv, hopen, -⟩ :=
    selected_provider_opens counterAead_lawful hkms hvault buildKeyProvider_vault he
  exact ⟨_, he, henv, hopen⟩

end PeatGateway
