import PeatGateway.Crypto.Envelope
import PeatGateway.Storage.Backend

/-!
# Encrypting the stored key material in place

The command `migrate-keys` walks over every organization, every formation of it and the
genesis of each, and seals what has no envelope header.  It is a program over the storage
calls like the operations of the manager, so any of its calls may fail.

## Main definitions

* `buildKeyProvider` — the provider a configuration selects.
* `Counters` — what the command reports.
* `migrateRecord`, `migrateFormations`, `migrateOrgs`, `migrateKeys` — the body of the
  loop, the two loops, and the command.
-/

namespace PeatGateway

open Effect Effect.Prog Wire

/-! ### The provider of a configuration -/

/-- The part of the configuration that selects a key provider. -/
structure KeyConfig where
  kek : Option String
  kmsKeyArn : Option String
  vaultAddr : Option String
  vaultToken : Option String
  vaultTransitKey : Option String

/-- What the build and the environment supply: the cipher, and the two providers that
are services, each only if its feature is compiled in. -/
structure KeyEnv where
  aead : Aead
  /-- `AwsKmsProvider::from_env`, with the feature `aws-kms`. -/
  kms : Option (String → Except Error KeyProvider)
  /-- `VaultTransitProvider::new`, with the feature `vault`. -/
  vault : Option (String → String → String → Except Error KeyProvider)

/-- `LocalKeyProvider::from_hex`. -/
def LocalKeyProvider.fromHex (A : Aead) (hexStr : String) : Except Error KeyProvider :=
  match hexDecode hexStr with
  | none => .error "PEAT_KEK must be valid hex"
  | some bytes =>
    if h : bytes.length = 32 then .ok (LocalKeyProvider A ⟨bytes.toArray, h⟩)
    else .error s!"PEAT_KEK must be exactly 32 bytes (64 hex chars), got {bytes.length}"

/-- The provider and whether to encrypt: KMS before Vault before a local key; without any
of them records stay plaintext. -/
def buildKeyProvider (env : KeyEnv) (config : KeyConfig) : Except Error (KeyProvider × Bool) :=
  match config.kmsKeyArn with
  | some arn =>
    match env.kms with
    | some fromEnv => do return (← fromEnv arn, true)
    | none => .error "PEAT_KMS_KEY_ARN is set but the `aws-kms` feature is not compiled in"
  | none =>
    match config.vaultAddr with
    | some addr =>
      match env.vault, config.vaultToken with
      | some new, some token => do
        return (← new addr token (config.vaultTransitKey.getD "peat-gateway"), true)
      | some _, none => .error "PEAT_VAULT_ADDR is set but PEAT_VAULT_TOKEN is missing"
      | none, _ => .error "PEAT_VAULT_ADDR is set but the `vault` feature is not compiled in"
    | none =>
      match config.kek with
      | some kekHex => do return (← LocalKeyProvider.fromHex env.aead kekHex, true)
      | none => .ok (PlaintextProvider, false)

/-! ### The command -/

/-- The four counters of the summary. -/
structure Counters where
  migrated : ℕ
  alreadyEncrypted : ℕ
  missingGenesis : ℕ
  total : ℕ
  deriving DecidableEq, Repr

/-- What the work on one record depends on besides its bytes: the draws of `seal`, and the
state of the provider when the result is opened again. -/
structure MigrateDraw where
  envelope : SealDraw
  verify : Bytes

section

variable (A : Aead) (provider : KeyProvider) (dryRun : Bool) (draws : ℕ → MigrateDraw)

/-- Seal a record, and open the result again before anything is overwritten. -/
def sealVerified (d : MigrateDraw) (orgId appId : String) (raw : Bytes) : Except Error Bytes := do
  let sealed ← sealEnvelope A provider d.envelope raw
  match ← openEnvelope A provider d.verify sealed with
  | none => .error "Roundtrip verification failed: seal produced non-envelope output"
  | some decrypted =>
    if decrypted ≠ raw then
      .error s!"Roundtrip verification failed for org={orgId} app={appId}: decrypted bytes don't match original"
    else .ok sealed

/-- The body of the loop: one formation.  Its draws are those at its position in the
listing. -/
def migrateRecord (orgId appId : String) (n : Counters) : StoreProg Counters := do
  let d := draws n.total
  let n := { n with total := n.total + 1 }
  match ← store (.getGenesis orgId appId) with
  | none => return { n with missingGenesis := n.missingGenesis + 1 }
  | some raw =>
    if isEnvelope raw then return { n with alreadyEncrypted := n.alreadyEncrypted + 1 }
    else if dryRun then return { n with migrated := n.migrated + 1 }
    else
      let sealed ← ofExcept (sealVerified A provider d orgId appId raw)
      store (.storeGenesis orgId appId sealed)
      return { n with migrated := n.migrated + 1 }

/-- The inner loop. -/
def migrateFormations (orgId : String) : List FormationConfig → Counters → StoreProg Counters
  | [], n => return n
  | f :: formations, n => do
    let n ← migrateRecord A provider dryRun draws orgId f.appId n
    migrateFormations orgId formations n

/-- The outer loop. -/
def migrateOrgs : List Organization → Counters → StoreProg Counters
  | [], n => return n
  | org :: orgs, n => do
    let formations ← store (.listFormations org.orgId)
    let n ← migrateFormations A provider dryRun draws org.orgId formations n
    migrateOrgs orgs n

end

/-- `migrate_keys`. -/
def migrateKeys (env : KeyEnv) (config : KeyConfig) (draws : ℕ → MigrateDraw) (dryRun : Bool) :
    StoreProg Counters := do
  let (provider, encryptEnabled) ← ofExcept (buildKeyProvider env config)
  ensure encryptEnabled
    "No key provider configured. Set PEAT_KEK, PEAT_KMS_KEY_ARN, or PEAT_VAULT_ADDR."
  let orgs ← store .listOrgs
  migrateOrgs env.aead provider dryRun draws orgs ⟨0, 0, 0, 0⟩

/-! ### A configuration to run -/

/-- A configuration with a local key. -/
def localEnv : KeyEnv := ⟨counterAead, none, none⟩

@[inherit_doc localEnv] def localConfig : KeyConfig where
  kek := some "0707070707070707070707070707070707070707070707070707070707070707"
  kmsKeyArn := none
  vaultAddr := none
  vaultToken := none
  vaultTransitKey := none

/-- The provider it selects. -/
def localProvider : KeyProvider := LocalKeyProvider counterAead (Vector.replicate 32 7)

/-- What `seal` draws, for every record. -/
def sampleDraws (_ : ℕ) : MigrateDraw := ⟨⟨Vector.replicate 32 1, Vector.replicate 12 2, [3]⟩, []⟩

theorem localProvider_inverts : localProvider.Inverts :=
  LocalKeyProvider.inverts counterAead_lawful _

theorem buildKeyProvider_local :
    buildKeyProvider localEnv localConfig = .ok (localProvider, true) := rfl

end PeatGateway
