import PeatGateway.Api.Http
import PeatGateway.Mesh.Ingest

/-!
# What is shown of a formation

Three endpoints show what others keep: the peers and the documents of a formation come from the
broker that is registered for it, the certificates from its genesis and from the enrollment
log.

## Main definitions

* `MeshStateRegistry` — the brokers, by formation.
* `BrokerView` — what a request sees of a broker.
* `listPeers`, `listDocuments`, `listCertificates` — the handlers.
-/

namespace PeatGateway

open Effect Wire

/-! ### The registry -/

/-- The broker registered for a formation, if there is one. -/
abbrev MeshStateRegistry (B : Type) : Type := String × String → Option B

namespace MeshStateRegistry

variable {B : Type}

/-- `MeshStateRegistry::new`: no broker is registered. -/
def new : MeshStateRegistry B := fun _ => none

/-- `register`: the broker of the formation is the new one. -/
def register (r : MeshStateRegistry B) (orgId appId : String) (state : B) : MeshStateRegistry B :=
  fun k => if k = (orgId, appId) then some state else r k

/-- `deregister`: the formation has no broker any more. -/
def deregister (r : MeshStateRegistry B) (orgId appId : String) : MeshStateRegistry B :=
  fun k => if k = (orgId, appId) then none else r k

/-- `get`: the broker of the formation. -/
def get (r : MeshStateRegistry B) (orgId appId : String) : Option B := r (orgId, appId)

end MeshStateRegistry

/-- What a request sees of a broker.  A request asks for documents up to five times, and the
broker may have been polled in between. -/
structure BrokerView where
  peers : List PeerSummary
  documents : ℕ → String → Option (List Json)

/-! ### Handlers -/

/-- Handlers that answer with an `α` or refuse with a response. -/
abbrev HttpReply (α : Type) : Type := Reply Storage Error ApiResponse α

/-- `(status, e.to_string())`. -/
def refusal (status : HttpStatus) (e : Error) : ApiResponse := ⟨status, .text e⟩

/-! ### Peers -/

/-- The status of a peer, as it is shown. -/
inductive PeerStatus
  | connected
  | disconnected
  | pending
  deriving DecidableEq, Repr

/-- A peer, as it is shown. -/
structure PeerInfo where
  peerId : String
  appId : String
  status : PeerStatus
  lastSeen : UInt64
  deriving DecidableEq, Repr

/-- The name of the status. -/
def PeerStatus.write : PeerStatus → Json
  | .connected => .string "Connected"
  | .disconnected => .string "Disconnected"
  | .pending => .string "Pending"

/-- The JSON object of a peer. -/
def PeerInfo.write (p : PeerInfo) : Json :=
  .object [("peer_id", Codec.string.write p.peerId), ("app_id", Codec.string.write p.appId),
    ("status", p.status.write), ("last_seen", Codec.uint64.write p.lastSeen)]

/-- A peer of the broker, as it is shown at the time `now`. -/
def peerInfo (appId : String) (now : UInt64) (s : PeerSummary) : PeerInfo where
  peerId := s.id
  appId := appId
  status := if s.connected then .connected else .disconnected
  lastSeen := now

/-- The peers are those of the broker; without a broker there are none. -/
def listPeers (mesh : MeshStateRegistry BrokerView) (now : UInt64) (orgId appId : String) :
    HttpReply (List PeerInfo) := do
  let _ ← Reply.orElse (TenantManager.getFormation orgId appId) (refusal .notFound)
  match mesh.get orgId appId with
  | none => return []
  | some broker => return broker.peers.map (peerInfo appId now)

/-! ### Documents -/

/-- A document, as it is shown: its id, and the number of its entries. -/
structure DocumentSummary where
  docId : String
  keyCount : UInt64
  lastModified : UInt64
  deriving DecidableEq, Repr

/-- The JSON object of a document. -/
def DocumentSummary.write (d : DocumentSummary) : Json :=
  .object [("doc_id", Codec.string.write d.docId), ("key_count", Codec.uint64.write d.keyCount),
    ("last_modified", Codec.uint64.write d.lastModified)]

/-- `obj.entry("_collection").or_insert_with(…)`, for objects. -/
def tagCollection (collection : String) : Json → Json
  | .object m =>
    if (JsonMap.get m "_collection").isSome then .object m
    else .object (m ++ [("_collection", .string collection)])
  | v => v

/-- `value.as_object().map(|m| m.len())`. -/
def keyCount : Json → ℕ
  | .object m => m.length
  | _ => 0

/-- `value.as_u64()`. -/
def asU64 (v : Json) : Option UInt64 := (v.readBelow (2 ^ 64)).map UInt64.ofNat

/-- A document, as it is shown. -/
def documentSummary (val : Json) : DocumentSummary where
  docId := (documentId val).getD "unknown"
  keyCount := UInt64.ofNat (keyCount val)
  lastModified := ((val.get "_last_modified").bind asU64).getD 0

/-- The collections that are shown if there is none with the name of the formation. -/
def fallbackCollections : List String := ["cot-broadcast", "contacts", "markers", "missions"]

/-- The documents that are shown: those of the collection with the name of the formation, or
those of the fallback collections, tagged. -/
def shownDocuments (broker : BrokerView) (appId : String) : List Json :=
  match broker.documents 0 appId with
  | some docs => docs
  | none =>
    fallbackCollections.zipIdx.flatMap fun c =>
      ((broker.documents (c.2 + 1) c.1).getD []).map (tagCollection c.1)

/-- The documents of the formation's broker; without a broker there are none. -/
def listDocuments (mesh : MeshStateRegistry BrokerView) (orgId appId : String) :
    HttpReply (List DocumentSummary) := do
  let _ ← Reply.orElse (TenantManager.getFormation orgId appId) (refusal .notFound)
  match mesh.get orgId appId with
  | none => return []
  | some broker => return (shownDocuments broker appId).map documentSummary

/-! ### Certificates -/

/-- The certificate of an authority. -/
structure RootCertificate where
  subjectPublicKey : Vector UInt8 32
  nodeId : String
  issuedAtMs : UInt64
  expiresAtMs : UInt64

/-- A certificate, as it is shown. -/
structure CertificateSummary where
  peerId : String
  fingerprint : String
  issuedAt : UInt64
  expiresAt : UInt64
  revoked : Bool
  deriving DecidableEq, Repr

/-- The JSON object of a certificate. -/
def CertificateSummary.write (c : CertificateSummary) : Json :=
  .object [("peer_id", Codec.string.write c.peerId),
    ("fingerprint", Codec.string.write c.fingerprint),
    ("issued_at", Codec.uint64.write c.issuedAt), ("expires_at", Codec.uint64.write c.expiresAt),
    ("revoked", Codec.bool.write c.revoked)]

/-- The certificate of the authority, as it is shown. -/
def authorityCertificate (root : RootCertificate) : CertificateSummary where
  peerId := root.nodeId
  fingerprint := hexEncode (root.subjectPublicKey.toList.take 8)
  issuedAt := root.issuedAtMs
  expiresAt := root.expiresAtMs
  revoked := false

/-- What is shown of an entry of the log: an approval counts as a certificate. -/
def entryCertificate (entry : EnrollmentAuditEntry) : Option CertificateSummary :=
  match entry.decision with
  | .approved _ _ => some {
      peerId := entry.subject
      fingerprint := hexEncode ((Text.utf8 entry.subject).take 8)
      issuedAt := entry.timestampMs
      expiresAt := 0
      revoked := false }
  | .denied _ => none

/-- The authority's certificate, and the approvals among the latest thousand entries of the
formation.  `rootCertificate` is `MeshGenesis::root_certificate`, and `w` what opening the
genesis draws. -/
def listCertificates {G : Type} (mgr : TenantManager G)
    (rootCertificate : G → String → RootCertificate) (w : Bytes) (orgId appId : String) :
    HttpReply (List CertificateSummary) := do
  let _ ← Reply.orElse (TenantManager.getFormation orgId appId) (refusal .notFound)
  let genesis ← Reply.orElse (mgr.loadGenesis w orgId appId) (refusal .internalServerError)
  let root := rootCertificate genesis "authority-0"
  let entries ← Reply.orElse (TenantManager.listAudit orgId (some appId) 1000)
    (refusal .internalServerError)
  return authorityCertificate root :: entries.filterMap entryCertificate

end PeatGateway
