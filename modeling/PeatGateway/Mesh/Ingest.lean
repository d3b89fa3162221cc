import PeatGateway.Cdc.Watcher
import PeatGateway.Config

/-!
# Reading the state of a mesh from a remote broker

A broker is polled for the state of its node, its peers and the documents of some
collections.  The answers of a poll make up a snapshot that replaces the one before; what is
new in it is published as change events and as mesh events.

Which of the requests of a poll succeed, and what they answer, is up to the broker.  The
order in which hash maps and hash sets are walked is up to their random keys.

## Main definitions

* `Snapshot` — what is known of the mesh.
* `documentId`, `docContentHash` — the id of a document, and the hash of its content.
* `Poll`, `Walk`, `Orders` — the answers of the broker to the requests of one poll, and the
  orders in which maps and sets are walked in it.
* `RemoteBroker.publishCdcDiffs`, `emitDiffs` — the events made of two snapshots.
* `RemoteBroker.refreshOnce`, `recordError`, `RemoteBroker.poll`, `RemoteBroker.run` — one
  poll, and many.
* `RemoteBrokerState.readiness` — what the broker is reported as.
-/

namespace PeatGateway

/-! ### Snapshots -/

/-- `MeshNodeInfo` of the crate `peat_mesh`: the node that is asked. -/
structure MeshNodeInfo where
  nodeId : String
  uptimeSecs : UInt64
  version : String
  deriving DecidableEq

/-- `TopologySummary` of the crate `peat_mesh`: the node's place in the mesh. -/
structure TopologySummary where
  peerCount : ℕ
  role : String
  hierarchyLevel : UInt32
  deriving DecidableEq

/-- `ReadinessCheck` of the crate `peat_mesh`: one of the checks of a node. -/
structure ReadinessCheck where
  name : String
  ready : Bool
  message : Option String
  deriving DecidableEq

/-- `ReadinessResponse` of the crate `peat_mesh`: whether a node is ready. -/
structure ReadinessResponse where
  ready : Bool
  nodeId : String
  checks : List ReadinessCheck
  deriving DecidableEq

/-- `PeerSummary` of the crate `peat_mesh`: a peer of the node. -/
structure PeerSummary where
  id : String
  connected : Bool
  state : String
  rttMs : Option UInt64
  deriving DecidableEq

/-- What subscribers are told. -/
inductive MeshEvent
  | peerConnected (peerId : String)
  | peerDisconnected (peerId reason : String)
  | topologyChanged (newRole : String) (peerCount : ℕ)
  | syncEvent (collection docId action : String)
  deriving DecidableEq

/-- The documents of each collection, in the order the map was filled. -/
abbrev Documents : Type := Rows String (List Json)

/-- What is known of the mesh. -/
structure Snapshot where
  nodeInfo : MeshNodeInfo
  topology : TopologySummary
  readiness : ReadinessResponse
  peers : List PeerSummary
  documents : Documents
  lastSyncMs : Option UInt64
  lastError : Option String

/-- What is reported of a broker that is not ready. -/
def notReady (nodeId message : String) : ReadinessResponse :=
  ⟨false, nodeId, [⟨"remote-broker", false, some message⟩]⟩

/-- `Snapshot::new`: what is known before the first poll. -/
def Snapshot.new (nodeId : String) : Snapshot where
  nodeInfo := ⟨nodeId, 0, "remote-broker-pending"⟩
  topology := ⟨0, "standalone", 0⟩
  readiness := notReady nodeId "waiting for first successful poll"
  peers := []
  documents := .empty
  lastSyncMs := none
  lastError := none

/-! ### Documents -/

/-- The id of a document: its `_id`, or its `uid` if it has no `_id`, if that is a string. -/
def documentId (doc : Json) : Option String := ((doc.get "_id").or (doc.get "uid")).bind Json.asStr

/-- The hash of the text of a document. -/
def docContentHash (hasher : Hasher) (doc : Json) : UInt64 := hasher (hashStr doc.toText)

/-- The format `{:016x}`. -/
def lowerHex16 (n : UInt64) : String :=
  String.ofList (List.leftpad 16 '0' (Nat.toDigits 16 n.toNat))

/-- The hashes of the documents of a collection by their ids; of several documents with one id
the last counts. -/
def hashById (hasher : Hasher) (docs : List Json) (docId : String) : Option UInt64 :=
  (docs.filterMap fun d => (documentId d).map (·, docContentHash hasher d)).reverse.lookup docId

/-! ### Polls -/

/-- The order in which a map or a set is walked. -/
structure Walk (α : Type) where
  order : List α → List α
  perm : ∀ l, (order l).Perm l

instance {α : Type} : Inhabited (Walk α) := ⟨⟨id, List.Perm.refl⟩⟩

/-- The orders in which the maps and sets of one poll are walked. -/
structure Orders where
  /-- The collections of the new snapshot. -/
  documents : Walk (String × List Json) := default
  /-- The ids of the new peers, and of the old ones. -/
  newPeers : Walk String := default
  oldPeers : Walk String := default
  /-- The ids of the documents of a collection. -/
  docIds : String → Walk String := fun _ => default

/-- The answers to the requests of one poll. -/
structure Poll where
  node : Except Error MeshNodeInfo
  topology : Except Error TopologySummary
  ready : Except Error ReadinessResponse
  peers : Except Error (List PeerSummary)
  /-- The documents, by the position of the collection in the mapping. -/
  documents : ℕ → Except Error (List Json)
  now : UInt64
  orders : Orders := {}

/-- A broker that is polled, and whether changes of its documents are published. -/
structure RemoteBroker where
  mapping : MeshBrokerMapping
  hasher : Hasher
  cdcEngine : Bool

/-- A change of a document, with the event that is published for it. -/
structure Change where
  collection : String
  docId : String
  event : CdcEvent

/-- What is known of the mesh, and what has been told of it so far. -/
structure RemoteBrokerState where
  snapshot : Snapshot
  /-- What has been handed to the change capture. -/
  published : List Change
  /-- What has been sent to subscribers. -/
  events : List MeshEvent

/-- One collection: without an answer it is left out. -/
def keepAnswer (answers : ℕ → Except Error (List Json)) (documents : Documents)
    (c : String × ℕ) : Documents :=
  match answers c.2 with
  | .ok docs => documents.upsert c.1 docs
  | .error _ => documents

/-- The documents of the collections that are available. -/
def collectDocuments (answers : ℕ → Except Error (List Json)) (collections : List String) :
    Documents :=
  collections.zipIdx.foldl (keepAnswer answers) .empty

namespace RemoteBroker

variable (B : RemoteBroker)

/-- The event of a changed document. -/
def changeEvent (collection docId : String) (doc : Json) (timestampMs : UInt64) : CdcEvent where
  orgId := B.mapping.orgId
  appId := B.mapping.appId
  documentId := s!"{collection}/{docId}"
  changeHash := lowerHex16 (docContentHash B.hasher doc)
  actorId := ((doc.get "_actor").bind Json.asStr).getD "remote-broker"
  timestampMs := timestampMs
  patches := doc

/-- The change a document is published as, unless it has no id or is unchanged. -/
def change? (collection : String) (old : List Json) (timestampMs : UInt64) (doc : Json) :
    Option Change :=
  match documentId doc with
  | none => none
  | some docId =>
    if hashById B.hasher old docId = some (docContentHash B.hasher doc) then none
    else some ⟨collection, docId, B.changeEvent collection docId doc timestampMs⟩

/-- `publish_cdc_diffs`: what is handed to the engine.  What becomes of it goes to the log
only. -/
def publishCdcDiffs (orders : Orders) (old new : Snapshot) (timestampMs : UInt64) : List Change :=
  (orders.documents.order new.documents.rows).flatMap fun c =>
    c.2.filterMap (B.change? c.1 ((old.documents.select c.1).getD []) timestampMs)

end RemoteBroker

/-- The ids of the peers. -/
def peerIds (peers : List PeerSummary) : List String := (peers.map PeerSummary.id).dedup

/-- The ids of the documents. -/
def docIds (docs : List Json) : List String := (docs.filterMap documentId).dedup

/-- The events that tell of the peers that are new and of those that are gone. -/
def peerEvents (orders : Orders) (old new : List PeerSummary) : List MeshEvent :=
  ((orders.newPeers.order (peerIds new)).filter (· ∉ peerIds old)).map .peerConnected ++
    ((orders.oldPeers.order (peerIds old)).filter (· ∉ peerIds new)).map
      fun id => .peerDisconnected id "missing from remote broker snapshot"

/-- The event that tells of a change of the topology. -/
def topologyEvents (old new : TopologySummary) : List MeshEvent :=
  if old.peerCount ≠ new.peerCount ∨ old.role ≠ new.role then
    [.topologyChanged new.role new.peerCount]
  else []

/-- The events that tell of the documents that are new. -/
def syncEvents (orders : Orders) (old new : Documents) : List MeshEvent :=
  (orders.documents.order new.rows).flatMap fun c =>
    (((orders.docIds c.1).order (docIds c.2)).filter
      (· ∉ docIds ((old.select c.1).getD []))).map fun id => .syncEvent c.1 id "upsert"

/-- `emit_diffs`. -/
def emitDiffs (orders : Orders) (old new : Snapshot) : List MeshEvent :=
  peerEvents orders old.peers new.peers ++ topologyEvents old.topology new.topology ++
    syncEvents orders old.documents new.documents

namespace RemoteBroker

variable (B : RemoteBroker)

/-- The requests of a poll, and the snapshot their answers make up.  Without a readiness the
broker is not ready, and a collection that is unavailable is left out; without any of the others
there is no snapshot. -/
def fetch (p : Poll) : Except Error Snapshot := do
  let nodeInfo ← p.node
  let topology ← p.topology
  let readiness :=
    match p.ready with
    | .ok ready => ready
    | .error err => notReady nodeInfo.nodeId s!"ready probe failed: {err}"
  let peers ← p.peers
  let documents := collectDocuments p.documents B.mapping.collections
  return { nodeInfo, topology, readiness, peers, documents
           lastSyncMs := some p.now, lastError := none }

/-- `refresh_once`: events are made before the snapshot is replaced. -/
def refreshOnce (p : Poll) (st : RemoteBrokerState) : Except Error Unit × RemoteBrokerState :=
  match B.fetch p with
  | .error err => (.error err, st)
  | .ok new =>
    let published :=
      if B.cdcEngine then
        st.published ++ B.publishCdcDiffs p.orders st.snapshot new p.now
      else st.published
    let events := st.events ++ emitDiffs p.orders st.snapshot new
    (.ok (), ⟨new, published, events⟩)

end RemoteBroker

/-- `record_error`. -/
def RemoteBrokerState.recordError (st : RemoteBrokerState) (error : String) : RemoteBrokerState :=
  { st with
    snapshot := { st.snapshot with
      lastError := some error
      readiness := notReady st.snapshot.nodeInfo.nodeId error } }

namespace RemoteBroker

variable (B : RemoteBroker)

/-- One round of the refresh loop. -/
def poll (st : RemoteBrokerState) (p : Poll) : RemoteBrokerState :=
  match B.refreshOnce p st with
  | (.ok (), st) => st
  | (.error err, st) => st.recordError err

/-- `RemoteBrokerState::new`. -/
def init : RemoteBrokerState := ⟨.new s!"{B.mapping.orgId}:{B.mapping.appId}", [], []⟩

/-- The state after some polls. -/
def run (polls : List Poll) : RemoteBrokerState := polls.foldl B.poll B.init

end RemoteBroker

/-- `readiness`: what the broker is reported as. -/
def RemoteBrokerState.readiness (st : RemoteBrokerState) : ReadinessResponse :=
  match st.snapshot.lastSyncMs with
  | some t =>
    { st.snapshot.readiness with
      checks := st.snapshot.readiness.checks ++
        [⟨"last-sync-ms", true, some (toString t.toNat)⟩] }
  | none => st.snapshot.readiness

end PeatGateway
