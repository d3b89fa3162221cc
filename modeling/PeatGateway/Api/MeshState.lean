import PeatGateway.Api.Gate
import PeatGateway.Api.Reads
import PeatGateway.Mesh.Snapshot

/-!
# What is shown of a mesh

The brokers of all formations are polled in the background.  A request looks up the broker that is
registered for its formation, and then reads what is known of it up to five times, while the polls
go on.

## Main definitions

* `MeshIngest`, `MeshMove`, `MeshIngest.moves` — the brokers that are polled, and the registry.
* `seen` — what a request sees that reads between polls.
* `answeredPeers`, `answeredDocuments` — what a broker answered in the last poll that succeeded.
* `Shows` — the payload of a response, if it is a success.

## Main results

* `MeshIngest.owned_moves` — a formation is shown a broker of its own.
* `mesh_shown` — **what is shown is what the broker registered for the formation answered in the
  last poll that had succeeded when it was read**.
-/

namespace PeatGateway

open Effect

/-! ### Brokers -/

/-- `MeshBrokerState::list_peers`. -/
def RemoteBrokerState.listPeers (st : RemoteBrokerState) : List PeerSummary := st.snapshot.peers

/-- `MeshBrokerState::list_documents`. -/
def RemoteBrokerState.listDocuments (st : RemoteBrokerState) (collection : String) :
    Option (List Json) :=
  st.snapshot.documents.select collection

/-- A broker, and how it was polled so far. -/
structure PolledBroker where
  broker : RemoteBroker
  polls : List Poll

/-- What is known of it. -/
def PolledBroker.state (b : PolledBroker) : RemoteBrokerState := b.broker.run b.polls

/-- The brokers in the order in which they were connected to, and which of them is registered for a
formation. -/
structure MeshIngest where
  brokers : List PolledBroker
  registry : MeshStateRegistry ℕ

/-- What happens next. -/
inductive MeshMove
  /-- `register_remote_broker`, up to the spawning of the refresh loop. -/
  | connect (mapping : MeshBrokerMapping)
  /-- The rest of it: the state is registered. -/
  | register (n : ℕ)
  | deregister (orgId appId : String)
  /-- One round of a refresh loop. -/
  | poll (n : ℕ) (p : Poll)

namespace MeshIngest

variable (hasher : Hasher) (cdcEngine : Bool)

/-- One move. -/
def move (m : MeshIngest) : MeshMove → MeshIngest
  | .connect mapping => { m with brokers := m.brokers ++ [⟨⟨mapping, hasher, cdcEngine⟩, []⟩] }
  | .register n =>
    match m.brokers[n]? with
    | some b =>
      { m with registry := m.registry.register b.broker.mapping.orgId b.broker.mapping.appId n }
    | none => m
  | .deregister orgId appId => { m with registry := m.registry.deregister orgId appId }
  | .poll n p =>
    { m with brokers := m.brokers.modify n fun b => { b with polls := b.polls ++ [p] } }

/-- The state after the moves. -/
def moves (l : List MeshMove) : MeshIngest := l.foldl (move hasher cdcEngine) ⟨[], .new⟩

/-- The polls of a broker so far. -/
def pollsOf (m : MeshIngest) (n : ℕ) : List Poll := (m.brokers[n]?.map PolledBroker.polls).getD []

end MeshIngest

/-- What a request sees that looks up its broker after `t` moves, and reads it after `reading k`
moves for the `k`-th time. -/
def seen (hasher : Hasher) (cdcEngine : Bool) (l : List MeshMove) (t : ℕ) (reading : ℕ → ℕ) :
    MeshStateRegistry BrokerView := fun key =>
  ((MeshIngest.moves hasher cdcEngine (l.take t)).registry key).map fun n =>
    let at' := fun k => (MeshIngest.moves hasher cdcEngine (l.take (reading k))).brokers[n]?
    { peers := ((at' 0).map fun b => b.state.listPeers).getD []
      documents := fun k c => (at' k).bind fun b => b.state.listDocuments c }

/-! ### What is known -/

/-- The peers that were answered in the last poll that succeeded. -/
def answeredPeers (polls : List Poll) : List PeerSummary :=
  ((lastSuccess polls).bind fun p => p.peers.toOption).getD []

/-- The documents of a collection that were answered in the last poll that succeeded; of several
requests for one collection the last counts. -/
def answeredDocuments (B : RemoteBroker) (polls : List Poll) (c : String) : Option (List Json) :=
  (lastSuccess polls).bind fun p =>
    B.mapping.collections.zipIdx.reverse.findSome? (available p.documents c)

section Known

variable {B : RemoteBroker}

/-- A snapshot has the answers of its poll. -/
theorem answers_of_fetch {p : Poll} {s : Snapshot} (h : B.fetch p = .ok s) :
    p.peers = .ok s.peers ∧ s.documents = collectDocuments p.documents B.mapping.collections := by
  unfold RemoteBroker.fetch at h
  cases hnode : p.node with
  | error e => rw [hnode] at h; cases h
  | ok nodeInfo =>
    cases htopo : p.topology with
    | error e => rw [hnode, htopo] at h; cases h
    | ok topology =>
      cases hpeers : p.peers with
      | error e => rw [hnode, htopo, hpeers] at h; cases h
      | ok peers =>
        rw [hnode, htopo, hpeers] at h
        cases h
        exact ⟨rfl, rfl⟩

/-- **What is known of a broker is what it answered in the last poll that succeeded.** -/
theorem known_run (polls : List Poll) :
    (B.run polls).listPeers = answeredPeers polls ∧
      ∀ c, (B.run polls).listDocuments c = answeredDocuments B polls c := by
  induction polls using List.reverseRecOn with
  | nil => exact ⟨rfl, fun _ => rfl⟩
  | append_singleton polls p ih =>
    unfold answeredPeers answeredDocuments
    rw [lastSuccess_append]
    rcases fetch_cases B p with ⟨s, hs, hsucc, -⟩ | ⟨-, hfails⟩
    · have hstate : (B.run (polls ++ [p])).snapshot = s := by
        rw [run_append]
        simp only [RemoteBroker.poll, RemoteBroker.refreshOnce, hs]
      obtain ⟨hpeers, hdocs⟩ := answers_of_fetch hs
      rw [if_pos hsucc]
      constructor
      · simp [RemoteBrokerState.listPeers, hstate, hpeers, Except.toOption]
      · intro c
        rw [RemoteBrokerState.listDocuments, hstate, hdocs, select_collectDocuments]
        rfl
    · -- an error leaves the peers and the documents as they were
      obtain ⟨err, herr⟩ := run_of_fails B polls hfails
      rw [herr, if_neg (by simp [hfails])]
      exact ih

end Known

namespace MeshIngest

variable (hasher : Hasher) (cdcEngine : Bool)

/-! ### Registration -/

/-- A formation has a broker of its own. -/
def Owned (m : MeshIngest) : Prop :=
  ∀ orgId appId n, m.registry.get orgId appId = some n →
    ∃ b, m.brokers[n]? = some b ∧ b.broker.mapping.orgId = orgId ∧ b.broker.mapping.appId = appId

/-- A broker stays what it is, and where it is. -/
theorem broker_move {m : MeshIngest} (mv : MeshMove) {n : ℕ} {B : RemoteBroker}
    (h : m.brokers[n]?.map PolledBroker.broker = some B) :
    (m.move hasher cdcEngine mv).brokers[n]?.map PolledBroker.broker = some B := by
  cases mv with
  | connect mapping =>
    have hn : n < m.brokers.length := by
      by_contra hge
      rw [List.getElem?_eq_none (by omega)] at h
      cases h
    show (m.brokers ++ _)[n]?.map PolledBroker.broker = some B
    rw [List.getElem?_append_left hn]
    exact h
  | register k =>
    simp only [move]
    split <;> exact h
  | deregister orgId appId => exact h
  | poll k p =>
    simp only [move, List.getElem?_modify]
    cases hb : m.brokers[n]? with
    | none =>
      rw [hb] at h
      cases h
    | some b =>
      rw [hb] at h
      by_cases hkn : k = n
      · simpa [hkn] using h
      · simpa [hkn] using h

/-- One move keeps the registry in order. -/
theorem owned_move {m : MeshIngest} (hm : m.Owned) (mv : MeshMove) :
    (m.move hasher cdcEngine mv).Owned := by
  have hstays : ∀ {orgId appId n}, m.registry.get orgId appId = some n →
      ∃ b, (m.move hasher cdcEngine mv).brokers[n]? = some b ∧
        b.broker.mapping.orgId = orgId ∧ b.broker.mapping.appId = appId := by
    intro orgId appId n hn
    obtain ⟨b, hb, horg, happ⟩ := hm orgId appId n hn
    have hbroker : m.brokers[n]?.map PolledBroker.broker = some b.broker := by
      rw [hb]
      rfl
    obtain ⟨b', hb', hsame⟩ := Option.map_eq_some_iff.mp (broker_move hasher cdcEngine mv hbroker)
    exact ⟨b', hb', by rw [hsame]; exact horg, by rw [hsame]; exact happ⟩
  intro orgId appId n hn
  cases mv with
  | connect mapping => exact hstays hn
  | register k =>
    simp only [move] at hn ⊢
    split at hn
    · next b hb =>
      simp only [MeshStateRegistry.get, MeshStateRegistry.register] at hn
      split at hn
      · next heq =>
        obtain ⟨horg, happ⟩ := Prod.mk.inj heq
        obtain rfl := Option.some.inj hn
        exact ⟨b, hb, horg.symm, happ.symm⟩
      · exact hm orgId appId n hn
    · exact hm orgId appId n hn
  | deregister o a =>
    simp only [move, MeshStateRegistry.get, MeshStateRegistry.deregister] at hn
    split at hn
    · cases hn
    · exact hm orgId appId n hn
  | poll k p => exact hstays hn

/-- **A formation is shown a broker of its own.** -/
theorem owned_moves (l : List MeshMove) : (moves hasher cdcEngine l).Owned := by
  induction l using List.reverseRecOn with
  | nil =>
    intro orgId appId n hn
    cases hn
  | append_singleton l mv ih =>
    rw [moves, List.foldl_append]
    exact owned_move hasher cdcEngine ih mv

/-- A broker stays what it is while moves go on. -/
theorem broker_moves {l : List MeshMove} {t j : ℕ} (hj : t ≤ j) {n : ℕ} {B : RemoteBroker}
    (h : (moves hasher cdcEngine (l.take t)).brokers[n]?.map PolledBroker.broker = some B) :
    (moves hasher cdcEngine (l.take j)).brokers[n]?.map PolledBroker.broker = some B := by
  have hsplit : l.take j = l.take t ++ (l.take j).drop t := by
    have hboth := List.take_append_drop t (l.take j)
    rw [List.take_take, Nat.min_eq_left hj] at hboth
    exact hboth.symm
  rw [hsplit]
  generalize (l.take j).drop t = later
  induction later using List.reverseRecOn with
  | nil => rwa [List.append_nil]
  | append_singleton later mv ih =>
    rw [moves, ← List.append_assoc, List.foldl_append]
    exact broker_move hasher cdcEngine mv ih

end MeshIngest

/-- **What is seen of a formation** is what its broker answered in the last polls that had succeeded
then. -/
theorem seen_of_registered {hasher : Hasher} {cdcEngine : Bool} {l : List MeshMove} {t : ℕ}
    {reading : ℕ → ℕ} (hreading : ∀ k, t ≤ reading k) {orgId appId : String} {n : ℕ}
    (hn : (MeshIngest.moves hasher cdcEngine (l.take t)).registry.get orgId appId = some n) :
    ∃ B : RemoteBroker, B.mapping.orgId = orgId ∧ B.mapping.appId = appId ∧
      (MeshIngest.moves hasher cdcEngine (l.take t)).brokers[n]?.map PolledBroker.broker = some B ∧
      let polls := fun k => (MeshIngest.moves hasher cdcEngine (l.take (reading k))).pollsOf n
      (seen hasher cdcEngine l t reading).get orgId appId =
        some ⟨answeredPeers (polls 0), fun k c => answeredDocuments B (polls k) c⟩ := by
  obtain ⟨b, hb, horg, happ⟩ := MeshIngest.owned_moves hasher cdcEngine (l.take t) orgId appId n hn
  have hbroker : (MeshIngest.moves hasher cdcEngine (l.take t)).brokers[n]?.map
      PolledBroker.broker = some b.broker := by
    rw [hb]
    rfl
  refine ⟨b.broker, horg, happ, hbroker, ?_⟩
  have hat : ∀ k, (MeshIngest.moves hasher cdcEngine (l.take (reading k))).brokers[n]? =
      some ⟨b.broker, (MeshIngest.moves hasher cdcEngine (l.take (reading k))).pollsOf n⟩ := by
    intro k
    obtain ⟨b', hb', hsame⟩ := Option.map_eq_some_iff.mp
      (MeshIngest.broker_moves hasher cdcEngine (hreading k) hbroker)
    rw [MeshIngest.pollsOf, hb', ← hsame]
    rfl
  have hregistered : (MeshIngest.moves hasher cdcEngine (l.take t)).registry (orgId, appId) =
      some n := hn
  simp only [MeshStateRegistry.get, seen, hregistered, Option.map_some, hat, PolledBroker.state,
    (known_run _).1, Option.getD_some, Option.bind_some, (known_run _).2]

/-! ### Responses -/

/-- Whatever the store answers: if the response is a success, this is its payload. -/
def Shows {G : Type} (gw : Gateway G) (env : Surroundings) (req : ApiRequest) (payload : Payload) :
    Prop :=
  (serve gw env req).Meets anySpec fun r => r.status = .ok → r.payload = payload

section Shows

variable {G : Type} {gw : Gateway G} {env : Surroundings} {req : ApiRequest}

/-- A request for an admin route that is answered in one way only. -/
theorem shows_of_decides {e : Endpoint} {r : AdminRequest} {payload : Payload}
    (hroute : route req.path = some e) (he : e.isPublic = false) (hmethod : req.method = .get)
    (hr : req.extract e = .ok r)
    (h : Decides anySpec (answer gw env r) fun resp => resp.payload = payload) :
    Shows gw env req payload :=
  serve_of_decides (Q := fun shown => shown = payload) hroute he hmethod hr h

variable {so sa orgId appId : String}

/-- A handler that shows something of the broker of a formation. -/
theorem decides_shown {α : Type} (mesh : MeshStateRegistry BrokerView) (f : BrokerView → List α) :
    Decides anySpec (do
      let _ ← Reply.orElse (TenantManager.getFormation orgId appId) (refusal .notFound)
      match mesh.get orgId appId with
      | none => return []
      | some broker => return f broker) fun l => l = (mesh.get orgId appId).elim [] f := by
  have hformation := Prog.meets_of_pre (Φ := anySpec) (fun _ => trivial)
    (TenantManager.getFormation orgId appId)
  refine decides_bind ((decides_orElse hformation (by decide)).mono fun _ _ => ?_)
  cases mesh.get orgId appId with
  | none => exact decides_pure rfl
  | some broker => exact decides_pure rfl

variable (gw env)

/-- The response to a request for the peers of a formation. -/
theorem shows_peers (ho : pathParam so = .ok orgId) (ha : pathParam sa = .ok appId)
    (hroute : route req.path = some (.peers so sa)) (hmethod : req.method = .get) :
    Shows gw env req (jsonList PeerInfo.write ((env.mesh.get orgId appId).elim []
      fun broker => broker.peers.map (peerInfo appId env.now))) := by
  have hr : req.extract (.peers so sa) = .ok (.listPeers orgId appId) := by
    simp only [ApiRequest.extract, hmethod, ho, ha]
    rfl
  have hlist : Decides anySpec (listPeers env.mesh env.now orgId appId) fun l =>
      l = (env.mesh.get orgId appId).elim [] fun broker =>
        broker.peers.map (peerInfo appId env.now) := decides_shown env.mesh _
  refine shows_of_decides hroute rfl hmethod hr (decides_bind (hlist.mono ?_))
  intro l hl
  exact decides_pure (by rw [hl])

/-- The response to a request for the documents of a formation. -/
theorem shows_documents (ho : pathParam so = .ok orgId) (ha : pathParam sa = .ok appId)
    (hroute : route req.path = some (.documents so sa)) (hmethod : req.method = .get) :
    Shows gw env req (jsonList DocumentSummary.write ((env.mesh.get orgId appId).elim []
      fun broker => (shownDocuments broker appId).map documentSummary)) := by
  have hr : req.extract (.documents so sa) = .ok (.listDocuments orgId appId) := by
    simp only [ApiRequest.extract, hmethod, ho, ha]
    rfl
  have hlist : Decides anySpec (listDocuments env.mesh orgId appId) fun l =>
      l = (env.mesh.get orgId appId).elim [] fun broker =>
        (shownDocuments broker appId).map documentSummary := decides_shown env.mesh _
  refine shows_of_decides hroute rfl hmethod hr (decides_bind (hlist.mono ?_))
  intro l hl
  exact decides_pure (by rw [hl])

end Shows

/-- **What is shown of a mesh is what its broker answered.**  A request looks up the broker of its
formation after `t` moves and reads it later, while brokers go on being connected to, registered and
polled, with success or not.  Whatever the store answers: a formation without a broker is shown
without peers and documents; else the broker that is registered for it is one of its own, and the
peers, and the documents of each collection, are those that this broker answered in the last poll
that had succeeded when they were read. -/
theorem mesh_shown {G : Type} (gw : Gateway G) {env : Surroundings} {hasher : Hasher}
    {cdcEngine : Bool} {l : List MeshMove} {t : ℕ} {reading : ℕ → ℕ}
    (hmesh : env.mesh = seen hasher cdcEngine l t reading) (hreading : ∀ k, t ≤ reading k)
    {so sa orgId appId : String} (ho : pathParam so = .ok orgId) (ha : pathParam sa = .ok appId) :
    let now := MeshIngest.moves hasher cdcEngine (l.take t)
    let polls := fun n k => (MeshIngest.moves hasher cdcEngine (l.take (reading k))).pollsOf n
    let showsPeers := fun peers => ∀ req, route req.path = some (.peers so sa) → req.method = .get →
      Shows gw env req (jsonList PeerInfo.write peers)
    let showsDocuments := fun docs => ∀ req, route req.path = some (.documents so sa) →
      req.method = .get → Shows gw env req (jsonList DocumentSummary.write docs)
    (now.registry.get orgId appId = none → showsPeers [] ∧ showsDocuments []) ∧
    ∀ n, now.registry.get orgId appId = some n →
      ∃ B, now.brokers[n]?.map PolledBroker.broker = some B ∧ B.mapping.orgId = orgId ∧
        B.mapping.appId = appId ∧
        showsPeers ((answeredPeers (polls n 0)).map (peerInfo appId env.now)) ∧
        showsDocuments ((shownDocuments ⟨[], fun k c => answeredDocuments B (polls n k) c⟩
          appId).map documentSummary) := by
  constructor
  · intro hnone
    have hget : env.mesh.get orgId appId = none := by
      rw [hmesh, MeshStateRegistry.get, seen]
      exact Option.map_eq_none_iff.mpr hnone
    constructor
    · intro req hroute hmethod
      have hshows := shows_peers gw env ho ha hroute hmethod
      rwa [hget] at hshows
    · intro req hroute hmethod
      have hshows := shows_documents gw env ho ha hroute hmethod
      rwa [hget] at hshows
  · intro n hn
    obtain ⟨B, horg, happ, hB, hseen⟩ := seen_of_registered hreading hn
    have hget := hseen
    rw [← hmesh] at hget
    refine ⟨B, hB, horg, happ, ?_, ?_⟩
    · intro req hroute hmethod
      have hshows := shows_peers gw env ho ha hroute hmethod
      rwa [hget] at hshows
    · intro req hroute hmethod
      have hshows := shows_documents gw env ho ha hroute hmethod
      rwa [hget] at hshows

/-! ### A broker to look at -/

/-- A poll that finds one peer and one document, in the first of two collections. -/
def firstPoll : Poll where
  node := .ok ⟨"node-1", 60, "1.0.0"⟩
  topology := .ok ⟨1, "leader", 0⟩
  ready := .error "connection reset"
  peers := .ok [⟨"peer-1", true, "active", none⟩]
  documents i :=
    if i = 0 then .ok [.object [("_id", .string "doc-1")]] else .error "404 Not Found"
  now := 1000

/-- A poll that fails. -/
def failedPoll : Poll := { firstPoll with node := .error "connection refused" }

/-- A broker is registered and polled twice. -/
def polledTwice : List MeshMove :=
  [.connect ⟨"acme", "logistics", "http://broker:8081", ["contacts", "markers"]⟩, .register 0,
    .poll 0 firstPoll, .poll 0 failedPoll]

/-- What a request sees that finds the broker before the polls and reads it after them. -/
def polledSurroundings : Surroundings :=
  { quietSurroundings with mesh := seen (fun _ => 0) true polledTwice 2 fun _ => 4 }

/-- The peer and the document of the first poll are shown. -/
theorem mesh_shown_polled :
    Shows seedGateway polledSurroundings
        ⟨.get, ["orgs", "acme", "formations", "logistics", "peers"], [], adminHeaders, .notJson⟩
        (jsonList PeerInfo.write [⟨"peer-1", "logistics", .connected, 1⟩]) ∧
      Shows seedGateway polledSurroundings
        ⟨.get, ["orgs", "acme", "formations", "logistics", "documents"], [], adminHeaders, .notJson⟩
        (jsonList DocumentSummary.write [⟨"doc-1", 2, 0⟩]) := by
  have hmesh : polledSurroundings.mesh = seen (fun _ => 0) true polledTwice 2 fun _ => 4 := rfl
  have hreading : ∀ k : ℕ, 2 ≤ (fun _ : ℕ => 4) k := by
    intro k
    show 2 ≤ 4
    omega
  have ho : pathParam "acme" = .ok "acme" := by decide +kernel
  have ha : pathParam "logistics" = .ok "logistics" := by decide +kernel
  obtain ⟨-, hshown⟩ := mesh_shown seedGateway hmesh hreading ho ha
  obtain ⟨B, hB, -, -, hpeers, hdocs⟩ := hshown 0 rfl
  obtain rfl := Option.some.inj hB
  exact ⟨hpeers _ rfl rfl, hdocs _ rfl rfl⟩

end PeatGateway
