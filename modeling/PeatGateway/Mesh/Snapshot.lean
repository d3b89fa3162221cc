import Mathlib.Data.Finset.Basic
import PeatGateway.Mesh.Ingest

/-!
# Snapshots are taken as a whole

What is known of a mesh is what a broker said in one poll, the last one that succeeded.  A
poll that fails tells nobody anything.  Who follows the events about peers knows the peers.

## Main definitions

* `Poll.succeeds`, `lastSuccess` — the polls that make a snapshot.
* `Snapshot.TakenFrom` — a snapshot is made of the answers of a poll.
* `foldPeers` — the peers as told by the events.

## Main results

* `fetch_cases` — what a poll makes of its answers.
* `foldPeers_peerEvents` — **the events about peers lead from the old peers to the new**.
* `run_consistent` — **in every state the snapshot is that of the last poll that succeeded**,
  and the peers are those that the events tell of.
-/

namespace PeatGateway

/-! ### Polls that succeed -/

/-- The requests without which there is no snapshot succeed. -/
def Poll.succeeds (p : Poll) : Bool :=
  match p.node, p.topology, p.peers with
  | .ok _, .ok _, .ok _ => true
  | _, _, _ => false

/-- The last poll that succeeded. -/
def lastSuccess (polls : List Poll) : Option Poll := (polls.filter Poll.succeeds).getLast?

/-- The snapshot is made of the answers of the poll. -/
structure Snapshot.TakenFrom (B : RemoteBroker) (p : Poll) (s : Snapshot) : Prop where
  nodeInfo : p.node = .ok s.nodeInfo
  topology : p.topology = .ok s.topology
  peers : p.peers = .ok s.peers
  /-- The collections are those whose request succeeded. -/
  collections : ∀ c, (s.documents.select c).isSome = true ↔
    ∃ i docs, B.mapping.collections[i]? = some c ∧ p.documents i = .ok docs
  /-- The documents are those that were answered. -/
  documents : ∀ c docs, s.documents.select c = some docs →
    ∃ i : ℕ, B.mapping.collections[i]? = some c ∧ p.documents i = .ok docs

/-- Nothing is known of the mesh yet. -/
def Snapshot.Pending (B : RemoteBroker) (s : Snapshot) : Prop :=
  s.nodeInfo = B.init.snapshot.nodeInfo ∧ s.topology = B.init.snapshot.topology ∧
    s.peers = [] ∧ ∀ c, s.documents.select c = none

/-! ### The documents of a poll -/

/-- The documents a request for the collection was answered with. -/
def available (answers : ℕ → Except Error (List Json)) (c : String) (x : String × ℕ) :
    Option (List Json) :=
  if x.1 = c then (answers x.2).toOption else none

theorem available_eq_some {answers : ℕ → Except Error (List Json)} {c : String} {x : String × ℕ}
    {docs : List Json} : available answers c x = some docs ↔ x.1 = c ∧ answers x.2 = .ok docs := by
  unfold available
  split
  · next heq => cases answers x.2 <;> simp [Except.toOption, heq]
  · next hne => simp [hne]

/-- The loop over the collections: the last answer for each counts. -/
theorem select_foldl (answers : ℕ → Except Error (List Json)) (c : String)
    (l : List (String × ℕ)) (documents : Documents) :
    (l.foldl (keepAnswer answers) documents).select c =
      (l.reverse.findSome? (available answers c)).or (documents.select c) := by
  induction l generalizing documents with
  | nil => rfl
  | cons x l ih =>
    rw [List.foldl_cons, ih, List.reverse_cons, List.findSome?_append, Option.or_assoc,
      List.findSome?_singleton]
    congr 1
    unfold available keepAnswer
    cases answers x.2 with
    | error e => simp [Except.toOption]
    | ok docs =>
      rw [Rows.select_upsert]
      split <;> simp [Except.toOption]

theorem select_collectDocuments (answers : ℕ → Except Error (List Json)) (collections : List String)
    (c : String) : (collectDocuments answers collections).select c =
      collections.zipIdx.reverse.findSome? (available answers c) := by
  rw [collectDocuments, select_foldl]
  exact Option.or_none

/-- The documents that are found were answered. -/
theorem of_select_collectDocuments {answers : ℕ → Except Error (List Json)}
    {collections : List String} {c : String} {docs : List Json}
    (h : (collectDocuments answers collections).select c = some docs) :
    ∃ i : ℕ, collections[i]? = some c ∧ answers i = .ok docs := by
  rw [select_collectDocuments] at h
  obtain ⟨⟨c', i⟩, hmem, hx⟩ := List.exists_of_findSome?_eq_some h
  obtain ⟨rfl, hok⟩ := available_eq_some.mp hx
  exact ⟨i, List.mem_zipIdx_iff_getElem?.mp (List.mem_reverse.mp hmem), hok⟩

/-- The collections that are found are those whose request succeeded. -/
theorem isSome_select_collectDocuments {answers : ℕ → Except Error (List Json)}
    {collections : List String} {c : String} :
    ((collectDocuments answers collections).select c).isSome = true ↔
      ∃ i docs, collections[i]? = some c ∧ answers i = .ok docs := by
  constructor
  · intro h
    obtain ⟨docs, hdocs⟩ := Option.isSome_iff_exists.mp h
    obtain ⟨i, hi, hok⟩ := of_select_collectDocuments hdocs
    exact ⟨i, docs, hi, hok⟩
  · rintro ⟨i, docs, hi, hok⟩
    rw [select_collectDocuments, List.findSome?_isSome_iff]
    refine ⟨(c, i), List.mem_reverse.mpr (List.mem_zipIdx_iff_getElem?.mpr hi), ?_⟩
    exact Option.isSome_of_eq_some (available_eq_some.mpr ⟨rfl, hok⟩)

/-! ### One poll -/

section Poll

/-- **What a poll makes of its answers.** -/
theorem fetch_cases (B : RemoteBroker) (p : Poll) :
    (∃ s, B.fetch p = .ok s ∧ p.succeeds = true ∧ s.TakenFrom B p ∧
      (s.readiness.ready = true → ∃ r, p.ready = .ok r ∧ r.ready = true)) ∨
    (∃ err, B.fetch p = .error err) ∧ p.succeeds = false := by
  cases hnode : p.node with
  | error e => exact Or.inr ⟨⟨e, by rw [RemoteBroker.fetch, hnode]; rfl⟩,
      by rw [Poll.succeeds, hnode]⟩
  | ok nodeInfo =>
    cases htopo : p.topology with
    | error e => exact Or.inr ⟨⟨e, by rw [RemoteBroker.fetch, hnode, htopo]; rfl⟩,
        by rw [Poll.succeeds, hnode, htopo]⟩
    | ok topology =>
      cases hpeers : p.peers with
      | error e => exact Or.inr ⟨⟨e, by rw [RemoteBroker.fetch, hnode, htopo, hpeers]; rfl⟩,
          by rw [Poll.succeeds, hnode, htopo, hpeers]⟩
      | ok peers =>
        refine Or.inl ⟨_, by rw [RemoteBroker.fetch, hnode, htopo, hpeers]; rfl,
          by rw [Poll.succeeds, hnode, htopo, hpeers], ?_, ?_⟩
        · exact ⟨hnode, htopo, hpeers, fun c => isSome_select_collectDocuments,
            fun c docs h => of_select_collectDocuments h⟩
        · cases p.ready with
          | ok r => exact fun h => ⟨r, rfl, h⟩
          | error e => exact nofun

end Poll

/-! ### Peers -/

/-- The peers after an event.  A peer that connects is not there, and one that disconnects is. -/
def applyPeerEvent (ids : Finset String) : MeshEvent → Option (Finset String)
  | .peerConnected id => if id ∈ ids then none else some (insert id ids)
  | .peerDisconnected id _ => if id ∈ ids then some (ids.erase id) else none
  | .topologyChanged _ _ => some ids
  | .syncEvent _ _ _ => some ids

/-- The peers as told by the events. -/
def foldPeers (ids : Finset String) (events : List MeshEvent) : Option (Finset String) :=
  events.foldlM applyPeerEvent ids

theorem foldPeers_append (ids : Finset String) (l l' : List MeshEvent) :
    foldPeers ids (l ++ l') = (foldPeers ids l).bind fun ids' => foldPeers ids' l' :=
  List.foldlM_append

theorem foldPeers_connected {l : List String} (hl : l.Nodup) {ids : Finset String}
    (h : ∀ id ∈ l, id ∉ ids) :
    foldPeers ids (l.map .peerConnected) = some (ids ∪ l.toFinset) := by
  induction l generalizing ids with
  | nil => simp [foldPeers]
  | cons x l ih =>
    obtain ⟨hx, hl⟩ := List.nodup_cons.mp hl
    have hstep : ∀ id ∈ l, id ∉ insert x ids := by
      intro id hid hmem
      rcases Finset.mem_insert.mp hmem with rfl | hmem
      · exact hx hid
      · exact h id (List.mem_cons_of_mem _ hid) hmem
    rw [List.map_cons, foldPeers, List.foldlM_cons, applyPeerEvent, if_neg (h x List.mem_cons_self)]
    refine (ih hl hstep).trans (congrArg some (Finset.ext ?_))
    intro id
    simp only [List.toFinset_cons, Finset.mem_union, Finset.mem_insert]
    tauto

theorem foldPeers_disconnected {l : List String} (hl : l.Nodup) {ids : Finset String}
    (h : ∀ id ∈ l, id ∈ ids) (reason : String) :
    foldPeers ids (l.map fun id => .peerDisconnected id reason) = some (ids \ l.toFinset) := by
  induction l generalizing ids with
  | nil => simp [foldPeers]
  | cons x l ih =>
    obtain ⟨hx, hl⟩ := List.nodup_cons.mp hl
    have hstep : ∀ id ∈ l, id ∈ ids.erase x := by
      intro id hid
      refine Finset.mem_erase.mpr ⟨?_, h id (List.mem_cons_of_mem _ hid)⟩
      rintro rfl
      exact hx hid
    rw [List.map_cons, foldPeers, List.foldlM_cons, applyPeerEvent, if_pos (h x List.mem_cons_self)]
    apply (ih hl hstep).trans
    rw [List.toFinset_cons, Finset.sdiff_insert, Finset.erase_sdiff_comm]

/-- Events about other things. -/
theorem foldPeers_of_forall {l : List MeshEvent} {ids : Finset String}
    (h : ∀ e ∈ l, applyPeerEvent ids e = some ids) : foldPeers ids l = some ids := by
  induction l with
  | nil => rfl
  | cons e l ih =>
    rw [foldPeers, List.foldlM_cons, h e List.mem_cons_self]
    exact ih fun e he => h e (List.mem_cons_of_mem _ he)

/-- **The events about peers lead from the old peers to the new.** -/
theorem foldPeers_peerEvents (orders : Orders) (old new : List PeerSummary) :
    foldPeers (peerIds old).toFinset (peerEvents orders old new) =
      some (peerIds new).toFinset := by
  have hnew := orders.newPeers.perm (peerIds new)
  have hold := orders.oldPeers.perm (peerIds old)
  rw [peerEvents, foldPeers_append, foldPeers_connected, Option.bind_some, foldPeers_disconnected]
  · refine congrArg some (Finset.ext ?_)
    intro id
    simp only [Finset.mem_sdiff, Finset.mem_union, List.mem_toFinset, List.mem_filter, hnew.mem_iff,
      hold.mem_iff, decide_eq_true_eq]
    tauto
  · exact (hold.nodup_iff.mpr (List.nodup_dedup _)).filter _
  · intro id hid
    have hid := hold.mem_iff.mp (List.mem_filter.mp hid).1
    exact Finset.mem_union_left _ (List.mem_toFinset.mpr hid)
  · exact (hnew.nodup_iff.mpr (List.nodup_dedup _)).filter _
  · intro id hid
    rw [List.mem_toFinset]
    exact of_decide_eq_true (List.mem_filter.mp hid).2

/-- **The events of a poll lead from the old peers to the new.** -/
theorem foldPeers_emitDiffs (orders : Orders) (old new : Snapshot) :
    foldPeers (peerIds old.peers).toFinset (emitDiffs orders old new) =
      some (peerIds new.peers).toFinset := by
  rw [emitDiffs, List.append_assoc, foldPeers_append, foldPeers_peerEvents, Option.bind_some]
  apply foldPeers_of_forall
  intro e he
  rcases List.mem_append.mp he with he | he
  · unfold topologyEvents at he
    split at he
    · rw [List.mem_singleton.mp he]
      rfl
    · cases he
  · obtain ⟨c, -, he⟩ := List.mem_flatMap.mp he
    obtain ⟨id, -, rfl⟩ := List.mem_map.mp he
    rfl

/-! ### Runs -/

section Run

variable (B : RemoteBroker)

theorem run_append (polls : List Poll) (p : Poll) :
    B.run (polls ++ [p]) = B.poll (B.run polls) p := by
  rw [RemoteBroker.run, List.foldl_append]
  rfl

/-- A poll that succeeds. -/
theorem run_of_succeeds (polls : List Poll) {p : Poll} (h : p.succeeds = true) :
    ∃ s, (B.run (polls ++ [p])).snapshot = s ∧ s.TakenFrom B p ∧
      (s.readiness.ready = true → ∃ r, p.ready = .ok r ∧ r.ready = true) ∧
      (B.run (polls ++ [p])).events =
        (B.run polls).events ++ emitDiffs p.orders (B.run polls).snapshot s := by
  rw [run_append]
  rcases fetch_cases B p with ⟨s, hs, -, htaken, hready⟩ | ⟨-, hfails⟩
  · refine ⟨s, ?_, htaken, hready, ?_⟩ <;>
      simp only [RemoteBroker.poll, RemoteBroker.refreshOnce, hs]
  · rw [h] at hfails
    cases hfails

/-- **A poll that fails tells nobody anything**, and changes the error and the readiness only. -/
theorem run_of_fails (polls : List Poll) {p : Poll} (h : p.succeeds = false) :
    ∃ err, B.run (polls ++ [p]) = (B.run polls).recordError err := by
  rw [run_append]
  rcases fetch_cases B p with ⟨s, -, hsucc, -⟩ | ⟨⟨err, herr⟩, -⟩
  · rw [h] at hsucc
    cases hsucc
  · refine ⟨err, ?_⟩
    simp only [RemoteBroker.poll, RemoteBroker.refreshOnce, herr]

theorem lastSuccess_append (polls : List Poll) (p : Poll) :
    lastSuccess (polls ++ [p]) = if p.succeeds then some p else lastSuccess polls := by
  rw [lastSuccess, List.filter_append]
  cases hp : p.succeeds with
  | true => simp [hp]
  | false => simp [hp, lastSuccess]

/-- The snapshot is that of the last poll that succeeded. -/
theorem run_snapshot (polls : List Poll) :
    match lastSuccess polls with
    | some p => (B.run polls).snapshot.TakenFrom B p
    | none => (B.run polls).snapshot.Pending B := by
  induction polls using List.reverseRecOn with
  | nil => exact ⟨rfl, rfl, rfl, fun _ => rfl⟩
  | append_singleton polls p ih =>
    rw [lastSuccess_append]
    cases hp : p.succeeds with
    | true =>
      obtain ⟨s, hs, htaken, -⟩ := run_of_succeeds B polls hp
      exact hs ▸ htaken
    | false =>
      -- what an error changes is not part of what is taken from a poll
      obtain ⟨err, herr⟩ := run_of_fails B polls hp
      rw [herr]
      change match lastSuccess polls with | some p => _ | none => _
      cases hlast : lastSuccess polls with
      | some q =>
        rw [hlast] at ih
        exact ⟨ih.nodeInfo, ih.topology, ih.peers, ih.collections, ih.documents⟩
      | none =>
        rw [hlast] at ih
        exact ih

/-- The peers are those that the events tell of. -/
theorem run_peers (polls : List Poll) :
    foldPeers ∅ (B.run polls).events = some (peerIds (B.run polls).snapshot.peers).toFinset := by
  induction polls using List.reverseRecOn with
  | nil => rfl
  | append_singleton polls p ih =>
    cases hp : p.succeeds with
    | true =>
      obtain ⟨s, hs, -, -, hevents⟩ := run_of_succeeds B polls hp
      rw [hs, hevents, foldPeers_append, ih]
      exact foldPeers_emitDiffs p.orders _ s
    | false =>
      obtain ⟨err, herr⟩ := run_of_fails B polls hp
      rw [herr]
      exact ih

theorem readiness_ready (st : RemoteBrokerState) :
    st.readiness.ready = st.snapshot.readiness.ready := by
  unfold RemoteBrokerState.readiness
  split <;> rfl

/-- Who is reported ready said so in the last poll. -/
theorem ready_of_run {polls : List Poll} (h : (B.run polls).readiness.ready = true) :
    ∃ before p r, polls = before ++ [p] ∧ p.succeeds = true ∧ p.ready = .ok r ∧ r.ready = true := by
  rw [readiness_ready] at h
  induction polls using List.reverseRecOn with
  | nil => cases h
  | append_singleton polls p ih =>
    cases hp : p.succeeds with
    | true =>
      obtain ⟨s, hs, -, hready, -⟩ := run_of_succeeds B polls hp
      obtain ⟨r, hr, hok⟩ := hready (hs ▸ h)
      exact ⟨polls, p, r, rfl, hp, hr, hok⟩
    | false =>
      obtain ⟨err, herr⟩ := run_of_fails B polls hp
      rw [herr] at h
      cases h

end Run

/-- **In every state the snapshot is that of the last poll that succeeded, and the peers are
those that the events tell of.**  A poll that fails publishes nothing, sends nothing, and changes
the error and the readiness only; the broker is reported ready only if it said so in the last
poll, and that succeeded. -/
theorem run_consistent (B : RemoteBroker) (polls : List Poll) :
    (match lastSuccess polls with
      | some p => (B.run polls).snapshot.TakenFrom B p
      | none => (B.run polls).snapshot.Pending B) ∧
    (∀ p : Poll, p.succeeds = false → ∃ err ready, B.run (polls ++ [p]) =
      { B.run polls with
        snapshot := { (B.run polls).snapshot with lastError := some err, readiness := ready } }) ∧
    ((B.run polls).readiness.ready = true → ∃ before p r, polls = before ++ [p] ∧
      p.succeeds = true ∧ p.ready = .ok r ∧ r.ready = true) ∧
    foldPeers ∅ (B.run polls).events =
      some ((B.run polls).snapshot.peers.map PeerSummary.id).toFinset := by
  refine ⟨run_snapshot B polls, ?_, ready_of_run B, ?_⟩
  · intro p hp
    obtain ⟨err, herr⟩ := run_of_fails B polls hp
    exact ⟨err, _, by rw [herr]; rfl⟩
  · rw [run_peers]
    exact congrArg some (List.toFinset.ext fun _ => List.mem_dedup)

end PeatGateway
