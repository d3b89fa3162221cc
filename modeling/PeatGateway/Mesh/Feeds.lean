import PeatGateway.Mesh.Diffs

/-!
# Two feeds of the same documents

A poll tells subscribers of documents, and hands changes of documents to the change capture.  The
first looks for ids that were not there before, the second for contents.

## Main definitions

* `Snapshot.Lists` — a collection of the snapshot has the document, under this id.
* `Snapshot.IdsDistinct` — no id is used twice within a collection.
* `upserts`, `RemoteBroker.captured` — the documents that subscribers are told of, and those that
  are handed to the change capture.

## Main results

* `mem_upserts` — subscribers are told of the documents whose ids are new.
* `mem_captured` — the change capture is handed those that were not there as they are.
* `upserts_eq_captured_iff` — **the feeds agree exactly if no document has another content than
  before**.
-/

namespace PeatGateway

/-! ### Documents of a snapshot -/

/-- A collection of the snapshot has the document, under this id. -/
def Snapshot.Lists (s : Snapshot) (collection docId : String) (doc : Json) : Prop :=
  ∃ docs, s.documents.select collection = some docs ∧ doc ∈ docs ∧ documentId doc = some docId

/-- No id is used twice within a collection. -/
def Snapshot.IdsDistinct (s : Snapshot) : Prop :=
  ∀ c docs, s.documents.select c = some docs → (docs.filterMap documentId).Nodup

/-- Documents of the two snapshots with different contents have different hashes. -/
def CollisionFreeOn (hasher : Hasher) (old new : Snapshot) : Prop :=
  ∀ c c' docId docId' doc doc', old.Lists c docId doc → new.Lists c' docId' doc' →
    docContentHash hasher doc = docContentHash hasher doc' → doc = doc'

/-- The documents that subscribers are told of. -/
def upserts (orders : Orders) (old new : Snapshot) : Set (String × String) :=
  {x | .syncEvent x.1 x.2 "upsert" ∈ emitDiffs orders old new}

/-- The documents that are handed to the change capture. -/
def RemoteBroker.captured (B : RemoteBroker) (orders : Orders) (old new : Snapshot)
    (timestampMs : UInt64) : Set (String × String) :=
  {x | ∃ change ∈ B.publishCdcDiffs orders old new timestampMs,
    change.collection = x.1 ∧ change.docId = x.2}

section Listed

variable {s : Snapshot} {c docId : String}

theorem mem_docIds {docs : List Json} :
    docId ∈ docIds docs ↔ ∃ doc ∈ docs, documentId doc = some docId := by
  rw [docIds, List.mem_dedup, List.mem_filterMap]

/-- The ids of a collection that may be missing. -/
theorem mem_docIds_getD :
    docId ∈ docIds ((s.documents.select c).getD []) ↔ ∃ doc, s.Lists c docId doc := by
  rw [mem_docIds]
  cases hc : s.documents.select c with
  | none => simp [Snapshot.Lists, hc]
  | some docs => simp [Snapshot.Lists, hc]

/-- Where ids are distinct, a document is found by its id. -/
theorem lastWithId_eq_some_of_nodup {docs : List Json} (h : (docs.filterMap documentId).Nodup)
    {doc : Json} (hdoc : doc ∈ docs) (hid : documentId doc = some docId) :
    lastWithId docs docId = some doc := by
  induction docs using List.reverseRecOn with
  | nil => cases hdoc
  | append_singleton docs d ih =>
    rw [List.filterMap_append, List.nodup_append] at h
    rcases h with ⟨hbefore, -, hapart⟩
    rw [lastWithId, List.reverse_append, List.reverse_singleton, List.singleton_append,
      List.find?_cons]
    rcases List.mem_append.mp hdoc with hdoc | hdoc
    · -- the last document has another id
      have hne : documentId d ≠ some docId := by
        intro hd
        have hmem : docId ∈ docs.filterMap documentId := List.mem_filterMap.mpr ⟨doc, hdoc, hid⟩
        have hmem' : docId ∈ [d].filterMap documentId :=
          List.mem_filterMap.mpr ⟨d, List.mem_singleton_self d, hd⟩
        exact hapart docId hmem docId hmem' rfl
      simp only [hne, decide_false]
      exact ih hbefore hdoc
    · rw [List.mem_singleton.mp hdoc] at hid ⊢
      simp [hid]

theorem lastWithId_getD (h : s.IdsDistinct) {doc : Json} (hdoc : s.Lists c docId doc) :
    lastWithId ((s.documents.select c).getD []) docId = some doc := by
  rcases hdoc with ⟨docs, hdocs, hmem, hid⟩
  rw [hdocs, Option.getD_some]
  exact lastWithId_eq_some_of_nodup (h c docs hdocs) hmem hid

theorem lists_of_lastWithId {doc : Json}
    (h : lastWithId ((s.documents.select c).getD []) docId = some doc) : s.Lists c docId doc := by
  have hid : documentId doc = some docId := by simpa using List.find?_some h
  cases hc : s.documents.select c with
  | none =>
    rw [hc] at h
    cases h
  | some docs =>
    rw [hc] at h
    exact ⟨docs, hc, lastWithId_mem h, hid⟩

end Listed

/-! ### The feeds -/

section Feeds

variable {B : RemoteBroker} {orders orders' : Orders} {old new : Snapshot} {t : UInt64}

/-- No other event tells of a document. -/
theorem syncEvent_mem_emitDiffs {c docId action : String} :
    .syncEvent c docId action ∈ emitDiffs orders old new ↔
      .syncEvent c docId action ∈ syncEvents orders old.documents new.documents := by
  have hpeers : .syncEvent c docId action ∉ peerEvents orders old.peers new.peers := by
    simp [peerEvents]
  have htopology : .syncEvent c docId action ∉ topologyEvents old.topology new.topology := by
    unfold topologyEvents
    split <;> simp
  rw [emitDiffs, List.mem_append, List.mem_append]
  simp [hpeers, htopology]

/-- **Subscribers are told of the documents whose ids are new.** -/
theorem mem_upserts {c docId : String} :
    (c, docId) ∈ upserts orders old new ↔
      (∃ doc, new.Lists c docId doc) ∧ ¬ ∃ doc, old.Lists c docId doc := by
  have hids : ∀ c' docs, docId ∈ (orders.docIds c').order (docIds docs) ↔ docId ∈ docIds docs :=
    fun c' docs => ((orders.docIds c').perm _).mem_iff
  change .syncEvent c docId "upsert" ∈ emitDiffs orders old new ↔ _
  rw [syncEvent_mem_emitDiffs, syncEvents]
  simp only [List.mem_flatMap, (orders.documents.perm _).mem_iff, List.mem_map, List.mem_filter,
    Prod.exists, Rows.mem_rows, MeshEvent.syncEvent.injEq, decide_eq_true_eq]
  constructor
  · intro h
    rcases h with ⟨c', docs, hdocs, id, ⟨hid, hnot⟩, rfl, rfl, -⟩
    rw [mem_docIds_getD] at hnot
    refine ⟨?_, hnot⟩
    rcases mem_docIds.mp ((hids c' docs).mp hid) with ⟨doc, hdoc, hdocId⟩
    exact ⟨doc, docs, hdocs, hdoc, hdocId⟩
  · intro h
    rcases h with ⟨⟨doc, docs, hdocs, hdoc, hdocId⟩, hnot⟩
    have hid := (hids c docs).mpr (mem_docIds.mpr ⟨doc, hdoc, hdocId⟩)
    rw [← mem_docIds_getD] at hnot
    exact ⟨c, docs, hdocs, docId, ⟨hid, hnot⟩, rfl, rfl, trivial⟩

/-- **The change capture is handed the documents that were not there as they are.** -/
theorem mem_captured {c docId : String} :
    (c, docId) ∈ B.captured orders old new t ↔ ∃ doc, new.Lists c docId doc ∧
      (lastWithId ((old.documents.select c).getD []) docId).map (docContentHash B.hasher) ≠
        some (docContentHash B.hasher doc) := by
  change (∃ change ∈ B.publishCdcDiffs orders old new t, _ ∧ _) ↔ _
  rw [RemoteBroker.publishCdcDiffs]
  simp only [List.mem_flatMap, (orders.documents.perm _).mem_iff, List.mem_filterMap,
    change?_eq_some, Prod.exists, Rows.mem_rows]
  constructor
  · intro h
    rcases h with ⟨_, ⟨c', docs, hdocs, doc, hdoc, id, hid, hne, rfl⟩, rfl, rfl⟩
    exact ⟨doc, ⟨docs, hdocs, hdoc, hid⟩, hne⟩
  · intro h
    rcases h with ⟨doc, ⟨docs, hdocs, hdoc, hid⟩, hne⟩
    exact ⟨_, ⟨c, docs, hdocs, doc, hdoc, docId, hid, hne, rfl⟩, rfl, rfl⟩

end Feeds

/-- **The feeds agree exactly if no document has another content than before.**  The documents
that subscribers are told of are those handed to the change capture, if and only if every document
that was in its collection before is there as it was. -/
theorem upserts_eq_captured_iff {B : RemoteBroker} {orders orders' : Orders} {old new : Snapshot}
    {t : UInt64} (hold : old.IdsDistinct) (hfree : CollisionFreeOn B.hasher old new) :
    upserts orders old new = B.captured orders' old new t ↔
      ∀ c docId doc doc', old.Lists c docId doc → new.Lists c docId doc' → doc = doc' := by
  constructor
  · intro h c docId doc doc' hdoc hdoc'
    by_contra hne
    have hcaptured : (c, docId) ∈ B.captured orders' old new t := by
      refine mem_captured.mpr ⟨doc', hdoc', ?_⟩
      rw [lastWithId_getD hold hdoc, Option.map_some]
      intro hhash
      exact hne (hfree c c docId docId doc doc' hdoc hdoc' (Option.some.inj hhash))
    rw [← h] at hcaptured
    exact (mem_upserts.mp hcaptured).2 ⟨doc, hdoc⟩
  · intro h
    apply Set.ext
    rintro ⟨c, docId⟩
    rw [mem_upserts, mem_captured]
    constructor
    · intro hnew
      rcases hnew with ⟨⟨doc, hdoc⟩, hnot⟩
      refine ⟨doc, hdoc, ?_⟩
      cases hlast : lastWithId ((old.documents.select c).getD []) docId with
      | none => simp
      | some doc' => exact absurd ⟨doc', lists_of_lastWithId hlast⟩ hnot
    · intro hchanged
      rcases hchanged with ⟨doc, hdoc, hne⟩
      refine ⟨⟨doc, hdoc⟩, ?_⟩
      intro hbefore
      rcases hbefore with ⟨doc', hdoc'⟩
      -- the document is there as it was, so its hash is known
      rw [lastWithId_getD hold hdoc', h c docId doc' doc hdoc' hdoc] at hne
      exact hne rfl

/-! ### A collection of tracks -/

/-- A snapshot with the collection `tracks`. -/
def trackSnapshot (docs : List Json) : Snapshot :=
  { Snapshot.new "n1" with documents := Rows.empty.upsert "tracks" docs }

theorem select_trackSnapshot (docs : List Json) (c : String) :
    (trackSnapshot docs).documents.select c = if "tracks" = c then some docs else none := by
  rw [trackSnapshot, Rows.select_upsert, Rows.select_empty]

theorem mem_of_lists_trackSnapshot {docs : List Json} {c docId : String} {doc : Json}
    (h : (trackSnapshot docs).Lists c docId doc) : doc ∈ docs := by
  rcases h with ⟨docs', hdocs, hdoc, -⟩
  rw [select_trackSnapshot] at hdocs
  split at hdocs
  · cases hdocs
    exact hdoc
  · cases hdocs

theorem idsDistinct_trackSnapshot {docs : List Json} (h : (docs.filterMap documentId).Nodup) :
    (trackSnapshot docs).IdsDistinct := by
  intro c docs' hdocs
  rw [select_trackSnapshot] at hdocs
  split at hdocs
  · cases hdocs
    exact h
  · cases hdocs

/-- Subscribers and the change capture are told of a track that is new. -/
theorem upserts_eq_captured_new :
    upserts {} (trackSnapshot []) (trackSnapshot [track "1"]) =
      trackBroker.captured {} (trackSnapshot []) (trackSnapshot [track "1"]) 1 := by
  have hnone : ∀ c docId doc, ¬ (trackSnapshot []).Lists c docId doc := by
    intro c docId doc h
    exact nomatch mem_of_lists_trackSnapshot h
  have hempty : (trackSnapshot []).IdsDistinct := idsDistinct_trackSnapshot (by decide)
  refine (upserts_eq_captured_iff hempty ?_).mpr ?_
  · intro c c' docId docId' doc doc' hdoc
    exact absurd hdoc (hnone c docId doc)
  · intro c docId doc doc' hdoc
    exact absurd hdoc (hnone c docId doc)

/-- A track that has changed is handed to the change capture, and subscribers are not told. -/
theorem upserts_ne_captured :
    (trackSnapshot [track "1"]).IdsDistinct ∧ (trackSnapshot [track "2"]).IdsDistinct ∧
      CollisionFreeOn trackBroker.hasher (trackSnapshot [track "1"]) (trackSnapshot [track "2"]) ∧
      upserts {} (trackSnapshot [track "1"]) (trackSnapshot [track "2"]) ≠
        trackBroker.captured {} (trackSnapshot [track "1"]) (trackSnapshot [track "2"]) 1 := by
  have hne : docContentHash trackBroker.hasher (track "1") ≠
      docContentHash trackBroker.hasher (track "2") := by decide +kernel
  refine ⟨idsDistinct_trackSnapshot (by decide), idsDistinct_trackSnapshot (by decide), ?_, ?_⟩
  · intro c c' docId docId' doc doc' hdoc hdoc' hhash
    rw [List.mem_singleton.mp (mem_of_lists_trackSnapshot hdoc),
      List.mem_singleton.mp (mem_of_lists_trackSnapshot hdoc')] at hhash
    exact absurd hhash hne
  · intro h
    have hcaptured : ("tracks", "t1") ∈ trackBroker.captured {} (trackSnapshot [track "1"])
        (trackSnapshot [track "2"]) 1 := by
      refine mem_captured.mpr ⟨track "2", ⟨_, rfl, List.mem_cons_self, rfl⟩, ?_⟩
      intro hhash
      exact hne (Option.some.inj hhash)
    rw [← h] at hcaptured
    exact (mem_upserts.mp hcaptured).2 ⟨track "1", _, rfl, List.mem_cons_self, rfl⟩

end PeatGateway
