import PeatGateway.Mesh.Snapshot

/-!
# When a document is published again

A document is published when the last snapshot did not list it, or listed it with another
content last.  The last snapshot is the one of the last poll that succeeded: a collection that
was not available then is not in it, and all its documents count as new.

## Main definitions

* `RemoteBroker.listing`, `lastListing`, `heldListing` — the documents of a collection in a
  poll, in the last poll that listed the collection, and in the snapshot.
* `RemoteBroker.newChanges` — what a poll publishes.
* `RemoteBroker.NoRepeat` — a poll publishes no document that was listed as it is.
* `RemoteBroker.HeldLast` — the snapshot holds what was listed.

## Main results

* `mem_newChanges` — what a poll publishes.
* `noRepeat_iff` — **what was listed is not published again exactly if the snapshot holds it**.
* `noRepeat_run_iff` — the same of all polls of a run.
* `noRepeat_broken` — a collection that is not available once, and a document that is listed
  twice.
-/

namespace PeatGateway

/-! ### Listings -/

/-- The last document with the id. -/
def lastWithId (docs : List Json) (docId : String) : Option Json :=
  docs.reverse.find? fun d => documentId d = some docId

theorem lastWithId_mem {docs : List Json} {docId : String} {d : Json}
    (h : lastWithId docs docId = some d) : d ∈ docs :=
  List.mem_reverse.mp (List.mem_of_find?_eq_some h)

/-- The hash that is kept for an id is that of the last document. -/
theorem hashById_eq (hasher : Hasher) (docs : List Json) (docId : String) :
    hashById hasher docs docId = (lastWithId docs docId).map (docContentHash hasher) := by
  rw [hashById, lastWithId, ← List.filterMap_reverse]
  induction docs.reverse with
  | nil => rfl
  | cons d l ih =>
    rw [List.filterMap_cons, List.find?_cons]
    cases hid : documentId d with
    | none => simpa using ih
    | some id =>
      rw [Option.map_some, List.lookup_cons]
      by_cases heq : docId = id
      · simp [heq]
      · rw [beq_eq_false_iff_ne.mpr heq]
        simpa [Ne.symm heq] using ih

/-- The document is in an answer. -/
def Occurs (polls : List Poll) (d : Json) : Prop :=
  ∃ p ∈ polls, ∃ i docs, p.documents i = .ok docs ∧ d ∈ docs

namespace RemoteBroker

variable (B : RemoteBroker)

/-- The documents of the collection in a poll, if it succeeded and so did the request. -/
def listing (p : Poll) (c : String) : Option (List Json) :=
  if p.succeeds then (collectDocuments p.documents B.mapping.collections).select c else none

/-- The documents of the collection in the last poll that listed it. -/
def lastListing (polls : List Poll) (c : String) : Option (List Json) :=
  polls.reverse.findSome? fun p => B.listing p c

/-- The documents of the collection in the last poll that succeeded. -/
def heldListing (polls : List Poll) (c : String) : Option (List Json) :=
  (lastSuccess polls).bind fun p => B.listing p c

/-- What a poll publishes after the others. -/
def newChanges (polls : List Poll) (p : Poll) : List Change :=
  (B.run (polls ++ [p])).published.drop (B.run polls).published.length

/-- A poll publishes no document that was listed with this content when its collection was
listed last. -/
def NoRepeat (polls : List Poll) (p : Poll) : Prop :=
  ∀ change ∈ B.newChanges polls p, ∀ old, B.lastListing polls change.collection = some old →
    ∀ d ∈ old, documentId d = some change.docId → d ≠ change.event.patches

/-- A document that was listed with this content when its collection was listed last was so in
the last poll that succeeded, and no other document with its id came after it. -/
def HeldLast (polls : List Poll) (p : Poll) : Prop :=
  ∀ c docs old, B.listing p c = some docs → B.lastListing polls c = some old →
    ∀ d ∈ docs, d ∈ old → ∀ docId, documentId d = some docId →
      B.heldListing polls c = some old ∧ lastWithId old docId = some d

/-- Documents with different contents have different hashes. -/
def CollisionFree (polls : List Poll) : Prop :=
  ∀ d d', Occurs polls d → Occurs polls d' →
    docContentHash B.hasher d = docContentHash B.hasher d' → d = d'

end RemoteBroker

/-! ### What is held and what is published -/

section Changes

variable {B : RemoteBroker} {polls : List Poll} {p : Poll}

theorem fetch_of_succeeds (h : p.succeeds = true) :
    ∃ s, B.fetch p = .ok s ∧ s.documents = collectDocuments p.documents B.mapping.collections := by
  unfold Poll.succeeds at h
  split at h
  · next nodeInfo topology peers hnode htopo hpeers =>
    refine ⟨_, by rw [RemoteBroker.fetch, hnode, htopo, hpeers]; rfl, rfl⟩
  · cases h

/-- The snapshot holds the documents of the last poll that succeeded. -/
theorem select_run (c : String) :
    (B.run polls).snapshot.documents.select c = B.heldListing polls c := by
  induction polls using List.reverseRecOn with
  | nil => rfl
  | append_singleton polls p ih =>
    rw [RemoteBroker.heldListing, lastSuccess_append]
    cases hp : p.succeeds with
    | true =>
      obtain ⟨s, hs, hdocs⟩ := fetch_of_succeeds (B := B) hp
      simp only [run_append, RemoteBroker.poll, RemoteBroker.refreshOnce, hs, hdocs, if_true,
        Option.bind_some, RemoteBroker.listing, hp]
    | false =>
      obtain ⟨err, herr⟩ := run_of_fails B polls hp
      rw [herr]
      exact ih

/-- What is held was listed last. -/
theorem lastListing_of_held {c : String} {old : List Json}
    (h : B.heldListing polls c = some old) : B.lastListing polls c = some old := by
  induction polls using List.reverseRecOn with
  | nil => cases h
  | append_singleton polls p ih =>
    rw [RemoteBroker.heldListing, lastSuccess_append] at h
    rw [RemoteBroker.lastListing, List.reverse_append, List.reverse_singleton,
      List.singleton_append, List.findSome?_cons]
    cases hp : p.succeeds with
    | true =>
      rw [hp] at h
      have hlist : B.listing p c = some old := h
      rw [hlist]
    | false =>
      -- a poll that fails lists nothing
      have hnone : B.listing p c = none := by rw [RemoteBroker.listing, hp]; rfl
      rw [hp] at h
      rw [hnone]
      exact ih h

theorem published_append (polls : List Poll) (p : Poll) :
    (B.run (polls ++ [p])).published = (B.run polls).published ++ B.newChanges polls p := by
  have hprefix : (B.run polls).published <+: (B.run (polls ++ [p])).published := by
    rw [run_append, RemoteBroker.poll, RemoteBroker.refreshOnce]
    cases B.fetch p with
    | error err => exact List.prefix_rfl
    | ok new =>
      dsimp only
      split
      · exact List.prefix_append _ _
      · exact List.prefix_rfl
  obtain ⟨news, hnews⟩ := hprefix
  rw [RemoteBroker.newChanges, ← hnews, List.drop_left]

theorem change?_eq_some {c : String} {old : List Json} {t : UInt64} {doc : Json}
    {change : Change} : B.change? c old t doc = some change ↔ ∃ docId,
      documentId doc = some docId ∧
      (lastWithId old docId).map (docContentHash B.hasher) ≠ some (docContentHash B.hasher doc) ∧
      change = ⟨c, docId, B.changeEvent c docId doc t⟩ := by
  unfold RemoteBroker.change?
  cases documentId doc with
  | none => simp
  | some docId =>
    dsimp only
    rw [hashById_eq]
    split
    · next hsame =>
      refine iff_of_false nofun ?_
      rintro ⟨docId', hid, hne, -⟩
      obtain rfl := Option.some.inj hid
      exact hne hsame
    · next hne =>
      constructor
      · intro h
        exact ⟨docId, rfl, hne, (Option.some.inj h).symm⟩
      · rintro ⟨docId', hid, -, rfl⟩
        rw [Option.some.inj hid]

/-- A poll that fails publishes nothing. -/
theorem newChanges_of_fails (h : p.succeeds = false) : B.newChanges polls p = [] := by
  obtain ⟨err, herr⟩ := run_of_fails B polls h
  rw [RemoteBroker.newChanges, herr]
  exact List.drop_length

/-- What a poll that succeeds publishes. -/
theorem newChanges_of_succeeds (hcdc : B.cdcEngine = true) (h : p.succeeds = true) :
    B.newChanges polls p =
      (p.orders.documents.order
        (collectDocuments p.documents B.mapping.collections).rows).flatMap fun c =>
          c.2.filterMap (B.change? c.1 ((B.heldListing polls c.1).getD []) p.now) := by
  obtain ⟨s, hs, hdocs⟩ := fetch_of_succeeds (B := B) h
  refine List.append_cancel_left ((published_append polls p).symm.trans ?_)
  rw [run_append]
  simp only [RemoteBroker.poll, RemoteBroker.refreshOnce, hs, hcdc, if_true,
    RemoteBroker.publishCdcDiffs, hdocs, select_run]

/-- **What a poll publishes.** -/
theorem mem_newChanges (hcdc : B.cdcEngine = true) {change : Change} :
    change ∈ B.newChanges polls p ↔ ∃ docs, B.listing p change.collection = some docs ∧
      ∃ doc ∈ docs, documentId doc = some change.docId ∧
        (lastWithId ((B.heldListing polls change.collection).getD []) change.docId).map
          (docContentHash B.hasher) ≠ some (docContentHash B.hasher doc) ∧
        change.event = B.changeEvent change.collection change.docId doc p.now := by
  cases hp : p.succeeds with
  | false =>
    rw [newChanges_of_fails hp]
    apply iff_of_false List.not_mem_nil
    rintro ⟨docs, hdocs, -⟩
    rw [RemoteBroker.listing, hp] at hdocs
    cases hdocs
  | true =>
    rw [newChanges_of_succeeds hcdc hp]
    simp only [List.mem_flatMap, (p.orders.documents.perm _).mem_iff, List.mem_filterMap,
      change?_eq_some, Prod.exists, Rows.mem_rows]
    constructor
    · rintro ⟨c, docs, hlist, doc, hdoc, docId, hid, hne, rfl⟩
      exact ⟨docs, by rw [RemoteBroker.listing, hp]; exact hlist, doc, hdoc, hid, hne, rfl⟩
    · rintro ⟨docs, hlist, doc, hdoc, hid, hne, hevent⟩
      rw [RemoteBroker.listing, hp] at hlist
      refine ⟨_, docs, hlist, doc, hdoc, _, hid, hne, ?_⟩
      rw [← hevent]

/-- The documents that are listed occur in the answers. -/
theorem occurs_of_listing {q : Poll} {c : String} {docs : List Json} {d : Json} (hq : q ∈ polls)
    (h : B.listing q c = some docs) (hd : d ∈ docs) : Occurs polls d := by
  unfold RemoteBroker.listing at h
  split at h
  · obtain ⟨i, -, hok⟩ := of_select_collectDocuments h
    exact ⟨q, hq, i, docs, hok, hd⟩
  · cases h

theorem occurs_of_held {c : String} {docs : List Json} {d : Json}
    (h : B.heldListing polls c = some docs) (hd : d ∈ docs) : Occurs polls d := by
  obtain ⟨q, hq, hlist⟩ := Option.bind_eq_some_iff.mp h
  exact occurs_of_listing (List.mem_filter.mp (List.mem_of_getLast? hq)).1 hlist hd

end Changes

/-! ### What was listed is not published again -/

/-- **What was listed is not published again exactly if the snapshot holds it**, as the last
document with its id. -/
theorem noRepeat_iff {B : RemoteBroker} {polls : List Poll} {p : Poll} (hcdc : B.cdcEngine = true)
    (hfree : B.CollisionFree (polls ++ [p])) : B.NoRepeat polls p ↔ B.HeldLast polls p := by
  constructor
  · intro h c docs old hlist hold d hd hdold docId hid
    -- the document is not published, so the snapshot holds its hash
    have hheld : (lastWithId ((B.heldListing polls c).getD []) docId).map
        (docContentHash B.hasher) = some (docContentHash B.hasher d) := by
      by_contra hne
      have hmem : (⟨c, docId, B.changeEvent c docId d p.now⟩ : Change) ∈ B.newChanges polls p :=
        (mem_newChanges hcdc).mpr ⟨docs, hlist, d, hd, hid, hne, rfl⟩
      exact h _ hmem old hold d hdold hid rfl
    obtain ⟨d', hd', hhash⟩ := Option.map_eq_some_iff.mp hheld
    cases hprev : B.heldListing polls c with
    | none =>
      rw [hprev] at hd'
      cases lastWithId_mem hd'
    | some held =>
      rw [hprev] at hd'
      obtain rfl := Option.some.inj ((lastListing_of_held hprev).symm.trans hold)
      -- only one content has this hash
      have hocc : Occurs (polls ++ [p]) d' := by
        obtain ⟨q, hq, hans⟩ := occurs_of_held hprev (lastWithId_mem hd')
        exact ⟨q, List.mem_append_left _ hq, hans⟩
      have hocc' : Occurs (polls ++ [p]) d := occurs_of_listing (by simp) hlist hd
      rw [hfree d' d hocc hocc' hhash] at hd'
      exact ⟨rfl, hd'⟩
  · intro h change hchange old hold d hd hid heq
    obtain ⟨docs, hlist, doc, hdoc, hid', hne, hevent⟩ := (mem_newChanges hcdc).mp hchange
    obtain rfl : d = doc := by rw [heq, hevent]; rfl
    obtain ⟨hheld, hlast⟩ := h _ docs old hlist hold d hdoc hd _ hid
    rw [hheld, Option.getD_some, hlast] at hne
    exact hne rfl

/-- Fewer documents occur in fewer polls. -/
theorem RemoteBroker.CollisionFree.mono {B : RemoteBroker} {polls polls' : List Poll}
    (h : B.CollisionFree polls) (hsub : ∀ p ∈ polls', p ∈ polls) : B.CollisionFree polls' := by
  have hocc : ∀ d, Occurs polls' d → Occurs polls d := by
    rintro d ⟨p, hp, hans⟩
    exact ⟨p, hsub p hp, hans⟩
  exact fun d d' hd hd' => h d d' (hocc d hd) (hocc d' hd')

/-- **In a run no document is published again as it was listed exactly if, in every poll, the
snapshot holds what was listed.** -/
theorem noRepeat_run_iff {B : RemoteBroker} {polls : List Poll} (hcdc : B.cdcEngine = true)
    (hfree : B.CollisionFree polls) :
    (∀ before p after, polls = before ++ p :: after → B.NoRepeat before p) ↔
      ∀ before p after, polls = before ++ p :: after → B.HeldLast before p := by
  refine forall₃_congr fun before p after => imp_congr_right ?_
  intro heq
  refine noRepeat_iff hcdc (hfree.mono ?_)
  intro q hq
  rw [heq]
  rcases List.mem_append.mp hq with hq | hq
  · exact List.mem_append_left _ hq
  · rw [List.mem_singleton.mp hq]
    simp

/-! ### A broker with one collection -/

/-- A broker with the collection `tracks`. -/
def trackBroker : RemoteBroker where
  mapping := ⟨"acme", "mesh", "http://mesh:8081", ["tracks"]⟩
  hasher bytes := UInt64.ofNat (bytes.foldl (fun h b => 31 * h + b.toNat) 7)
  cdcEngine := true

/-- A document `t1`. -/
def track (speed : String) : Json := .object [("_id", .string "t1"), ("speed", .number speed)]

/-- A poll that succeeds. -/
def trackPoll (docs : Except Error (List Json)) : Poll where
  node := .ok ⟨"n1", 1, "1"⟩
  topology := .ok ⟨0, "standalone", 0⟩
  ready := .ok ⟨true, "n1", []⟩
  peers := .ok []
  documents _ := docs
  now := 1

/-- The hashes of two tracks differ. -/
theorem collisionFree_trackPoll {answers : List (Except Error (List Json))}
    (h : ∀ a ∈ answers, ∀ docs, a = .ok docs → ∀ d ∈ docs, d = track "1" ∨ d = track "2") :
    trackBroker.CollisionFree (answers.map trackPoll) := by
  have hocc : ∀ d, Occurs (answers.map trackPoll) d → d = track "1" ∨ d = track "2" := by
    rintro d ⟨p, hp, i, docs, hok, hd⟩
    obtain ⟨a, ha, rfl⟩ := List.mem_map.mp hp
    exact h a ha docs hok d hd
  have hne : docContentHash trackBroker.hasher (track "1") ≠
      docContentHash trackBroker.hasher (track "2") := by decide +kernel
  intro d d' hd hd' hhash
  rcases hocc d hd with rfl | rfl <;> rcases hocc d' hd' with rfl | rfl
  · rfl
  · exact absurd hhash hne
  · exact absurd hhash.symm hne
  · rfl

/-- A document is published again after its collection was not available once, and after it was
listed together with another of its id. -/
theorem noRepeat_broken :
    (trackBroker.CollisionFree ([.ok [track "1"], .error "503", .ok [track "1"]].map trackPoll) ∧
      ¬ trackBroker.NoRepeat ([.ok [track "1"], .error "503"].map trackPoll)
        (trackPoll (.ok [track "1"]))) ∧
    trackBroker.CollisionFree ([.ok [track "1", track "2"], .ok [track "1"]].map trackPoll) ∧
      ¬ trackBroker.NoRepeat ([.ok [track "1", track "2"]].map trackPoll)
        (trackPoll (.ok [track "1"])) := by
  refine ⟨⟨collisionFree_trackPoll (by simp), ?_⟩, collisionFree_trackPoll (by simp), ?_⟩
  · intro h
    have hmem : (⟨"tracks", "t1", trackBroker.changeEvent "tracks" "t1" (track "1") 1⟩ : Change) ∈
        trackBroker.newChanges ([.ok [track "1"], .error "503"].map trackPoll)
          (trackPoll (.ok [track "1"])) :=
      (mem_newChanges rfl).mpr ⟨_, rfl, _, List.mem_cons_self, rfl, nofun, rfl⟩
    exact h _ hmem [track "1"] rfl _ List.mem_cons_self rfl rfl
  · intro h
    have hmem : (⟨"tracks", "t1", trackBroker.changeEvent "tracks" "t1" (track "1") 1⟩ : Change) ∈
        trackBroker.newChanges ([.ok [track "1", track "2"]].map trackPoll)
          (trackPoll (.ok [track "1"])) :=
      (mem_newChanges rfl).mpr ⟨_, rfl, _, List.mem_cons_self, rfl, by decide +kernel, rfl⟩
    exact h _ hmem [track "1", track "2"] rfl _ List.mem_cons_self rfl rfl

/-- A document that is listed as it was is not published again. -/
theorem noRepeat_twice :
    trackBroker.NoRepeat ([.ok [track "1"]].map trackPoll) (trackPoll (.ok [track "1"])) := by
  have hfree : trackBroker.CollisionFree ([.ok [track "1"], .ok [track "1"]].map trackPoll) :=
    collisionFree_trackPoll (by simp)
  refine (noRepeat_run_iff rfl hfree).mpr ?_ [_] _ [] rfl
  intro before p after heq c docs old hlist hold d hd hdold docId hid
  cases before with
  | nil => cases hold
  | cons q before =>
    obtain ⟨hq, heq⟩ := List.cons.inj heq
    cases before with
    | nil =>
      subst hq
      rw [RemoteBroker.lastListing, List.reverse_singleton, List.findSome?_singleton] at hold
      obtain ⟨i, -, hok⟩ := of_select_collectDocuments hold
      obtain rfl := Except.ok.inj hok
      rw [List.mem_singleton.mp hdold] at hid ⊢
      obtain rfl : "t1" = docId := Option.some.inj hid
      exact ⟨hold, rfl⟩
    | cons q' before =>
      obtain ⟨-, heq⟩ := List.cons.inj heq
      simp at heq

end PeatGateway
