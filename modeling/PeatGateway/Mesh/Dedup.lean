import PeatGateway.Lib.Dedup
import PeatGateway.Mesh.Diffs

/-!
# Deduplication by the hash of a change

The hash of a change that is made of a poll is that of the content of the document, and says
nothing of the document it is the content of, nor of what came before.  A consumer that drops
what has a hash it knows, as JetStream does, drops a change that gives a document a content that
it, or another document, had before.

## Main definitions

* `Change.key`, `Change.content`, `Change.tag` — the document of a change, the content it is
  given, and the hash.
* `DedupSound` — a consumer that drops what has a known hash misses nothing.
* `RemoteBroker.history` — the contents that the polls give to documents, in order.
* `NewOrRepeated` — a content that no document had before, or that the document has.

## Main results

* `published_history` — what is published is what the polls change.
* `dedup_sound_iff` — **deduplication is sound exactly if every content is new or repeated**.
* `dedup_unsound` — a document that returns to its first content, and a content that is in two
  collections.
-/

namespace PeatGateway

open Dedup

/-- The document of a change. -/
def Change.key (change : Change) : String × String := (change.collection, change.docId)

/-- The content of the document. -/
def Change.content (change : Change) : Json := change.event.patches

/-- The tag that consumers tell changes by. -/
def Change.tag (change : Change) : String := change.event.changeHash

/-- A consumer that ignores changes with a hash that it has received holds the same documents as
one that takes them all. -/
def DedupSound (changes : List Change) : Prop :=
  Agree Change.key Change.content Change.tag changes

/-! ### What the polls change -/

/-- A document, and the content it is listed with. -/
abbrev Update : Type := (String × String) × Json

/-- The documents of a collection that are not held as they are listed. -/
noncomputable def updatesIn (c : String) (held docs : List Json) : List Update :=
  open scoped Classical in
  docs.filterMap fun d => (documentId d).bind fun docId =>
    if lastWithId held docId = some d then none else some ((c, docId), d)

/-- What a poll changes after the others. -/
noncomputable def RemoteBroker.updates (B : RemoteBroker) (polls : List Poll) (p : Poll) :
    List Update :=
  if p.succeeds then
    (p.orders.documents.order
      (collectDocuments p.documents B.mapping.collections).rows).flatMap fun c =>
        updatesIn c.1 ((B.heldListing polls c.1).getD []) c.2
  else []

/-- What polls change that come after others. -/
noncomputable def RemoteBroker.updatesAfter (B : RemoteBroker) : List Poll → List Poll → List Update
  | _, [] => []
  | before, p :: polls => B.updates before p ++ B.updatesAfter (before ++ [p]) polls

/-- What the polls change, in order. -/
noncomputable def RemoteBroker.history (B : RemoteBroker) (polls : List Poll) : List Update :=
  B.updatesAfter [] polls

/-- No document was given the content before, or it is what this document was given last. -/
def NewOrRepeated (before : List Update) (u : Update) : Prop :=
  (∀ v ∈ before, v.2 ≠ u.2) ∨ lastSeen Prod.fst Prod.snd before u.1 = some u.2

/-! ### The hash of a change -/

/-- The digits of a hash tell it. -/
theorem lowerHex16_inj {m n : UInt64} (h : lowerHex16 m = lowerHex16 n) : m = n := by
  have hchars := congrArg (fun s => Wire.digitsVal s.toList) h
  simp only [lowerHex16, String.toList_ofList, Wire.digitsVal_leftpad,
    Wire.digitsVal_toDigits] at hchars
  exact UInt64.toNat_inj.mp hchars

section Published

variable {B : RemoteBroker} {polls : List Poll}

/-- What is published are documents of the polls. -/
theorem of_mem_published (hcdc : B.cdcEngine = true) {change : Change}
    (h : change ∈ (B.run polls).published) : ∃ doc t, Occurs polls doc ∧
      change.event = B.changeEvent change.collection change.docId doc t := by
  induction polls using List.reverseRecOn with
  | nil => cases h
  | append_singleton polls p ih =>
    rw [published_append, List.mem_append] at h
    rcases h with h | h
    · obtain ⟨doc, t, ⟨q, hq, hans⟩, hevent⟩ := ih h
      exact ⟨doc, t, ⟨q, List.mem_append_left _ hq, hans⟩, hevent⟩
    · obtain ⟨docs, hlist, doc, hdoc, -, -, hevent⟩ := (mem_newChanges hcdc).mp h
      exact ⟨doc, p.now, occurs_of_listing (by simp) hlist hdoc, hevent⟩

/-- **Changes with one hash give one content.** -/
theorem tag_eq_iff (hcdc : B.cdcEngine = true) (hfree : B.CollisionFree polls) {a b : Change}
    (ha : a ∈ (B.run polls).published) (hb : b ∈ (B.run polls).published) :
    a.tag = b.tag ↔ a.content = b.content := by
  obtain ⟨doc, t, hdoc, hevent⟩ := of_mem_published hcdc ha
  obtain ⟨doc', t', hdoc', hevent'⟩ := of_mem_published hcdc hb
  simp only [Change.tag, Change.content, hevent, hevent', RemoteBroker.changeEvent]
  constructor
  · exact fun h => hfree doc doc' hdoc hdoc' (lowerHex16_inj h)
  · rintro rfl
    rfl

theorem updatesAfter_append (before polls : List Poll) (p : Poll) :
    B.updatesAfter before (polls ++ [p]) =
      B.updatesAfter before polls ++ B.updates (before ++ polls) p := by
  induction polls generalizing before with
  | nil => simp [RemoteBroker.updatesAfter]
  | cons q polls ih =>
    rw [List.cons_append, RemoteBroker.updatesAfter, RemoteBroker.updatesAfter, ih,
      List.append_assoc, List.append_assoc, List.singleton_append]

theorem history_append (polls : List Poll) (p : Poll) :
    B.history (polls ++ [p]) = B.history polls ++ B.updates polls p :=
  updatesAfter_append [] polls p

/-- What is published of a document is what is changed by it. -/
theorem map_change? {p : Poll} (hfree : B.CollisionFree (polls ++ [p])) {c : String}
    {d : Json} (hd : Occurs (polls ++ [p]) d) :
    (B.change? c ((B.heldListing polls c).getD []) p.now d).map (fun x => (x.key, x.content)) =
      open scoped Classical in
      (documentId d).bind fun docId =>
        if lastWithId ((B.heldListing polls c).getD []) docId = some d then none
        else some ((c, docId), d) := by
  classical
  cases hid : documentId d with
  | none => simp [RemoteBroker.change?, hid]
  | some docId =>
    -- hashes are compared in place of contents
    have hsame : (lastWithId ((B.heldListing polls c).getD []) docId).map
        (docContentHash B.hasher) = some (docContentHash B.hasher d) ↔
        lastWithId ((B.heldListing polls c).getD []) docId = some d := by
      cases hheld : B.heldListing polls c with
      | none => exact iff_of_false nofun nofun
      | some held =>
        cases hlast : lastWithId ((some held).getD []) docId with
        | none => exact iff_of_false nofun nofun
        | some d' =>
          obtain ⟨q, hq, hans⟩ := occurs_of_held hheld (lastWithId_mem hlast)
          have hd' : Occurs (polls ++ [p]) d' := ⟨q, List.mem_append_left _ hq, hans⟩
          rw [Option.map_some, Option.some.injEq, Option.some.injEq]
          exact ⟨hfree d' d hd' hd, fun h => by rw [h]⟩
    rw [RemoteBroker.change?, hid]
    dsimp only [Option.bind_some]
    rw [hashById_eq, if_congr hsame rfl rfl]
    split <;> rfl

/-- **What is published is what the polls change.** -/
theorem published_history (hcdc : B.cdcEngine = true) (hfree : B.CollisionFree polls) :
    (B.run polls).published.map (fun x => (x.key, x.content)) = B.history polls := by
  induction polls using List.reverseRecOn with
  | nil => rfl
  | append_singleton polls p ih =>
    rw [published_append, List.map_append, ih (hfree.mono fun q hq => List.mem_append_left _ hq),
      history_append, RemoteBroker.updates]
    congr 1
    cases hp : p.succeeds with
    | false => rw [newChanges_of_fails hp]; rfl
    | true =>
      rw [newChanges_of_succeeds hcdc hp, List.map_flatMap, if_pos rfl]
      apply List.flatMap_congr
      intro c hc
      rw [(p.orders.documents.perm _).mem_iff, ← Prod.eta c, Rows.mem_rows] at hc
      rw [List.map_filterMap, updatesIn]
      refine List.filterMap_congr fun d hd => map_change? hfree ?_
      refine occurs_of_listing (B := B) (q := p) (c := c.1) (by simp) ?_ hd
      rw [RemoteBroker.listing, hp]
      exact hc

/-- What a consumer holds is told by the documents and their contents. -/
theorem lastSeen_map (changes : List Change) (k : String × String) :
    lastSeen Prod.fst Prod.snd (changes.map fun x => (x.key, x.content)) k =
      lastSeen Change.key Change.content changes k := by
  rw [lastSeen, lastSeen, ← List.map_reverse, List.find?_map, Option.map_map]
  rfl

/-- A change is harmless if it is new or repeated. -/
theorem harmless_iff (hcdc : B.cdcEngine = true) (hfree : B.CollisionFree polls)
    {before after : List Change} {change : Change}
    (heq : (B.run polls).published = before ++ change :: after) :
    Harmless Change.key Change.content Change.tag before change ↔
      NewOrRepeated (before.map fun x => (x.key, x.content)) (change.key, change.content) := by
  have hmem : change ∈ (B.run polls).published := by rw [heq]; simp
  rw [Harmless, NewOrRepeated, lastSeen_map, List.forall_mem_map, List.mem_map, not_exists]
  refine or_congr_left (forall_congr' ?_)
  intro other
  rw [not_and]
  refine imp_congr_right fun hother => not_congr (tag_eq_iff hcdc hfree ?_ hmem)
  rw [heq]
  exact List.mem_append_left _ hother

/-- **Deduplication is sound, all along, exactly if every content is new or repeated.** -/
theorem dedup_sound_iff (hcdc : B.cdcEngine = true) (hfree : B.CollisionFree polls) :
    (∀ before after, (B.run polls).published = before ++ after → DedupSound before) ↔
      ∀ before u after, B.history polls = before ++ u :: after → NewOrRepeated before u := by
  apply (agree_iff _).trans
  rw [← published_history hcdc hfree]
  constructor
  · intro h before u after heq
    obtain ⟨l₁, l₂, hsplit, rfl, hrest⟩ := List.map_eq_append_iff.mp heq
    obtain ⟨change, l₃, rfl, rfl, -⟩ := List.map_eq_cons_iff.mp hrest
    exact (harmless_iff hcdc hfree hsplit).mp (h l₁ change l₃ hsplit)
  · intro h before change after heq
    refine (harmless_iff hcdc hfree heq).mpr (h _ _ (after.map fun x => (x.key, x.content)) ?_)
    rw [heq, List.map_append, List.map_cons]

end Published

/-! ### A document that returns, and a document that is listed twice -/

/-- A broker that lists the same documents in two collections. -/
def copyBroker : RemoteBroker where
  mapping := ⟨"acme", "mesh", "http://mesh:8081", ["tracks", "copies"]⟩
  hasher := trackBroker.hasher
  cdcEngine := true

/-- A document that is given its first content again keeps the second for a consumer that drops
what has a known hash, and of a content in two collections that consumer holds one. -/
theorem dedup_unsound :
    (trackBroker.CollisionFree
        ([.ok [track "1"], .ok [track "2"], .ok [track "1"]].map trackPoll) ∧
      ¬ DedupSound (trackBroker.run
        ([.ok [track "1"], .ok [track "2"], .ok [track "1"]].map trackPoll)).published) ∧
    copyBroker.CollisionFree ([.ok [track "1"]].map trackPoll) ∧
      ¬ DedupSound (copyBroker.run ([.ok [track "1"]].map trackPoll)).published := by
  refine ⟨⟨collisionFree_trackPoll (by simp), ?_⟩, collisionFree_trackPoll (by simp), ?_⟩
  · intro h
    have htext := congrArg (Option.map Json.toText) (h ("tracks", "t1"))
    revert htext
    decide +kernel
  · intro h
    have htext := congrArg (Option.map Json.toText) (h ("copies", "t1"))
    revert htext
    decide +kernel

/-- The document is listed as it was, but could not be listed in between. -/
def brokenOff : List Poll := [.ok [track "1"], .error "503", .ok [track "1"]].map trackPoll

/-- It is published twice, and dropping the second event does no harm. -/
theorem dedup_sound_twice :
    ¬ ((trackBroker.run brokenOff).published.map Change.tag).Nodup ∧
      DedupSound (trackBroker.run brokenOff).published := by
  have hfree : trackBroker.CollisionFree brokenOff := collisionFree_trackPoll (by simp)
  have hhistory : trackBroker.history brokenOff =
      [(("tracks", "t1"), track "1"), (("tracks", "t1"), track "1")] := by
    rw [← published_history rfl hfree]
    rfl
  refine ⟨by decide +kernel, (dedup_sound_iff rfl hfree).mpr ?_ _ [] (List.append_nil _).symm⟩
  intro before u after heq
  rw [hhistory] at heq
  cases before with
  | nil => exact Or.inl nofun
  | cons v before =>
    -- the second update repeats the first
    obtain ⟨rfl, hrest⟩ := List.cons.inj heq
    cases before with
    | nil =>
      obtain ⟨rfl, -⟩ := List.cons.inj hrest
      exact Or.inr rfl
    | cons w before =>
      have hnil : [] = before ++ u :: after := (List.cons.inj hrest).2
      exact absurd hnil.symm (by simp)

end PeatGateway
