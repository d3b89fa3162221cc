import PeatGateway.Cdc.HashInput
import PeatGateway.Cdc.Task

/-!
# Which updates are withheld

The cursor of a document is the hash of its last change, so an update is withheld when the last
change that shares its cursor was hashed alike.  Not every such change is an earlier copy of the
update: a removal is hashed as an update without fields, documents without an id share a cursor
with one whose id is `unknown`, and times before the epoch are hashed as the epoch.

## Main definitions

* `Hashed`, `Received.hashed?` — what is hashed of a change.
* `Received.document?` — the document of a change; those without an id are one document.
* `Formation.HidesNothing` — a change that is withheld repeats the last one of its document that
  was published.
* `Formation.NoLookalike` — a change that is hashed as the last one under its cursor repeats the
  last one of its document.

## Main results

* `cursor_reached` — the cursor is the hash of the last change under it.
* `withheld_iff` — **when an update is withheld**.
* `hidesNothing_iff` — **no real change is hidden exactly if there is no lookalike**.
-/

namespace PeatGateway

open Effect Text

/-! ### Changes and what is hashed of them -/

/-- What is hashed of a change: the id its cursor is kept under, the fields and the time. -/
structure Hashed where
  docId : String
  fields : Fields
  timestampMs : UInt64

/-- The same is hashed, in whatever order the fields are held. -/
structure Hashed.Same (x y : Hashed) : Prop where
  docId : x.docId = y.docId
  fields : ∀ k, x.fields.select k = y.fields.select k
  timestampMs : x.timestampMs = y.timestampMs

/-- What is hashed of a change.  A snapshot is not hashed. -/
def Received.hashed? (r : Received) : Option Hashed :=
  match r.change with
  | .updated document =>
    some ⟨document.id.getD "unknown", document.fields, timestampOf document.updatedAt⟩
  | .removed docId => some ⟨docId, .empty, timestampOf r.now⟩
  | .initial _ => none

/-- The document of a change. -/
def Received.document? (r : Received) : Option (Option String) :=
  match r.change with
  | .updated document => some document.id
  | .removed docId => some (some docId)
  | .initial _ => none

/-- The last change that passes the test. -/
def lastChange (p : Received → Bool) (l : List Received) : Option Received := l.reverse.find? p

theorem lastChange_append_singleton (p : Received → Bool) (l : List Received) (r : Received) :
    lastChange p (l ++ [r]) = if p r = true then some r else lastChange p l := by
  rw [lastChange, List.reverse_append, List.reverse_singleton, List.singleton_append,
    List.find?_cons]
  cases p r <;> rfl

/-- A condition on every change and those before it, one more change at a time. -/
theorem forall_split_append_singleton {P : List Received → Received → Prop} {l : List Received}
    {r : Received} :
    (∀ before r' after, l ++ [r] = before ++ r' :: after → P before r') ↔
      (∀ before r' after, l = before ++ r' :: after → P before r') ∧ P l r := by
  constructor
  · intro h
    refine ⟨?_, h l r [] rfl⟩
    intro before r' after hsplit
    apply h before r' (after ++ [r])
    rw [hsplit, List.append_assoc, List.cons_append]
  · intro h before r' after hsplit
    rcases List.eq_nil_or_concat after with rfl | ⟨after', r₀, rfl⟩
    · have hends := List.append_inj' hsplit rfl
      cases hends.2
      rw [← hends.1]
      exact h.2
    · rw [List.concat_eq_append, ← List.cons_append, ← List.append_assoc] at hsplit
      exact h.1 before r' after' (List.append_inj' hsplit rfl).1

/-- The last change under the cursor. -/
def lastUnder (docId : String) : List Received → Option Received :=
  lastChange fun r => r.hashed?.map Hashed.docId == some docId

theorem lastUnder_singleton {r : Received} {x : Hashed} (h : r.hashed? = some x) :
    lastUnder x.docId [r] = some r := by
  simp [lastUnder, lastChange, h]

/-- The last change of the document. -/
def lastOf (id : Option String) : List Received → Option Received :=
  lastChange fun r => r.document? == some id

/-- A time in whole milliseconds. -/
def millis (t : SystemTime) : ℤ := t / 1000000

/-- The change is an update of the document to these fields, at this time. -/
def Updates (document : Document) (r : Option Received) : Prop :=
  ∃ r' document', r = some r' ∧ r'.change = .updated document' ∧
    (∀ k, document'.fields.select k = document.fields.select k) ∧
    millis document'.updatedAt = millis document.updatedAt

namespace Formation

variable (F : Formation)

/-- Different changes have different hashes. -/
def CollisionFree (l : List Received) : Prop :=
  ∀ r ∈ l, ∀ r' ∈ l, ∀ x y, r.hashed? = some x → r'.hashed? = some y →
    hashFields F.hasher x.docId x.fields x.timestampMs =
      hashFields F.hasher y.docId y.fields y.timestampMs → x.Same y

/-- The changes whose events are published while they are taken in this state. -/
def passed (π : Pattern) : Task → List Received → List Received
  | _, [] => []
  | s, r :: l =>
    (if (F.next π s r).published.length = s.published.length then [] else [r]) ++
      passed π (F.next π s r) l

/-- No call fails. -/
def calm : Pattern := ⟨fun _ => none, fun _ => .ok ()⟩

/-- An update that is withheld repeats the last change of its document that was published. -/
def HidesNothing (st : AnyStore) (before : List Received) (r : Received) : Prop :=
  ∀ document, r.change = .updated document →
    (F.reached calm st (before ++ [r])).published = (F.reached calm st before).published →
    Updates document (lastOf document.id (F.passed calm ⟨st, 0, []⟩ before))

end Formation

/-- An update that is hashed as the last change under its cursor repeats the last change of its
document. -/
def NoLookalike (before : List Received) (r : Received) : Prop :=
  ∀ document x, r.change = .updated document → r.hashed? = some x →
    ∀ r' y, lastUnder x.docId before = some r' → r'.hashed? = some y → y.Same x →
      Updates document (lastOf document.id before)

/-! ### Rounds in which no call fails -/

/-- Writing a cursor of the organization does not fail: on Postgres the organization is there. -/
def AnyStore.TakesCursors (orgId : String) : AnyStore → Prop
  | .redb _ => True
  | .postgres s => (s.orgs.select orgId).isSome = true

/-- A cursor that is written is read back, and no other of the formation changes. -/
theorem AnyStore.cursor_setCursor {st : AnyStore} {o : String} (h : st.TakesCursors o)
    (a d hash d' : String) :
    (exec (.setCursor o a d hash) st).2.TakesCursors o ∧
      (exec (.setCursor o a d hash) st).2.cursor o a d' =
        if d = d' then some hash else st.cursor o a d' := by
  cases st with
  | redb s =>
    refine ⟨trivial, ?_⟩
    have hkey : cursorKey o a d = cursorKey o a d' ↔ d = d' :=
      ⟨fun h => glue_cancel (glue_cancel h), fun h => h ▸ rfl⟩
    have hget : (exec (.setCursor o a d hash) (.redb s)).2.cursor o a d' =
        if cursorKey o a d = cursorKey o a d' then some hash else s.cursors[cursorKey o a d']? :=
      Table.get_insert _ _ _ _
    rw [hget]
    exact if_congr hkey rfl rfl
  | postgres s =>
    have horg : (s.orgs.select o).isSome = true := h
    have hok : ((s.cursors.select (o, a, d)).isSome || (s.orgs.select o).isSome) = true := by
      rw [horg, Bool.or_true]
    simp only [exec, Postgres.exec, Postgres.upsertChild, hok, if_true, Postgres.commit]
    refine ⟨horg, ?_⟩
    have hkey : (o, a, d) = (o, a, d') ↔ d = d' := by simp
    exact (Rows.select_upsert _ _ _ _).trans (if_congr hkey rfl rfl)

open Formation (calm)

section Calm

variable {F : Formation} {s : Task}

/-- A cursor that is read is the one in the store. -/
theorem reach_getCursor_calm (s : Task) (o a d : String) :
    s.reach calm (.getCursor o a d) =
      (.ok (s.store.cursor o a d), { s with calls := s.calls + 1 }) := by
  rw [Task.reach]
  simp only [calm, faulty, AnyStore.exec_getCursor]

/-- Publishing an event writes its cursor. -/
theorem store_emitCalls_calm (event : CdcEvent) (s : Task) :
    ((emitCalls event).run (Task.call calm) s).2.store =
      (AnyStore.exec (.setCursor event.orgId event.appId event.documentId event.changeHash)
        s.store).2 := rfl

/-- What is hashed of a change, as text. -/
def Formation.hashOf (F : Formation) (x : Hashed) : String :=
  F.changeHash x.docId x.fields x.timestampMs

/-- **After a round the cursor of its change is the hash of it**, whether it was withheld or not,
and no other cursor changes. -/
theorem cursor_next (htakes : s.store.TakesCursors F.orgId) (r : Received) :
    (F.next calm s r).store.TakesCursors F.orgId ∧
      ∀ d, (F.next calm s r).store.cursor F.orgId F.appId d =
        if r.hashed?.map Hashed.docId = some d then r.hashed?.map F.hashOf
        else s.store.cursor F.orgId F.appId d := by
  obtain ⟨change, now⟩ := r
  cases change with
  | initial documents => exact ⟨htakes, fun d => (if_neg nofun).symm⟩
  | removed docId =>
    have hset := fun d => AnyStore.cursor_setCursor htakes F.appId docId
      (F.removalEvent docId now).changeHash d
    refine ⟨(hset docId).1, ?_⟩
    intro d
    rw [Formation.next, Formation.handleCalls, store_emitCalls_calm]
    refine (hset d).2.trans (if_congr ?_ rfl rfl)
    simp [Received.hashed?]
  | updated document =>
    let event := F.updateEvent document
    have hread : Task.call calm (.getCursor F.orgId F.appId event.documentId) s =
        (.ok (s.store.cursor F.orgId F.appId event.documentId),
          { s with calls := s.calls + 1 }) := reach_getCursor_calm s _ _ _
    rw [Formation.next, Formation.handleCalls, Prog.run_attempt_bind, hread]
    split
    · next hdup =>
      have hcursor : s.store.cursor F.orgId F.appId event.documentId = some event.changeHash :=
        Except.ok.inj (isDuplicate_iff.mp hdup)
      refine ⟨htakes, ?_⟩
      intro d
      split
      · next hd =>
        have hd' : event.documentId = d := Option.some.inj hd
        rw [← hd']
        exact hcursor
      · rfl
    · have hset := fun d => AnyStore.cursor_setCursor htakes F.appId event.documentId
        event.changeHash d
      refine ⟨(hset event.documentId).1, ?_⟩
      intro d
      rw [store_emitCalls_calm]
      refine (hset d).2.trans (if_congr ?_ rfl rfl)
      simp [Received.hashed?, event, Formation.updateEvent]

/-! ### The cursor -/

theorem Formation.reached_append_singleton (π : Pattern) (st : AnyStore) (l : List Received)
    (r : Received) : F.reached π st (l ++ [r]) = F.next π (F.reached π st l) r := by
  rw [Formation.reached, List.foldl_append, List.foldl_cons, List.foldl_nil, Formation.reached]

/-- **The cursor is the hash of the last change under it.** -/
theorem cursor_reached {st : AnyStore} (htakes : st.TakesCursors F.orgId)
    (hempty : ∀ d, st.cursor F.orgId F.appId d = none) (l : List Received) :
    (F.reached calm st l).store.TakesCursors F.orgId ∧
      ∀ d, (F.reached calm st l).store.cursor F.orgId F.appId d =
        (lastUnder d l).bind fun r => r.hashed?.map F.hashOf := by
  induction l using List.reverseRecOn with
  | nil => exact ⟨htakes, hempty⟩
  | append_singleton l r ih =>
    rw [Formation.reached_append_singleton]
    have hnext := cursor_next ih.1 r
    refine ⟨hnext.1, ?_⟩
    intro d
    rw [hnext.2, ih.2, lastUnder, lastChange_append_singleton]
    by_cases hd : r.hashed?.map Hashed.docId = some d
    · simp [hd]
    · simp [hd]

theorem lowerHex_inj {m n : UInt64} (h : lowerHex m = lowerHex n) : m = n := by
  have hdigits := congrArg (fun s => Wire.digitsVal s.toList) h
  simp only [lowerHex, String.toList_ofList, Wire.digitsVal_toDigits] at hdigits
  exact UInt64.toNat_inj.mp hdigits

/-- Hashes are compared by what is hashed. -/
theorem hashOf_eq_iff {l : List Received} (hfree : F.CollisionFree l) {r r' : Received}
    (hr : r ∈ l) (hr' : r' ∈ l) {x y : Hashed} (hx : r.hashed? = some x)
    (hy : r'.hashed? = some y) : F.hashOf x = F.hashOf y ↔ x.Same y := by
  constructor
  · intro h
    exact hfree r hr r' hr' x y hx hy (lowerHex_inj h)
  · intro h
    have hinput := hashInput_congr h.fields x.docId x.timestampMs
    rw [Formation.hashOf, Formation.hashOf, Formation.changeHash, Formation.changeHash, hashFields,
      hashFields, hinput, h.docId, h.timestampMs]

theorem mem_of_lastChange {p : Received → Bool} {l : List Received} {r : Received}
    (h : lastChange p l = some r) : r ∈ l := List.mem_reverse.mp (List.mem_of_find?_eq_some h)

/-- **An update is withheld exactly if the last change under its cursor is hashed alike.** -/
theorem withheld_iff {st : AnyStore} (htakes : st.TakesCursors F.orgId)
    (hempty : ∀ d, st.cursor F.orgId F.appId d = none) (before : List Received) {r : Received}
    (hfree : F.CollisionFree (before ++ [r])) {document : Document} {x : Hashed}
    (hr : r.change = .updated document) (hx : r.hashed? = some x) :
    (F.reached calm st (before ++ [r])).published = (F.reached calm st before).published ↔
      ∃ r' y, lastUnder x.docId before = some r' ∧ r'.hashed? = some y ∧ y.Same x := by
  have hevent : (F.updateEvent document).documentId = x.docId ∧
      (F.updateEvent document).changeHash = F.hashOf x := by
    simp only [Received.hashed?, hr] at hx
    cases hx
    exact ⟨rfl, rfl⟩
  rw [Formation.reached_append_singleton, withheld_updated_iff hr, reach_getCursor_calm,
    Except.ok.injEq, hevent.1, hevent.2, (cursor_reached htakes hempty before).2]
  -- both changes are in the stream, so their hashes tell what was hashed
  have hhash : ∀ r' y, lastUnder x.docId before = some r' → r'.hashed? = some y →
      (F.hashOf y = F.hashOf x ↔ y.Same x) := by
    intro r' y hlast hy
    have hr' : r' ∈ before ++ [r] := List.mem_append_left _ (mem_of_lastChange hlast)
    have hmem : r ∈ before ++ [r] := List.mem_append_right _ (List.mem_singleton_self r)
    exact hashOf_eq_iff hfree hr' hmem hy hx
  constructor
  · intro h
    rcases Option.bind_eq_some_iff.mp h with ⟨r', hlast, hread⟩
    rcases Option.map_eq_some_iff.mp hread with ⟨y, hy, heq⟩
    exact ⟨r', y, hlast, hy, (hhash r' y hlast hy).mp heq⟩
  · intro h
    rcases h with ⟨r', y, hlast, hy, hsame⟩
    rw [hlast, Option.bind_some, hy, Option.map_some, (hhash r' y hlast hy).mpr hsame]

/-! ### What was published last -/

theorem Formation.passed_append_singleton (π : Pattern) (s : Task) (l : List Received)
    (r : Received) : F.passed π s (l ++ [r]) = F.passed π s l ++
      if (F.next π (l.foldl (F.next π) s) r).published.length =
        (l.foldl (F.next π) s).published.length then [] else [r] := by
  induction l generalizing s with
  | nil => exact List.append_nil _
  | cons r' l ih =>
    rw [List.cons_append, Formation.passed, ih, Formation.passed, List.append_assoc]
    rfl

/-- The length of the log tells whether an event was published. -/
theorem published_next_iff (r : Received) :
    (F.next calm s r).published.length = s.published.length ↔
      (F.next calm s r).published = s.published := by
  refine ⟨?_, congrArg List.length⟩
  intro hlen
  rcases (round_next r : F.Round calm r s _).once with h | ⟨event, outcome, -, h⟩
  · exact h
  · rw [h, List.length_append] at hlen
    simp at hlen

/-- A change that repeats another updates what the other updates. -/
theorem Updates.iff {document document' : Document} {r : Option Received} {r' : Received}
    (h : Updates document' r) (hr' : r'.change = .updated document') :
    Updates document r ↔ Updates document (some r') := by
  rcases h with ⟨r₀, document₀, rfl, hr₀, hfields, htime⟩
  constructor
  · intro h
    rcases h with ⟨_, document₁, hr₁, hchange, hfields', htime'⟩
    cases hr₁
    rw [hr₀] at hchange
    cases hchange
    exact ⟨r', document', rfl, hr', fun k => (hfields k).symm.trans (hfields' k),
      htime.symm.trans htime'⟩
  · intro h
    rcases h with ⟨_, document₁, hr₁, hchange, hfields', htime'⟩
    cases hr₁
    rw [hr'] at hchange
    cases hchange
    exact ⟨r₀, document₀, rfl, hr₀, fun k => (hfields k).trans (hfields' k), htime.trans htime'⟩

/-- As long as nothing is hidden, the last change of a document that was published updates what
the last change of the document updates. -/
theorem updates_passed_iff {st : AnyStore} (l : List Received)
    (hl : ∀ before r after, l = before ++ r :: after → F.HidesNothing st before r)
    (o : Option String) (document : Document) :
    Updates document (lastOf o (F.passed calm ⟨st, 0, []⟩ l)) ↔ Updates document (lastOf o l) := by
  induction l using List.reverseRecOn with
  | nil => exact Iff.rfl
  | append_singleton l r ih =>
    have hpositions := forall_split_append_singleton.mp hl
    have hlast := ih hpositions.1
    have hhere := hpositions.2
    rw [Formation.passed_append_singleton]
    simp only [lastOf, lastChange_append_singleton] at hlast ⊢
    split
    · next hlen =>
      have hwithheld := (published_next_iff r).mp hlen
      rw [List.append_nil]
      split
      · next hdoc =>
        -- the change is of this document and is withheld, so it repeats the last one published
        have hdoc' : r.document? = some o := beq_iff_eq.mp hdoc
        cases hchange : r.change with
        | updated document' =>
          have hid : document'.id = o := by simpa [Received.document?, hchange] using hdoc'
          have hrepeats := hhere document' hchange (by
            rw [Formation.reached_append_singleton]
            exact hwithheld)
          rw [hid] at hrepeats
          exact hrepeats.iff hchange
        | removed docId => exact absurd hwithheld (not_withheld_removed hchange)
        | initial documents => simp [Received.document?, hchange] at hdoc'
      · exact hlast
    · rw [lastChange_append_singleton]
      split
      · exact Iff.rfl
      · exact hlast

/-- As long as nothing is hidden, an update is not hidden exactly if there is no lookalike. -/
theorem hidesNothing_iff_noLookalike {st : AnyStore} (htakes : st.TakesCursors F.orgId)
    (hempty : ∀ d, st.cursor F.orgId F.appId d = none) (before : List Received) {r : Received}
    (hfree : F.CollisionFree (before ++ [r]))
    (hbefore : ∀ before' r' after, before = before' ++ r' :: after → F.HidesNothing st before' r') :
    F.HidesNothing st before r ↔ NoLookalike before r := by
  have hlast := updates_passed_iff before hbefore
  constructor
  · intro h document x hr hx r' y hunder hy hsame
    have hwithheld := (withheld_iff htakes hempty before hfree hr hx).mpr ⟨r', y, hunder, hy, hsame⟩
    exact (hlast _ _).mp (h document hr hwithheld)
  · intro h document hr hwithheld
    obtain ⟨x, hx⟩ : ∃ x, r.hashed? = some x := by
      rw [Received.hashed?, hr]
      exact ⟨_, rfl⟩
    have halike := (withheld_iff htakes hempty before hfree hr hx).mp hwithheld
    rcases halike with ⟨r', y, hunder, hy, hsame⟩
    exact (hlast _ _).mpr (h document x hr hx r' y hunder hy hsame)

/-- Changes of which the same is hashed. -/
theorem collisionFree_of_hashed {l : List Received} {x : Hashed}
    (h : ∀ r ∈ l, r.hashed? = some x) : F.CollisionFree l := by
  intro r hr r' hr' y z hy hz _
  rw [h r hr] at hy
  rw [h r' hr'] at hz
  cases hy
  cases hz
  exact ⟨rfl, fun _ => rfl, rfl⟩

/-- An update that is hashed as the change before it, and does not repeat it, is hidden. -/
theorem twin_hides {a b : Received} {document : Document} {x : Hashed}
    (hb : b.change = .updated document) (hx : b.hashed? = some x) (ha : a.hashed? = some x)
    (hnot : ¬ Updates document (lastOf document.id [a])) :
    F.CollisionFree [a, b] ∧ ¬ ∀ before r after, [a, b] = before ++ r :: after →
      F.HidesNothing (.redb .empty) before r := by
  have hfree : F.CollisionFree [a, b] := collisionFree_of_hashed (x := x) (by simp [ha, hx])
  refine ⟨hfree, ?_⟩
  intro h
  have hbefore := (forall_split_append_singleton (l := [a])).mp h
  have htakes : AnyStore.TakesCursors F.orgId (.redb .empty) := trivial
  have hiff := hidesNothing_iff_noLookalike htakes (fun _ => rfl) [a] hfree hbefore.1
  have hlook := hiff.mp hbefore.2
  exact hnot (hlook document x hb hx a x (lastUnder_singleton ha) ha ⟨rfl, fun _ => rfl, rfl⟩)

end Calm

/-- **No real change is hidden exactly if there is no lookalike.**  No call fails, there are no
cursors at the start and what is hashed of the changes of the stream is told apart by its hash.
Then every update that is withheld repeats the last change of its document that was published,
if and only if every update that is hashed as the last change under its cursor repeats the last
change of its document. -/
theorem hidesNothing_iff {F : Formation} {st : AnyStore} {l : List Received}
    (htakes : st.TakesCursors F.orgId) (hempty : ∀ d, st.cursor F.orgId F.appId d = none)
    (hfree : F.CollisionFree l) :
    (∀ before r after, l = before ++ r :: after → F.HidesNothing st before r) ↔
      ∀ before r after, l = before ++ r :: after → NoLookalike before r := by
  induction l using List.reverseRecOn with
  | nil => simp
  | append_singleton l r ih =>
    have hfree' : F.CollisionFree l := by
      intro r₁ hr₁ r₂ hr₂
      exact hfree r₁ (List.mem_append_left _ hr₁) r₂ (List.mem_append_left _ hr₂)
    rw [forall_split_append_singleton, forall_split_append_singleton, ← ih hfree']
    apply and_congr_right
    intro hl
    exact hidesNothing_iff_noLookalike htakes hempty l hfree hl

/-- A change that comes twice is withheld the second time, and repeats the first. -/
theorem hidesNothing_twice :
    (hookFormation.reached calm (.redb .empty) [hookChange, hookChange]).published =
        (hookFormation.reached calm (.redb .empty) [hookChange]).published ∧
      hookFormation.HidesNothing (.redb .empty) [hookChange] hookChange := by
  have htakes : AnyStore.TakesCursors hookFormation.orgId (.redb .empty) := trivial
  have hfree : hookFormation.CollisionFree [hookChange, hookChange] := by
    refine collisionFree_of_hashed (x := ⟨"doc-1", .empty, 1000⟩) ?_
    simp [hookChange, Received.hashed?, timestampOf]
  have hunder : lastUnder "doc-1" [hookChange] = some hookChange :=
    lastUnder_singleton (x := ⟨"doc-1", .empty, 1000⟩) rfl
  have hnot : ∀ before r after, [hookChange] ++ [hookChange] = before ++ r :: after →
      NoLookalike before r := by
    refine forall_split_append_singleton.mpr ⟨?_, ?_⟩
    · refine (forall_split_append_singleton (l := [])).mpr ⟨by simp, ?_⟩
      intro document x _ _ r' y hunder
      cases hunder
    · intro document x hr _ _ _ _ _ _
      cases hr
      have hlast : lastOf (some "doc-1") [hookChange] = some hookChange := by
        simp [lastOf, lastChange, hookChange, Received.document?]
      exact ⟨hookChange, _, hlast, rfl, fun _ => rfl, rfl⟩
  have hempty : ∀ d, AnyStore.cursor "acme" "logistics" d (.redb .empty) = none := fun _ => rfl
  refine ⟨?_, (hidesNothing_iff htakes hempty hfree).mpr hnot [hookChange] hookChange [] rfl⟩
  exact (withheld_iff htakes hempty [hookChange] hfree rfl rfl).mpr
    ⟨hookChange, _, hunder, rfl, rfl, fun _ => rfl, rfl⟩

/-- Two changes, the second of which is hashed as the first. -/
def removedTwin : List Received := [⟨.removed "doc-1", 1000000000⟩, hookChange]

/-- A document without an id, after one that is called what it is taken for. -/
def namelessTwin : List Received :=
  [⟨.updated ⟨some "unknown", .empty, 1000000000⟩, 0⟩, ⟨.updated ⟨none, .empty, 1000000000⟩, 0⟩]

/-- A document of the time zero, after one of a time before it. -/
def earlyTwin : List Received :=
  [⟨.updated ⟨some "doc-1", .empty, -1000000⟩, 0⟩, ⟨.updated ⟨some "doc-1", .empty, 0⟩, 0⟩]

/-- The formation, if every change has this hash. -/
def hookFormationHashing (hash : UInt64) : Formation :=
  { hookFormation with hasher := fun _ => hash }

/-- An update is hidden by a removal, by an update of another document, and by an update at
another time. -/
theorem hidesNothing_twins :
    (hookFormation.CollisionFree removedTwin ∧
      ¬ ∀ before r after, removedTwin = before ++ r :: after →
        hookFormation.HidesNothing (.redb .empty) before r) ∧
    ((hookFormationHashing 0x47c35051f9d1e66d).CollisionFree namelessTwin ∧
      ¬ ∀ before r after, namelessTwin = before ++ r :: after →
        (hookFormationHashing 0x47c35051f9d1e66d).HidesNothing (.redb .empty) before r) ∧
    ((hookFormationHashing 0x2a3585afabd5658d).CollisionFree earlyTwin ∧
      ¬ ∀ before r after, earlyTwin = before ++ r :: after →
        (hookFormationHashing 0x2a3585afabd5658d).HidesNothing (.redb .empty) before r) := by
  refine ⟨?_, ?_, ?_⟩
  · apply twin_hides rfl rfl rfl
    rintro ⟨r', document', hlast, hchange, -⟩
    have hr' : r' ∈ [(⟨.removed "doc-1", 1000000000⟩ : Received)] := mem_of_lastChange hlast
    rw [List.mem_singleton.mp hr'] at hchange
    cases hchange
  · apply twin_hides rfl rfl rfl
    rintro ⟨r', document', hlast, -⟩
    exact nomatch hlast
  · apply twin_hides rfl rfl rfl
    rintro ⟨r', document', hlast, hchange, -, htime⟩
    have hr' : r' ∈ [(⟨.updated ⟨some "doc-1", .empty, -1000000⟩, 0⟩ : Received)] :=
      mem_of_lastChange hlast
    rw [List.mem_singleton.mp hr'] at hchange
    cases hchange
    exact absurd htime (by decide)

end PeatGateway
