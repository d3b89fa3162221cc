import PeatGateway.Mesh.Diffs

/-!
# Changes that could not be published

A poll hands its changes to the engine one after the other and goes on whatever becomes of them;
then the snapshot is replaced.  The next poll compares with that snapshot, so a change that could
not be published counts as known.

Here a poll is a program over the calls to the engine, any of which can be made to fail.

## Main definitions

* `Publish`, `publishEach`, `RemoteBroker.refreshCalls` — the calls of a poll, and the poll.
* `RemoteBroker.attempts`, `RemoteBroker.attempted` — what was handed to the engine, with what
  became of it, in a run and in one poll.
* `RemoteBroker.Retried` — what failed and is listed again is handed to the engine again.
* `RemoteBroker.Outlasting` — what failed and is listed again is not what the snapshot holds.

## Main results

* `run_attempts` — the polls are those of `RemoteBroker.run`, whatever fails.
* `retried_iff` — **when a change that failed is tried again in the next poll**.
* `untilPublished_of_retried` — if all are, a change is tried until it has been published.
* `retries_iff` — **in a run every change is tried until it has been published exactly if what
  fails is never what the snapshot holds**.
-/

namespace PeatGateway

open Effect

/-! ### Polls as programs -/

/-- The calls of a poll to the engine. -/
abbrev Publish : Sig := ⟨Change, fun _ => Unit⟩

/-- What was handed to the engine, with what became of it. -/
abbrev Attempts : Type := List (Change × Except Error Unit)

/-- Publish the changes.  One that cannot be published is only noted in the log. -/
def publishEach : List Change → Prog Publish Error Unit
  | [] => return ()
  | change :: changes => do
    let _ ← Prog.attempt (S := Publish) change
    publishEach changes

/-- The engine: what becomes of a call is up to the number of calls before it. -/
def engineCall (π : ℕ → Except Error Unit) : Handler Publish Error Attempts :=
  fun change log => (π log.length, log ++ [(change, π log.length)])

namespace RemoteBroker

variable (B : RemoteBroker) (π : ℕ → Except Error Unit)

/-- `refresh_once`: the changes are published before the snapshot is replaced. -/
def refreshCalls (p : Poll) (st : RemoteBrokerState) :
    Prog Publish Error RemoteBrokerState := do
  let new ← Prog.ofExcept (B.fetch p)
  let changes := if B.cdcEngine then B.publishCdcDiffs p.orders st.snapshot new p.now else []
  publishEach changes
  return ⟨new, st.published ++ changes, st.events ++ emitDiffs p.orders st.snapshot new⟩

/-- One round of the refresh loop. -/
def round (s : RemoteBrokerState × Attempts) (p : Poll) : RemoteBrokerState × Attempts :=
  match (B.refreshCalls p s.1).run (engineCall π) s.2 with
  | (.ok st, log) => (st, log)
  | (.error err, log) => (s.1.recordError err, log)

/-- The state after some polls, and what was handed to the engine. -/
def runCalls (polls : List Poll) : RemoteBrokerState × Attempts :=
  polls.foldl (B.round π) (B.init, [])

/-- What was handed to the engine in some polls. -/
def attempts (polls : List Poll) : Attempts := (B.runCalls π polls).2

/-- What a poll hands to the engine after the others. -/
def attempted (polls : List Poll) (p : Poll) : Attempts :=
  (B.attempts π (polls ++ [p])).drop (B.attempts π polls).length

end RemoteBroker

section Calls

variable {B : RemoteBroker} {π : ℕ → Except Error Unit}

/-- What becomes of changes that are published after a number of others. -/
def outcomes (π : ℕ → Except Error Unit) (n : ℕ) (changes : List Change) : Attempts :=
  (changes.zipIdx n).map fun x => (x.1, π x.2)

theorem outcomes_append (n : ℕ) (l l' : List Change) :
    outcomes π n (l ++ l') = outcomes π n l ++ outcomes π (n + l.length) l' := by
  rw [outcomes, List.zipIdx_append, List.map_append]
  rfl

@[simp] theorem length_outcomes (n : ℕ) (l : List Change) : (outcomes π n l).length = l.length := by
  rw [outcomes, List.length_map, List.length_zipIdx]

theorem map_fst_outcomes (π : ℕ → Except Error Unit) (n : ℕ) (l : List Change) :
    (outcomes π n l).map Prod.fst = l := by
  rw [outcomes, List.map_map]
  exact List.zipIdx_map_fst n l

/-- Every change is handed to the engine once, in order, whatever becomes of the others. -/
theorem run_publishEach (changes : List Change) (log : Attempts) :
    (publishEach changes).run (engineCall π) log =
      (.ok (), log ++ outcomes π log.length changes) := by
  induction changes generalizing log with
  | nil => rw [outcomes, List.zipIdx_nil, List.map_nil, List.append_nil]; rfl
  | cons change changes ih =>
    rw [publishEach, Prog.run_attempt_bind, ih, engineCall, List.append_assoc, List.length_append]
    rfl

/-- A poll goes on whatever becomes of its changes. -/
theorem round_eq (p : Poll) (st : RemoteBrokerState) (log : Attempts)
    (hlog : log = outcomes π 0 st.published) :
    B.round π (st, log) p = (B.poll st p, outcomes π 0 (B.poll st p).published) := by
  rw [RemoteBroker.round, RemoteBroker.refreshCalls, RemoteBroker.poll, RemoteBroker.refreshOnce,
    Prog.run_ofExcept_bind]
  cases B.fetch p with
  | error err => simp [hlog, RemoteBrokerState.recordError]
  | ok new =>
    rw [Prog.next_ok, Prog.run_bind, run_publishEach, Prog.next_ok]
    cases B.cdcEngine with
    | true =>
      refine Prod.ext rfl ?_
      change log ++ outcomes π log.length _ = outcomes π 0 (st.published ++ _)
      rw [outcomes_append, hlog, length_outcomes, Nat.zero_add]
      rfl
    | false =>
      refine Prod.ext ?_ ?_
      · simp
      · exact (List.append_nil log).trans hlog

/-- **The polls are those of `RemoteBroker.run`**, whatever fails, and hand over its changes. -/
theorem run_attempts (polls : List Poll) :
    B.runCalls π polls = (B.run polls, outcomes π 0 (B.run polls).published) := by
  induction polls using List.reverseRecOn with
  | nil => rfl
  | append_singleton polls p ih =>
    rw [run_append, RemoteBroker.runCalls, List.foldl_append, List.foldl_cons, List.foldl_nil]
    change B.round π (B.runCalls π polls) p = _
    rw [ih]
    exact round_eq p _ _ rfl

/-- What a poll hands to the engine is what it publishes. -/
theorem attempted_eq (polls : List Poll) (p : Poll) :
    B.attempted π polls p =
      outcomes π (B.run polls).published.length (B.newChanges polls p) := by
  rw [RemoteBroker.attempted, RemoteBroker.attempts, RemoteBroker.attempts, run_attempts,
    run_attempts, published_append, outcomes_append, List.drop_left, Nat.zero_add]

theorem mem_newChanges_of_attempted {polls : List Poll} {p : Poll} {change : Change}
    {outcome : Except Error Unit} (h : (change, outcome) ∈ B.attempted π polls p) :
    change ∈ B.newChanges polls p := by
  rw [attempted_eq] at h
  rw [← map_fst_outcomes π (B.run polls).published.length (B.newChanges polls p)]
  exact List.mem_map.mpr ⟨_, h, rfl⟩

theorem attempted_of_mem_newChanges (π : ℕ → Except Error Unit) {polls : List Poll} {p : Poll}
    {change : Change} (h : change ∈ B.newChanges polls p) :
    ∃ outcome, (change, outcome) ∈ B.attempted π polls p := by
  rw [← map_fst_outcomes π (B.run polls).published.length (B.newChanges polls p),
    ← attempted_eq] at h
  rcases List.mem_map.mp h with ⟨x, hx, rfl⟩
  exact ⟨x.2, hx⟩

/-- What becomes of a change is up to the engine. -/
theorem outcome_of_attempted {polls : List Poll} {p : Poll} {change : Change}
    {outcome : Except Error Unit} (h : (change, outcome) ∈ B.attempted π polls p) :
    ∃ n, outcome = π n := by
  rw [attempted_eq] at h
  rcases List.mem_map.mp h with ⟨x, -, hx⟩
  exact ⟨x.2, (congrArg Prod.snd hx).symm⟩

end Calls

/-! ### Trying again -/

namespace RemoteBroker

variable (B : RemoteBroker) (π : ℕ → Except Error Unit)

/-- The poll lists the document of the change as the change has it. -/
def Lists (p : Poll) (change : Change) : Prop :=
  ∃ docs, B.listing p change.collection = some docs ∧ change.event.patches ∈ docs

/-- A change of the same document to the same content. -/
structure SameDocument (change again : Change) : Prop where
  collection : again.collection = change.collection
  docId : again.docId = change.docId
  patches : again.event.patches = change.event.patches

/-- The poll hands the change to the engine, with this outcome. -/
def Tries (polls : List Poll) (p : Poll) (change : Change) (outcome : Except Error Unit) : Prop :=
  ∃ again, SameDocument change again ∧ (again, outcome) ∈ B.attempted π polls p

/-- What fails in a poll and is listed in the next is handed to the engine again. -/
def Retried (polls : List Poll) (p q : Poll) : Prop :=
  ∀ change e, (change, .error e) ∈ B.attempted π polls p → B.Lists q change →
    ∃ outcome, B.Tries π (polls ++ [p]) q change outcome

/-- What fails in a poll and is listed in the next is not what the snapshot holds of the document:
another document with its id came after it. -/
def Outlasting (polls : List Poll) (p q : Poll) : Prop :=
  ∀ change e, (change, .error e) ∈ B.attempted π polls p → B.Lists q change →
    hashById B.hasher ((B.listing p change.collection).getD []) change.docId ≠
      some (docContentHash B.hasher change.event.patches)

/-- A change is tried in every poll that lists it, from the one in which it failed on, until it
has been published. -/
def UntilPublished (polls : List Poll) : Prop :=
  ∀ before p between q after change e, polls = before ++ p :: (between ++ q :: after) →
    (change, .error e) ∈ B.attempted π before p →
    (∀ r ∈ between ++ [q], B.Lists r change) →
    (∀ earlier r later, between = earlier ++ r :: later →
      ¬ B.Tries π (before ++ p :: earlier) r change (.ok ())) →
    ∃ outcome, B.Tries π (before ++ p :: between) q change outcome

end RemoteBroker

section Retry

variable {B : RemoteBroker} {π : ℕ → Except Error Unit}

/-- What a poll lists is what the snapshot holds after it. -/
theorem heldListing_of_listing (polls : List Poll) {p : Poll} {c : String} {docs : List Json}
    (h : B.listing p c = some docs) : B.heldListing (polls ++ [p]) c = some docs := by
  have hp : p.succeeds = true := by
    unfold RemoteBroker.listing at h
    split at h
    · assumption
    · cases h
  rw [RemoteBroker.heldListing, lastSuccess_append, hp]
  exact h

/-- A change that is listed is tried again exactly if it is not what the snapshot holds. -/
theorem tries_iff (hcdc : B.cdcEngine = true) {polls : List Poll} {p q : Poll} {change : Change}
    (hchange : change ∈ B.newChanges polls p) (hlists : B.Lists q change) :
    (∃ outcome, B.Tries π (polls ++ [p]) q change outcome) ↔
      hashById B.hasher ((B.listing p change.collection).getD []) change.docId ≠
        some (docContentHash B.hasher change.event.patches) := by
  rcases (mem_newChanges hcdc).mp hchange with ⟨docs, hlisting, doc, hdoc, hid, -, hevent⟩
  have hpatches : change.event.patches = doc := by rw [hevent]; rfl
  have hheld := heldListing_of_listing polls hlisting
  rw [hashById_eq, hlisting, Option.getD_some, hpatches]
  constructor
  · intro htries
    rcases htries with ⟨outcome, again, hsame, hmem⟩
    have hagain := (mem_newChanges hcdc).mp (mem_newChanges_of_attempted hmem)
    rcases hagain with ⟨docs', -, doc', -, -, hne, hevent'⟩
    have hdoc' : doc' = doc := by
      rw [← hpatches, ← hsame.patches, hevent']
      rfl
    rw [hsame.collection, hsame.docId, hheld, Option.getD_some, hdoc'] at hne
    exact hne
  · intro hne
    rcases hlists with ⟨docs', hlisting', hdoc'⟩
    rw [hpatches] at hdoc'
    let again : Change :=
      ⟨change.collection, change.docId, B.changeEvent change.collection change.docId doc q.now⟩
    have hagain : again ∈ B.newChanges (polls ++ [p]) q := by
      refine (mem_newChanges hcdc).mpr ⟨docs', hlisting', doc, hdoc', hid, ?_, rfl⟩
      rw [hheld, Option.getD_some]
      exact hne
    rcases attempted_of_mem_newChanges π hagain with ⟨outcome, hmem⟩
    exact ⟨outcome, again, ⟨rfl, rfl, hpatches.symm⟩, hmem⟩

/-- **A change that failed is tried again in the next poll exactly if it is not what the snapshot
holds.** -/
theorem retried_iff (hcdc : B.cdcEngine = true) {polls : List Poll} {p q : Poll} :
    B.Retried π polls p q ↔ B.Outlasting π polls p q := by
  apply forall₄_congr
  intro change e hmem hlists
  exact tries_iff hcdc (mem_newChanges_of_attempted hmem) hlists

/-- **If what failed is always tried again in the next poll, it is tried until it has been
published.** -/
theorem untilPublished_of_retried {polls : List Poll}
    (h : ∀ before p q after, polls = before ++ p :: q :: after → B.Retried π before p q) :
    B.UntilPublished π polls := by
  intro before p between q after change e hpolls hfailed hlists hnever
  induction between using List.reverseRecOn generalizing q after with
  | nil => exact h before p q after hpolls change e hfailed (hlists q List.mem_cons_self)
  | append_singleton between r ih =>
    -- the poll before this one has tried the change, and failed
    have hbefore : ∃ outcome, B.Tries π (before ++ p :: between) r change outcome := by
      refine ih r (q :: after) ?_ ?_ ?_
      · rw [hpolls, List.append_assoc]
        rfl
      · intro r' hr'
        exact hlists r' (List.mem_append_left _ hr')
      · intro earlier r' later hsplit
        apply hnever earlier r' (later ++ [r])
        rw [hsplit, List.append_assoc]
        rfl
    rcases hbefore with ⟨outcome, again, hsame, hagain⟩
    have hlists' : B.Lists q again := by
      rcases hlists q (List.mem_append_right _ (List.mem_singleton_self q)) with ⟨docs, hdocs, hdoc⟩
      refine ⟨docs, ?_, ?_⟩
      · rw [hsame.collection]
        exact hdocs
      · rw [hsame.patches]
        exact hdoc
    cases outcome with
    | ok u => exact absurd ⟨again, hsame, hagain⟩ (hnever between r [] rfl)
    | error e' =>
      have hsplit : polls = (before ++ p :: between) ++ r :: q :: after := by
        rw [hpolls, List.append_assoc, List.append_assoc]
        rfl
      have hretried := h _ r q after hsplit again e' hagain hlists'
      rcases hretried with ⟨outcome, again', hsame', hagain'⟩
      refine ⟨outcome, again', ?_, ?_⟩
      · exact ⟨hsame'.collection.trans hsame.collection, hsame'.docId.trans hsame.docId,
          hsame'.patches.trans hsame.patches⟩
      · rw [List.append_assoc] at hagain'
        exact hagain'

end Retry

/-- **In a run every change is tried until it has been published exactly if what fails is never
what the snapshot holds**: whenever a change fails that the next poll lists again, another document
with its id, of another hash, came after it. -/
theorem retries_iff {B : RemoteBroker} {π : ℕ → Except Error Unit} {polls : List Poll}
    (hcdc : B.cdcEngine = true) :
    ((∀ before p q after, polls = before ++ p :: q :: after → B.Retried π before p q) ∧
      B.UntilPublished π polls) ↔
      ∀ before p q after, polls = before ++ p :: q :: after → B.Outlasting π before p q := by
  have hpairs : (∀ before p q after, polls = before ++ p :: q :: after → B.Retried π before p q) ↔
      ∀ before p q after, polls = before ++ p :: q :: after → B.Outlasting π before p q :=
    forall₅_congr fun before p q after _ => retried_iff hcdc
  rw [← hpairs]
  constructor
  · intro h
    exact h.1
  · intro h
    exact ⟨h, untilPublished_of_retried h⟩

/-! ### The broker with one collection -/

/-- The engine cannot be reached. -/
def unreachable : ℕ → Except Error Unit := fun _ => .error "connection refused"

/-- The change to the first track. -/
def trackChange : Change :=
  ⟨"tracks", "t1", trackBroker.changeEvent "tracks" "t1" (track "1") 1⟩

/-- A track is tried in the first poll that lists it, and fails. -/
theorem attempted_trackChange {docs : List Json} (h : track "1" ∈ docs) :
    (trackChange, .error "connection refused") ∈
      trackBroker.attempted unreachable [] (trackPoll (.ok docs)) := by
  have hnew : trackChange ∈ trackBroker.newChanges [] (trackPoll (.ok docs)) :=
    (mem_newChanges rfl).mpr ⟨docs, rfl, track "1", h, rfl, nofun, rfl⟩
  rcases attempted_of_mem_newChanges unreachable hnew with ⟨outcome, hmem⟩
  rcases outcome_of_attempted hmem with ⟨n, houtcome⟩
  rw [houtcome] at hmem
  exact hmem

/-- A change that failed is tried again, since another document of its id came after it. -/
theorem retries_twin :
    ∃ outcome, trackBroker.Tries unreachable [trackPoll (.ok [track "1", track "2"])]
      (trackPoll (.ok [track "1"])) trackChange outcome := by
  have hlater : ∀ before p q after,
      [.ok [track "1", track "2"], .ok [track "1"]].map trackPoll = before ++ p :: q :: after →
      trackBroker.Outlasting unreachable before p q := by
    intro before p q after hsplit change e hmem hlists
    have hbefore : before = [] := by
      have hlen := congrArg List.length hsplit
      rw [List.length_append] at hlen
      exact List.length_eq_zero_iff.mp (by simp at hlen; omega)
    subst hbefore
    simp only [List.map_cons, List.map_nil, List.nil_append, List.cons.injEq] at hsplit
    rcases hsplit with ⟨rfl, rfl, -⟩
    have hchange := (mem_newChanges rfl).mp (mem_newChanges_of_attempted hmem)
    rcases hchange with ⟨docs, hlisting, doc, -, hid, -, hevent⟩
    rcases hlists with ⟨docs', hlisting', hdoc'⟩
    rcases of_select_collectDocuments hlisting with ⟨i, -, hdocs⟩
    rcases of_select_collectDocuments hlisting' with ⟨j, -, hdocs'⟩
    cases hdocs
    cases hdocs'
    have hpatches : change.event.patches = track "1" := List.mem_singleton.mp hdoc'
    have hdoc : doc = track "1" := by
      rw [← hpatches, hevent]
      rfl
    rw [hdoc] at hid
    have hid' : "t1" = change.docId := Option.some.inj hid
    rw [hlisting, hpatches, ← hid', Option.getD_some]
    decide +kernel
  exact ((retries_iff rfl).mpr hlater).1 [] _ _ [] rfl trackChange _
    (attempted_trackChange List.mem_cons_self) ⟨_, rfl, List.mem_cons_self⟩

/-- A document that is listed twice as it is, and cannot be published the first time, is not tried
again. -/
theorem retries_dropped :
    ¬ ((∀ before p q after, [.ok [track "1"], .ok [track "1"]].map trackPoll =
          before ++ p :: q :: after → trackBroker.Retried unreachable before p q) ∧
      trackBroker.UntilPublished unreachable
        ([.ok [track "1"], .ok [track "1"]].map trackPoll)) := by
  intro h
  have hlater := (retried_iff rfl).mp (h.1 [] _ _ [] rfl)
  exact hlater trackChange _ (attempted_trackChange List.mem_cons_self)
    ⟨_, rfl, List.mem_cons_self⟩ rfl

end PeatGateway
