import PeatGateway.Cdc.Cursor
import PeatGateway.Storage.Interchange

/-!
# The task under faults

Three calls of the task can fail at every change: the cursor may not be read, the engine may
not publish, the cursor may not be written.  The loop goes on after each kind of failure.

Here the task is a program over these three calls and the stream, so that any of them can be
made to fail apart from the others.  The engine's own program and the store are what the calls
stand for: with them the rounds are the rounds of `Formation.handle`.

## Main definitions

* `WatchCall`, `Watch` — the three calls.
* `Formation.handleCalls`, `Formation.watch` — a round, and the loop over the stream.
* `cdcCalls` — the programs the calls stand for.
* `Task`, `Task.call` — what the task acts on, and calls that fail by a pattern.
* `Formation.Step`, `Formation.Round` — what a round does.

## Main results

* `handleCalls_implement` — the rounds are those of `Formation.handle`.
* `run_watch` — **the loop consumes the stream**, whatever fails.
* `step_next` — what a round does to the log and to the store.
* `watch_faults` — **what is published, and which cursors change**, whatever fails.
-/

namespace PeatGateway

open Effect

/-! ### The task -/

/-- The calls of a round. -/
inductive WatchCall
  | getCursor (orgId appId documentId : String)
  | publish (event : CdcEvent)
  | setCursor (orgId appId documentId changeHash : String)

/-- What they are answered with. -/
abbrev Watch : Sig := ⟨WatchCall, fun
  | .getCursor _ _ _ => Option String
  | .publish _ => Unit
  | .setCursor _ _ _ _ => Unit⟩

/-- Receiving from the stream: nothing once it has ended. -/
abbrev Stream : Sig := ⟨Unit, fun _ => Option Received⟩

/-- Programs of a round. -/
abbrev WatchProg (α : Type) : Type := Prog Watch Error α

/-- Publish an event and keep its hash. -/
def emitCalls (event : CdcEvent) : WatchProg Unit := do
  let published ← Prog.attempt (S := Watch) (.publish event)
  match published with
  | .error _ => return ()
  | .ok () =>
    let _ ← Prog.attempt (S := Watch)
      (.setCursor event.orgId event.appId event.documentId event.changeHash)
    return ()

namespace Formation

variable (F : Formation)

/-- One round of the loop. -/
def handleCalls (now : SystemTime) : ChangeEvent → WatchProg Unit
  | .updated document => do
    let event := F.updateEvent document
    let cursor ← Prog.attempt (S := Watch) (.getCursor F.orgId F.appId event.documentId)
    if isDuplicate cursor event.changeHash then return () else emitCalls event
  | .removed docId => emitCalls (F.removalEvent docId now)
  | .initial _ => return ()

/-- The loop, for less than `n` changes. -/
def watch : ℕ → Prog (Watch.sum Stream) Error Unit
  | 0 => Prog.bail "the stream has not ended"
  | n + 1 => do
    let received : Option Received ← Prog.perform (S := Watch.sum Stream) (.inr ())
    match received with
    | none => return ()
    | some r =>
      (F.handleCalls r.now r.change).inl
      watch n

end Formation

/-- The programs the calls stand for. -/
def cdcCalls : (c : WatchCall) → CdcProg (Watch.Res c)
  | .getCursor orgId appId documentId => ofStore (TenantManager.getCursor orgId appId documentId)
  | .publish event => publish event
  | .setCursor orgId appId documentId changeHash =>
    ofStore (TenantManager.setCursor orgId appId documentId changeHash)

theorem emitCalls_implement (event : CdcEvent) :
    (emitCalls event).implement cdcCalls = emit event := by
  refine congrArg (Bind.bind (publish event).outcome) (funext ?_)
  intro r
  cases r with
  | error e => rfl
  | ok u => rfl

/-- **The rounds of the task are those it makes with the engine and the store.** -/
theorem handleCalls_implement (F : Formation) (now : SystemTime) (change : ChangeEvent) :
    (F.handleCalls now change).implement cdcCalls = F.handle now change := by
  cases change with
  | updated document =>
    refine congrArg (Bind.bind (ofStore (TenantManager.getCursor F.orgId F.appId
      (F.updateEvent document).documentId)).outcome) (funext ?_)
    intro cursor
    change Prog.implement (S := Watch) cdcCalls (if isDuplicate cursor _ = true then _ else _) =
      if isDuplicate cursor _ = true then _ else _
    split
    · rfl
    · exact emitCalls_implement _
  | removed docId => exact emitCalls_implement _
  | initial documents => rfl

/-! ### Calls that fail -/

/-- What the task acts on: the store, the number of calls so far, and what has been passed to
`publish`, with the outcome. -/
structure Task where
  store : AnyStore
  calls : ℕ
  published : List (CdcEvent × Except Error Unit)

/-- Which calls fail, by the number of calls before them: those to the store, and those to the
engine. -/
structure Pattern where
  store : Faults Error
  engine : ℕ → Except Error Unit

/-- A call to the store. -/
def Task.reach (π : Pattern) (c : StorageCall) (s : Task) : Except Error c.Res × Task :=
  let r := faulty AnyStore.exec π.store c (s.store, s.calls)
  (r.1, { s with store := r.2.1, calls := r.2.2 })

/-- The calls of a round. -/
def Task.call (π : Pattern) : Handler Watch Error Task
  | .getCursor orgId appId documentId, s => s.reach π (.getCursor orgId appId documentId)
  | .publish event, s =>
    (π.engine s.calls,
      { s with calls := s.calls + 1, published := s.published ++ [(event, π.engine s.calls)] })
  | .setCursor orgId appId documentId changeHash, s =>
    s.reach π (.setCursor orgId appId documentId changeHash)

/-- The stream hands out its changes in order. -/
def receive : Handler Stream Error (List Received) := fun _ l => (.ok l.head?, l.tail)

namespace Formation

variable (F : Formation) (π : Pattern)

/-- The state after one round. -/
def next (s : Task) (r : Received) : Task := ((F.handleCalls r.now r.change).run (Task.call π) s).2

/-- The state after the changes, from a store. -/
def reached (st : AnyStore) (l : List Received) : Task := l.foldl (F.next π) ⟨st, 0, []⟩

end Formation

/-! ### The loop -/

section Loop

variable {F : Formation} {π : Pattern}

/-- No round fails. -/
theorem run_emitCalls (event : CdcEvent) (s : Task) :
    ((emitCalls event).run (Task.call π) s).1 = .ok () := by
  rw [emitCalls, Prog.run_attempt_bind]
  cases (Task.call π (.publish event) s).1 <;> rfl

theorem run_handleCalls (s : Task) (r : Received) :
    (F.handleCalls r.now r.change).run (Task.call π) s = (.ok (), F.next π s r) := by
  refine Prod.ext ?_ rfl
  obtain ⟨change, now⟩ := r
  cases change with
  | updated document =>
    rw [Formation.handleCalls, Prog.run_attempt_bind]
    split
    · rfl
    · exact run_emitCalls _ _
  | removed docId => exact run_emitCalls _ _
  | initial documents => rfl

/-- **The loop consumes the stream**, one round for each change, whatever fails. -/
theorem run_watch (s : Task) (l : List Received) {n : ℕ} (hn : l.length < n) :
    (F.watch n).run (Prog.beside (Task.call π) receive) (s, l) =
      (.ok (), l.foldl (F.next π) s, []) := by
  induction l generalizing s n with
  | nil =>
    obtain ⟨n, rfl⟩ := Nat.exists_eq_add_of_lt hn
    rfl
  | cons r l ih =>
    obtain ⟨n, rfl⟩ : ∃ m, n = m + 1 := ⟨n - 1, by omega⟩
    change Prog.run _ ((F.handleCalls r.now r.change).inl >>= fun _ => F.watch n) (s, l) = _
    rw [Prog.run_bind, Prog.run_inl_beside, run_handleCalls, Prog.next_ok]
    exact ih _ (Nat.lt_of_succ_lt_succ hn)

end Loop

/-! ### One round -/

section Reach

variable {π : Pattern} {c : StorageCall} {s : Task}

/-- A call to the store is carried out or not, whatever is reported. -/
theorem store_reach (π : Pattern) (c : StorageCall) (s : Task) : (s.reach π c).2.store = s.store ∨
    (s.reach π c).2.store = (AnyStore.exec c s.store).2 := by
  simp only [Task.reach, faulty]
  split
  · exact Or.inr rfl
  · exact Or.inl rfl
  · exact Or.inr rfl

theorem store_reach_of_isRead (hc : c.isRead = true) : (s.reach π c).2.store = s.store := by
  rcases store_reach π c s with h | h
  · exact h
  · rw [h, AnyStore.exec_of_isRead hc]

/-- A call to the store that succeeds is answered by the store. -/
theorem reach_eq_ok {x : c.Res} (h : (s.reach π c).1 = .ok x) :
    (AnyStore.exec c s.store).1 = .ok x := by
  simp only [Task.reach, faulty] at h
  split at h
  · cases h
  · cases h
  · exact h

end Reach

namespace AnyStore

/-- A cursor that is read is the one in the store. -/
theorem exec_getCursor (st : AnyStore) (o a d : String) :
    exec (.getCursor o a d) st = (.ok (st.cursor o a d), st) := by
  cases st <;> rfl

/-- Writing a cursor changes the cursors under its key only. -/
theorem cursor_exec_setCursor {st : AnyStore} {o a d h o' a' d' : String}
    (hne : (exec (.setCursor o a d h) st).2.cursor o' a' d' ≠ st.cursor o' a' d') :
    cursorKey o a d = cursorKey o' a' d' ∧
      (exec (.setCursor o a d h) st).2.cursor o' a' d' = some h := by
  cases st with
  | redb s =>
    have hget : (exec (.setCursor o a d h) (.redb s)).2.cursor o' a' d' =
        if cursorKey o a d = cursorKey o' a' d' then some h else s.cursors[cursorKey o' a' d']? :=
      Table.get_insert _ _ _ _
    rw [hget] at hne ⊢
    split at hne
    · next hkey => exact ⟨hkey, if_pos hkey⟩
    · exact absurd rfl hne
  | postgres s =>
    by_cases hok : ((s.cursors.select (o, a, d)).isSome || (s.orgs.select o).isSome) = true
    · have hget : (exec (.setCursor o a d h) (.postgres s)).2.cursor o' a' d' =
          if (o, a, d) = (o', a', d') then some h else s.cursors.select (o', a', d') := by
        simp only [exec, Postgres.exec, Postgres.upsertChild, hok, if_true, Postgres.commit, cursor]
        exact Rows.select_upsert _ _ _ _
      rw [hget] at hne ⊢
      split at hne
      · next hkey =>
        cases hkey
        exact ⟨rfl, if_pos rfl⟩
      · exact absurd rfl hne
    · -- there is no organization the row could refer to
      simp only [exec, Postgres.exec, Postgres.upsertChild, hok, Postgres.commit] at hne
      exact absurd rfl hne

end AnyStore

namespace Formation

variable (F : Formation) (π : Pattern)

/-- What a round does: nothing, or it passes the event of the change to `publish` and, if that
succeeds, has its hash written. -/
inductive Step (r : Received) (s s' : Task) : Prop
  | withheld (hlog : s'.published = s.published) (hstore : s'.store = s.store)
  | passed (event : CdcEvent) (outcome : Except Error Unit)
      (hevent : F.event? r.change r.now = some event)
      (hlog : s'.published = s.published ++ [(event, outcome)])
      (hstore : s'.store = s.store ∨ outcome = .ok () ∧ s'.store = (AnyStore.exec
        (.setCursor event.orgId event.appId event.documentId event.changeHash) s.store).2)

end Formation

section Round

variable {F : Formation} {π : Pattern} {s : Task} {r : Received}

/-- What is passed to `publish` is added to the log. -/
theorem published_emitCalls (event : CdcEvent) (s : Task) :
    ((emitCalls event).run (Task.call π) s).2.published =
      s.published ++ [(event, π.engine s.calls)] := by
  rw [emitCalls, Prog.run_attempt_bind]
  cases (Task.call π (.publish event) s).1 <;> rfl

/-- The hash is written only after the event has been published. -/
theorem store_emitCalls (event : CdcEvent) (s : Task) :
    ((emitCalls event).run (Task.call π) s).2.store = s.store ∨
      π.engine s.calls = .ok () ∧ ((emitCalls event).run (Task.call π) s).2.store =
        (AnyStore.exec (.setCursor event.orgId event.appId event.documentId event.changeHash)
          s.store).2 := by
  rw [emitCalls, Prog.run_attempt_bind]
  cases hout : (Task.call π (.publish event) s).1 with
  | error e => exact Or.inl rfl
  | ok u => exact (store_reach π _ _).imp id fun h => ⟨hout, h⟩

/-- What publishing an event does, if nothing has changed before. -/
theorem emitCalls_step {event : CdcEvent} (hevent : F.event? r.change r.now = some event)
    {s₀ : Task} (hlog : s.published = s₀.published) (hstore : s.store = s₀.store) :
    F.Step r s₀ ((emitCalls event).run (Task.call π) s).2 := by
  refine .passed event (π.engine s.calls) hevent ?_ ?_
  · rw [published_emitCalls, hlog]
  · rw [← hstore]
    exact store_emitCalls event s

/-- **What a round does.** -/
theorem step_next (F : Formation) (π : Pattern) (s : Task) (r : Received) :
    F.Step r s (F.next π s r) := by
  obtain ⟨change, now⟩ := r
  cases change with
  | updated document =>
    rw [Formation.next, Formation.handleCalls, Prog.run_attempt_bind]
    split
    · exact .withheld rfl (store_reach_of_isRead rfl)
    · exact emitCalls_step rfl rfl (store_reach_of_isRead rfl)
  | removed docId => exact emitCalls_step rfl rfl rfl
  | initial documents => exact .withheld rfl rfl

theorem isDuplicate_iff {cursor : Except Error (Option String)} {changeHash : String} :
    isDuplicate cursor changeHash = true ↔ cursor = .ok (some changeHash) := by
  unfold isDuplicate
  split <;> simp_all

/-- **An update is withheld exactly when its hash was read as the cursor.** -/
theorem withheld_updated_iff {document : Document} (hr : r.change = .updated document) :
    (F.next π s r).published = s.published ↔
      (s.reach π (.getCursor F.orgId F.appId (F.updateEvent document).documentId)).1 =
        .ok (some (F.updateEvent document).changeHash) := by
  rw [← isDuplicate_iff, Formation.next, hr, Formation.handleCalls, Prog.run_attempt_bind]
  split
  · next hdup => exact iff_of_true rfl hdup
  · next hdup =>
    rw [published_emitCalls]
    refine iff_of_false ?_ hdup
    intro h
    exact absurd (List.append_right_eq_self.mp h) (List.cons_ne_nil _ _)

/-- A removal is never withheld. -/
theorem not_withheld_removed {docId : String} (hr : r.change = .removed docId) :
    (F.next π s r).published ≠ s.published := by
  rw [Formation.next, hr, Formation.handleCalls, published_emitCalls]
  exact fun h => absurd (List.append_right_eq_self.mp h) (List.cons_ne_nil _ _)

/-- An event is of the formation that is watched. -/
theorem event?_ids {change : ChangeEvent} {now : SystemTime} {event : CdcEvent}
    (h : F.event? change now = some event) : event.orgId = F.orgId ∧ event.appId = F.appId := by
  cases change with
  | updated document => cases h; exact ⟨rfl, rfl⟩
  | removed docId => cases h; exact ⟨rfl, rfl⟩
  | initial documents => cases h

/-- A round writes under the key of the document of its event, and only if that has been
published. -/
theorem Formation.Step.cursorKey {s' : Task} (h : F.Step r s s') {o a d : String}
    (hne : s'.store.cursor o a d ≠ s.store.cursor o a d) :
    ∃ event, F.event? r.change r.now = some event ∧
      cursorKey F.orgId F.appId event.documentId = cursorKey o a d ∧
      s'.published = s.published ++ [(event, .ok ())] ∧
      s'.store.cursor o a d = some event.changeHash := by
  cases h with
  | withheld hlog hstore => exact absurd (congrArg (AnyStore.cursor o a d) hstore) hne
  | passed event outcome hevent hlog hstore =>
    obtain ⟨horg, happ⟩ := event?_ids hevent
    rcases hstore with hstore | ⟨rfl, hstore⟩
    · exact absurd (congrArg (AnyStore.cursor o a d) hstore) hne
    · rw [hstore] at hne ⊢
      obtain ⟨hkey, hcursor⟩ := AnyStore.cursor_exec_setCursor hne
      rw [horg, happ] at hkey
      exact ⟨event, hevent, hkey, hlog, hcursor⟩

/-- **A cursor changes only to the hash of an event of its document that has been published.** -/
theorem Formation.Step.cursors {s' : Task} (h : F.Step r s s') {d : String}
    (hne : s'.store.cursor F.orgId F.appId d ≠ s.store.cursor F.orgId F.appId d) :
    ∃ event, F.event? r.change r.now = some event ∧ event.documentId = d ∧
      s'.published = s.published ++ [(event, .ok ())] ∧
      s'.store.cursor F.orgId F.appId d = some event.changeHash := by
  obtain ⟨event, hevent, hkey, hrest⟩ := h.cursorKey hne
  exact ⟨event, hevent, Text.glue_cancel (Text.glue_cancel hkey), hrest⟩

/-- **The cursors of other formations do not change.** -/
theorem Formation.Step.others {s' : Task} (h : F.Step r s s') (hO : NulFree F.orgId)
    (hA : NulFree F.appId) {o a : String} (d : String) (ho : NulFree o) (ha : NulFree a)
    (hother : (o, a) ≠ (F.orgId, F.appId)) :
    s'.store.cursor o a d = s.store.cursor o a d := by
  by_contra hne
  obtain ⟨event, -, hkey, -⟩ := h.cursorKey hne
  obtain ⟨rfl, hkey'⟩ := Text.glue_inj hO ho hkey
  obtain ⟨rfl, -⟩ := Text.glue_inj hA ha hkey'
  exact hother rfl

end Round

/-! ### The whole stream -/

/-- A round, as it is seen from outside: what is passed to `publish`, and which cursors
change. -/
structure Formation.Round (F : Formation) (π : Pattern) (r : Received) (s s' : Task) : Prop where
  once : s'.published = s.published ∨ ∃ event outcome, F.event? r.change r.now = some event ∧
    s'.published = s.published ++ [(event, outcome)]
  updated : ∀ document, r.change = .updated document → (s'.published = s.published ↔
    (s.reach π (.getCursor F.orgId F.appId (F.updateEvent document).documentId)).1 =
      .ok (some (F.updateEvent document).changeHash))
  removed : ∀ docId, r.change = .removed docId → s'.published ≠ s.published
  initial : ∀ documents, r.change = .initial documents → s'.published = s.published
  cursors : ∀ d, s'.store.cursor F.orgId F.appId d ≠ s.store.cursor F.orgId F.appId d →
    ∃ event, F.event? r.change r.now = some event ∧ event.documentId = d ∧
      s'.published = s.published ++ [(event, .ok ())] ∧
      s'.store.cursor F.orgId F.appId d = some event.changeHash
  others : NulFree F.orgId → NulFree F.appId → ∀ o a d, NulFree o → NulFree a →
    (o, a) ≠ (F.orgId, F.appId) → s'.store.cursor o a d = s.store.cursor o a d

section Stream

variable {F : Formation} {π : Pattern} {s : Task}

theorem round_next (r : Received) : F.Round π r s (F.next π s r) where
  once := by
    cases step_next F π s r with
    | withheld hlog hstore => exact Or.inl hlog
    | passed event outcome hevent hlog hstore => exact Or.inr ⟨event, outcome, hevent, hlog⟩
  updated document hr := withheld_updated_iff hr
  removed docId hr := not_withheld_removed hr
  initial documents hr := by rw [Formation.next, hr]; rfl
  cursors _ hne := (step_next F π s r).cursors hne
  others hO hA _ _ d ho ha hother := (step_next F π s r).others hO hA d ho ha hother

/-- **What is published while the changes are taken**: at most one event for each, in their
order. -/
theorem published_foldl (F : Formation) (π : Pattern) (l : List Received) (s : Task) :
    ∃ log, (l.foldl (F.next π) s).published = s.published ++ log ∧
      (log.map Prod.fst).Sublist (l.filterMap fun r => F.event? r.change r.now) := by
  induction l generalizing s with
  | nil => exact ⟨[], (List.append_nil _).symm, List.Sublist.refl _⟩
  | cons r l ih =>
    obtain ⟨log, hlog, hsub⟩ := ih (F.next π s r)
    rw [List.foldl_cons, hlog]
    cases step_next F π s r with
    | withheld hround hstore =>
      refine ⟨log, by rw [hround], hsub.trans ?_⟩
      exact List.Sublist.filterMap _ (List.sublist_cons_self r l)
    | passed event outcome hevent hround hstore =>
      refine ⟨(event, outcome) :: log, by rw [hround, List.append_assoc]; rfl, ?_⟩
      rw [List.filterMap_cons_some (f := fun r : Received => F.event? r.change r.now) hevent,
        List.map_cons]
      exact hsub.cons_cons event

/-- The cursor of a document stays as it is until an event of the document is published. -/
theorem cursor_foldl {d : String} (l : List Received) (s : Task)
    (h : ∀ event, (event, .ok ()) ∈ (l.foldl (F.next π) s).published.drop s.published.length →
      event.documentId ≠ d) :
    (l.foldl (F.next π) s).store.cursor F.orgId F.appId d = s.store.cursor F.orgId F.appId d := by
  induction l generalizing s with
  | nil => rfl
  | cons r l ih =>
    obtain ⟨log, hlog, -⟩ := published_foldl F π l (F.next π s r)
    rw [List.foldl_cons, hlog] at h
    rw [List.foldl_cons]
    -- what this round passes to `publish` comes first in what is published from here on
    obtain ⟨here, hhere⟩ : ∃ here, (F.next π s r).published = s.published ++ here := by
      cases step_next F π s r with
      | withheld hround hstore => exact ⟨[], by rw [hround, List.append_nil]⟩
      | passed event outcome hevent hround hstore => exact ⟨_, hround⟩
    rw [hhere, List.append_assoc, List.drop_left] at h
    have hrest : (l.foldl (F.next π) (F.next π s r)).store.cursor F.orgId F.appId d =
        (F.next π s r).store.cursor F.orgId F.appId d := by
      refine ih _ fun event hmem => h event (List.mem_append_right _ ?_)
      rwa [hlog, List.drop_left] at hmem
    rw [hrest]
    by_contra hne
    obtain ⟨event, -, hdoc, hround, -⟩ := (step_next F π s r).cursors hne
    rw [hhere, List.append_cancel_left_eq] at hround
    exact h event (List.mem_append_left _ (by rw [hround]; exact List.mem_singleton_self _)) hdoc

/-- **An update whose hash is not the cursor is passed to `publish`.** -/
theorem passed_of_cursor_ne {document : Document} {r : Received} (hr : r.change = .updated document)
    (hne : s.store.cursor F.orgId F.appId (F.updateEvent document).documentId ≠
      some (F.updateEvent document).changeHash) :
    ∃ outcome, (F.next π s r).published =
      s.published ++ [(F.updateEvent document, outcome)] := by
  have hread : (F.next π s r).published ≠ s.published := by
    rw [ne_eq, withheld_updated_iff hr]
    intro hok
    have hexec := reach_eq_ok (c := .getCursor F.orgId F.appId _) hok
    rw [AnyStore.exec_getCursor] at hexec
    exact hne (Except.ok.inj hexec)
  cases step_next F π s r with
  | withheld hlog hstore => exact absurd hlog hread
  | passed event outcome hevent hlog hstore =>
    rw [hr] at hevent
    obtain rfl := Option.some.inj hevent
    exact ⟨outcome, hlog⟩

end Stream

/-- **The task under faults.**  Whatever the store holds, whatever the stream, and whichever
calls fail: the loop consumes the stream; at most one event is passed to `publish` for each
change, in the order of the stream; an update is withheld exactly when its hash was read as
the cursor, a removal never, a snapshot always; a cursor of the formation changes only to the
hash of an event of its document that has been published in the same round, and no cursor of
another formation changes.  So an update that could not be published, with another cursor
stored, is passed to `publish` when it comes again before another event of the document has
been published. -/
theorem watch_faults (F : Formation) (π : Pattern) (st : AnyStore) (l : List Received) :
    (∀ n, l.length < n → (F.watch n).run (Prog.beside (Task.call π) receive) (⟨st, 0, []⟩, l) =
      (.ok (), F.reached π st l, [])) ∧
    ((F.reached π st l).published.map Prod.fst).Sublist
      (l.filterMap fun r => F.event? r.change r.now) ∧
    (∀ l₁ r l₂, l = l₁ ++ r :: l₂ →
      F.Round π r (F.reached π st l₁) (F.reached π st (l₁ ++ [r]))) ∧
    ∀ l₁ r l₂ r' l₃ document e, l = l₁ ++ r :: (l₂ ++ r' :: l₃) →
      r.change = .updated document → r'.change = .updated document →
      (F.reached π st (l₁ ++ [r])).published =
        (F.reached π st l₁).published ++ [(F.updateEvent document, .error e)] →
      (F.reached π st (l₁ ++ [r])).store.cursor F.orgId F.appId (F.updateEvent document).documentId
        ≠ some (F.updateEvent document).changeHash →
      (∀ event, (event, .ok ()) ∈ (F.reached π st (l₁ ++ [r] ++ l₂)).published.drop
          (F.reached π st (l₁ ++ [r])).published.length →
        event.documentId ≠ (F.updateEvent document).documentId) →
      ∃ outcome, (F.reached π st (l₁ ++ [r] ++ l₂ ++ [r'])).published =
        (F.reached π st (l₁ ++ [r] ++ l₂)).published ++ [(F.updateEvent document, outcome)] := by
  have happend : ∀ l₁ l₂, F.reached π st (l₁ ++ l₂) = l₂.foldl (F.next π) (F.reached π st l₁) :=
    fun l₁ l₂ => List.foldl_append
  refine ⟨fun n hn => run_watch _ l hn, ?_, ?_, ?_⟩
  · obtain ⟨log, hlog, hsub⟩ := published_foldl F π l ⟨st, 0, []⟩
    rw [Formation.reached, hlog]
    exact hsub
  · intro l₁ r l₂ _
    rw [happend]
    exact round_next r
  · intro l₁ r l₂ r' l₃ document e _ _ hr' _ hne hquiet
    rw [happend (l₁ ++ [r] ++ l₂) [r']]
    apply passed_of_cursor_ne hr'
    rw [happend (l₁ ++ [r]) l₂] at hquiet ⊢
    rw [cursor_foldl l₂ _ hquiet]
    exact hne

/-- The engine cannot be reached the first time. -/
def onceUnreachable : Pattern where
  store _ := none
  engine n := if n = 1 then .error "connection refused" else .ok ()

/-- A change that comes twice, and cannot be published the first time, is published the
second time. -/
theorem watch_faults_twice :
    ∃ outcome,
      (hookFormation.reached onceUnreachable hookStore [hookChange, hookChange]).published =
        [(hookEvent, .error "connection refused"), (hookEvent, outcome)] := by
  have hfirst : (hookFormation.reached onceUnreachable hookStore [hookChange]).published =
      [(hookEvent, .error "connection refused")] := rfl
  have hcursor : (hookFormation.reached onceUnreachable hookStore [hookChange]).store.cursor "acme"
      "logistics" "doc-1" = none := by decide +kernel
  obtain ⟨-, -, -, hagain⟩ := watch_faults hookFormation onceUnreachable hookStore
    [hookChange, hookChange]
  obtain ⟨outcome, houtcome⟩ := hagain [] hookChange [] hookChange [] _ "connection refused" rfl rfl
    rfl hfirst (fun h => nomatch hcursor.symm.trans h) nofun
  exact ⟨outcome, houtcome.trans (congrArg (· ++ [(hookEvent, outcome)]) hfirst)⟩

end PeatGateway
