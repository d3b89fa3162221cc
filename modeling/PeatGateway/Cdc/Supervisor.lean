import PeatGateway.Cdc.Task

/-!
# Many watchers

The watcher keeps one handle for each formation that is watched, and runs a task for it.  All tasks
share the store and the engine; they take their changes, make their calls and end in any order, and
each call may fail.  A task that is told to stop goes on until the runtime lets go of it, so for a
while the task of a formation may run beside its successor.  When the process ends, all tasks are
lost, in the middle of a round or not.

## Main definitions

* `CdcWatcher`, `WatchMove`, `CdcWatcher.move` — the tasks, and what may happen next.
* `Watched.Supervised` — the handle is that of the only task that was not told to stop.
* `Orderly` — what is left of a round has a hash written only after its event was published.

## Main results

* `CdcWatcher.handles_supervised` — **the handles are those of the tasks that were not told to
  stop**, so of each formation there is at most one.
* `CdcWatcher.cursors_published` — **a cursor is the hash of an event of its document that was
  published**, whatever fails, stops or ends.
-/

namespace PeatGateway

open Effect

/-! ### Tasks -/

/-- Key for a formation watcher: organization and application. -/
abbrev FormationKey : Type := String × String

/-- The point a task has reached in its loop. -/
inductive WatchState
  /-- It waits for the next change. -/
  | receiving
  /-- It has taken a change, and this is left of the round. -/
  | handling (rest : WatchProg Unit)
  /-- It has ended. -/
  | gone

/-- A task that was spawned. -/
structure WatchTask where
  /-- The changes that wait in its stream. -/
  queue : List ChangeEvent
  /-- No more changes come. -/
  closed : Bool
  /-- `abort` was called. -/
  stopped : Bool
  state : WatchState

/-- How the next call ends: a call to the store may fail, and may have been carried out then, and
the engine may fail to publish. -/
structure Fate where
  store : Option (Error × Bool)
  engine : Except Error Unit

/-- The same at every call. -/
def Fate.pattern (fate : Fate) : Pattern := ⟨fun _ => fate.store, fun _ => fate.engine⟩

namespace WatchTask

/-- A task of which nothing has run yet. -/
def spawned : WatchTask := ⟨[], false, false, .receiving⟩

/-- `receiver.recv().await`: the next change, or the end of the stream, or nothing yet. -/
def receive (F : Formation) (now : SystemTime) (t : WatchTask) : WatchTask × List Received :=
  match t.queue with
  | change :: queue =>
    ({ t with queue, state := .handling (F.handleCalls now change) }, [⟨change, now⟩])
  | [] => (if t.closed then { t with state := .gone } else t, [])

/-- The task goes on: with what it shares, and with the changes it takes. -/
def step (F : Formation) (now : SystemTime) (fate : Fate) (shared : Task) (t : WatchTask) :
    Task × WatchTask × List Received :=
  match t.state with
  | .receiving => (shared, t.receive F now)
  | .handling (.done _) => (shared, { t with state := .receiving }, [])
  | .handling (.call c k) =>
    let r := Task.call fate.pattern c shared
    (r.2, { t with state := .handling (k r.1) }, [])
  | .gone => (shared, t, [])

end WatchTask

/-- A formation: the tasks that were spawned for it, which of them the map has the handle of, and
the changes they have taken from their streams so far. -/
structure Watched where
  tasks : List WatchTask
  handle : Option ℕ
  taken : List Received

namespace Watched

/-- A formation that was never watched. -/
def never : Watched := ⟨[], none, []⟩

/-- A task is spawned, and its handle is kept. -/
def spawn (x : Watched) : Watched :=
  { x with tasks := x.tasks ++ [.spawned], handle := some x.tasks.length }

/-- The handle is taken from the map, and its task told to stop. -/
def abort (x : Watched) : Watched :=
  match x.handle with
  | some n =>
    { x with tasks := x.tasks.modify n fun t => { t with stopped := true }, handle := none }
  | none => x

/-- The process ends, and with it the tasks. -/
def exit (x : Watched) : Watched :=
  { x with
    tasks := x.tasks.map fun t => { t with stopped := true, state := .gone }
    handle := none }

end Watched

/-! ### The watcher -/

/-- What the tasks share, and the formations. -/
structure CdcWatcher where
  shared : Task
  formations : FormationKey → Watched

/-- What happens next. -/
inductive WatchMove
  /-- `watch_formation`, and whether the collection can be observed. -/
  | watch (key : FormationKey) (observed : Bool)
  /-- `unwatch_formation`. -/
  | unwatch (key : FormationKey)
  | shutdown
  /-- A change comes for a task. -/
  | arrive (key : FormationKey) (n : ℕ) (change : ChangeEvent)
  /-- The stream of a task is closed. -/
  | close (key : FormationKey) (n : ℕ)
  /-- A task goes on. -/
  | step (key : FormationKey) (n : ℕ) (now : SystemTime) (fate : Fate)
  /-- The runtime lets go of a task that was told to stop. -/
  | letGo (key : FormationKey) (n : ℕ)
  /-- The process ends, and another begins. -/
  | restart
  /-- Another part of the gateway makes a call to the store. -/
  | other (c : StorageCall)

namespace CdcWatcher

/-- `CdcWatcher::new`, over a store. -/
def new (st : AnyStore) : CdcWatcher := ⟨⟨st, 0, []⟩, fun _ => .never⟩

/-- A formation changes. -/
def set (w : CdcWatcher) (key : FormationKey) (x : Watched) : CdcWatcher :=
  { w with formations := Function.update w.formations key x }

/-- A task of a formation changes. -/
def modify (w : CdcWatcher) (key : FormationKey) (n : ℕ) (f : WatchTask → WatchTask) :
    CdcWatcher :=
  w.set key { w.formations key with tasks := (w.formations key).tasks.modify n f }

variable (hasher : Hasher)

/-- The formation of a key. -/
def formation (key : FormationKey) : Formation := ⟨key.1, key.2, hasher⟩

/-- One move. -/
def move (w : CdcWatcher) : WatchMove → CdcWatcher
  | .watch key observed =>
    if (w.formations key).handle.isSome then w
    else if observed then w.set key (w.formations key).spawn else w
  | .unwatch key => w.set key (w.formations key).abort
  | .shutdown => { w with formations := fun key => (w.formations key).abort }
  | .arrive key n change =>
    w.modify key n fun t => if t.closed then t else { t with queue := t.queue ++ [change] }
  | .close key n => w.modify key n fun t => { t with closed := true }
  | .step key n now fate =>
    match (w.formations key).tasks[n]? with
    | some t =>
      let x := w.formations key
      let r := t.step (formation hasher key) now fate w.shared
      { w.set key { x with tasks := x.tasks.set n r.2.1, taken := x.taken ++ r.2.2 } with
        shared := r.1 }
    | none => w
  | .letGo key n =>
    w.modify key n fun t => if t.stopped then { t with state := .gone } else t
  | .restart => { w with formations := fun key => (w.formations key).exit }
  | .other c => { w with shared := { w.shared with store := (AnyStore.exec c w.shared.store).2 } }

/-- The state after the moves. -/
def moves (w : CdcWatcher) (l : List WatchMove) : CdcWatcher := l.foldl (move hasher) w

end CdcWatcher

/-! ### Handles -/

namespace Watched

/-- The handle is that of the only task that was not told to stop. -/
def Supervised (x : Watched) : Prop :=
  ∀ n, x.handle = some n ↔ x.tasks[n]?.map WatchTask.stopped = some false

theorem supervised_never : never.Supervised := by
  intro n
  simp [never]

/-- Tasks may change as long as none is told to stop. -/
theorem Supervised.of_tasks {x y : Watched} (hx : x.Supervised) (hhandle : y.handle = x.handle)
    (htasks : ∀ n : ℕ, y.tasks[n]?.map WatchTask.stopped = x.tasks[n]?.map WatchTask.stopped) :
    y.Supervised := by
  intro n
  rw [hhandle, htasks]
  exact hx n

theorem Supervised.spawn {x : Watched} (hx : x.Supervised) (hnone : x.handle = none) :
    x.spawn.Supervised := by
  intro n
  have hold := hx n
  rw [hnone] at hold
  simp only [Watched.spawn, Option.some.injEq]
  by_cases hn : n = x.tasks.length
  · simp [hn, WatchTask.spawned]
  · -- the tasks before it were all told to stop
    rw [List.getElem?_append]
    split
    · refine iff_of_false (Ne.symm hn) ?_
      intro h
      cases hold.mpr h
    · have hlater : n - x.tasks.length ≠ 0 := by omega
      rw [List.getElem?_singleton, if_neg hlater]
      exact iff_of_false (Ne.symm hn) (by simp)

theorem Supervised.abort {x : Watched} (hx : x.Supervised) : x.abort.Supervised := by
  unfold Watched.abort
  split
  · next m hm =>
    intro n
    refine iff_of_false (by simp) ?_
    simp only [List.getElem?_modify]
    intro h
    by_cases hmn : m = n
    · subst hmn
      cases ht : x.tasks[m]? <;> simp [ht] at h
    · -- another task that goes on would have the handle
      have hlive : x.tasks[n]?.map WatchTask.stopped = some false := by
        cases ht : x.tasks[n]? <;> simp_all
      have hhandle := (hx n).mpr hlive
      rw [hm] at hhandle
      exact hmn (Option.some.inj hhandle)
  · exact hx

theorem supervised_exit (x : Watched) : x.exit.Supervised := by
  intro n
  refine iff_of_false (by simp [exit]) ?_
  simp only [exit, List.getElem?_map, Option.map_map]
  cases x.tasks[n]? <;> simp

/-- A task that changes without being told to stop. -/
theorem Supervised.modify {x : Watched} (hx : x.Supervised) (n : ℕ) {f : WatchTask → WatchTask}
    (hf : ∀ t, (f t).stopped = t.stopped) :
    Supervised { x with tasks := x.tasks.modify n f } := by
  refine hx.of_tasks ?_ ?_
  · rfl
  intro m
  simp only [List.getElem?_modify]
  cases x.tasks[m]? with
  | none => rfl
  | some t =>
    by_cases hnm : n = m
    · simp [hnm, hf]
    · simp [hnm]

end Watched

namespace WatchTask

/-- A task does not stop itself. -/
theorem stopped_step (F : Formation) (now : SystemTime) (fate : Fate) (shared : Task)
    (t : WatchTask) : (t.step F now fate shared).2.1.stopped = t.stopped := by
  unfold step
  split
  · unfold receive
    split
    · rfl
    · split <;> rfl
  · rfl
  · rfl
  · rfl

end WatchTask

namespace CdcWatcher

variable {hasher : Hasher} {w : CdcWatcher}

@[simp] theorem formations_set_self (w : CdcWatcher) (key : FormationKey) (x : Watched) :
    (w.set key x).formations key = x := by simp [set]

theorem formations_set_of_ne (w : CdcWatcher) {key k : FormationKey} (hk : k ≠ key) (x : Watched) :
    (w.set key x).formations k = w.formations k := by simp [set, hk]

/-- One formation changes, the others stay. -/
theorem forall_set {P : FormationKey → Watched → Prop} (hw : ∀ k, P k (w.formations k))
    {key : FormationKey} {x : Watched} (hx : P key x) : ∀ k, P k ((w.set key x).formations k) := by
  intro k
  by_cases hk : k = key
  · subst hk
    rw [formations_set_self]
    exact hx
  · rw [formations_set_of_ne w hk]
    exact hw k

/-- One move keeps the handles as they should be. -/
theorem supervised_move (hw : ∀ k, (w.formations k).Supervised) (m : WatchMove) :
    ∀ k, ((w.move hasher m).formations k).Supervised := by
  cases m with
  | watch key observed =>
    simp only [move]
    split
    · exact hw
    · next hhandle =>
      split
      · exact forall_set (P := fun _ x => x.Supervised) hw
          ((hw key).spawn (by simpa using hhandle))
      · exact hw
  | unwatch key => exact forall_set (P := fun _ x => x.Supervised) hw (hw key).abort
  | shutdown => exact fun k => (hw k).abort
  | arrive key n change =>
    refine forall_set (P := fun _ x => x.Supervised) hw ((hw key).modify n ?_)
    intro t
    split <;> rfl
  | close key n =>
    exact forall_set (P := fun _ x => x.Supervised) hw ((hw key).modify n fun _ => rfl)
  | step key n now fate =>
    simp only [move]
    split
    · next t ht =>
      refine forall_set (P := fun _ x => x.Supervised) hw ?_
      refine (hw key).of_tasks ?_ ?_
      · rfl
      intro m
      simp only [List.getElem?_set]
      split
      · next hnm =>
        subst hnm
        rw [ht]
        split
        · exact congrArg some (t.stopped_step _ now fate w.shared)
        · next hlen =>
          have hlt := (List.getElem?_eq_some_iff.mp ht).1
          exact absurd hlt hlen
      · rfl
    · exact hw
  | letGo key n =>
    refine forall_set (P := fun _ x => x.Supervised) hw ((hw key).modify n ?_)
    intro t
    split <;> rfl
  | restart => exact fun k => (w.formations k).supervised_exit
  | other c => exact hw

/-- **The handles are those of the tasks that were not told to stop.** -/
theorem supervised_moves (hw : ∀ k, (w.formations k).Supervised) (l : List WatchMove) :
    ∀ k, ((w.moves hasher l).formations k).Supervised := by
  induction l generalizing w with
  | nil => exact hw
  | cons m l ih => exact ih (supervised_move hw m)

end CdcWatcher

namespace Watched

/-- A task was spawned and not told to stop. -/
def Live (x : Watched) (n : ℕ) : Prop := x.tasks[n]?.map WatchTask.stopped = some false

theorem Supervised.live_iff {x : Watched} (hx : x.Supervised) {n : ℕ} :
    x.Live n ↔ x.handle = some n := (hx n).symm

theorem Supervised.live_unique {x : Watched} (hx : x.Supervised) {m n : ℕ} (hm : x.Live m)
    (hn : x.Live n) : m = n := by
  have heq := hx.live_iff.mp hm
  rw [hx.live_iff.mp hn] at heq
  exact (Option.some.inj heq).symm

theorem Supervised.not_live_abort {x : Watched} (hx : x.Supervised) (n : ℕ) :
    ¬ x.abort.Live n := by
  rw [hx.abort.live_iff]
  unfold Watched.abort
  split
  · simp
  · next hnone =>
    rw [hnone]
    simp

end Watched

namespace CdcWatcher

/-- **One task for each formation that is watched.**  Whatever has happened, at most one task of a
formation was not told to stop, and it is the one that has the handle, so that `unwatch_formation`
and `shutdown` leave none. -/
theorem handles_supervised (hasher : Hasher) (st : AnyStore) (l : List WatchMove)
    (key : FormationKey) :
    let w := (new st).moves hasher l
    (∀ n, (w.formations key).Live n ↔ (w.formations key).handle = some n) ∧
      (∀ m n, (w.formations key).Live m → (w.formations key).Live n → m = n) ∧
      (∀ n, ¬ ((w.move hasher (.unwatch key)).formations key).Live n) ∧
      ∀ k n, ¬ ((w.move hasher .shutdown).formations k).Live n := by
  have hall : ∀ k, (((new st).moves hasher l).formations k).Supervised :=
    supervised_moves (fun _ => Watched.supervised_never) l
  refine ⟨fun n => (hall key).live_iff, fun m n => (hall key).live_unique, ?_, ?_⟩
  · intro n
    simp only [move, formations_set_self]
    exact (hall key).not_live_abort n
  · intro k n
    exact (hall k).not_live_abort n

end CdcWatcher

/-! ### Cursors -/

/-- What has been passed to `publish`, with the outcomes. -/
abbrev PublishLog : Type := List (CdcEvent × Except Error Unit)

/-- An event of the document with this hash was published. -/
def PublishLog.Holds (log : PublishLog) (o a d hash : String) : Prop :=
  ∃ event, (event, Except.ok ()) ∈ log ∧ event.orgId = o ∧ event.appId = a ∧
    event.documentId = d ∧ event.changeHash = hash

/-- What is left of a round is about the formation, and has a hash written only after its event was
published. -/
def Orderly (key : FormationKey) : PublishLog → WatchProg Unit → Prop
  | _, .done _ => True
  | log, .call (.getCursor o a _) k => (o = key.1 ∧ a = key.2) ∧ ∀ r, Orderly key log (k r)
  | log, .call (.publish event) k =>
    (event.orgId = key.1 ∧ event.appId = key.2) ∧ ∀ r, Orderly key (log ++ [(event, r)]) (k r)
  | log, .call (.setCursor o a d hash) k =>
    ((o = key.1 ∧ a = key.2) ∧ log.Holds o a d hash) ∧ ∀ r, Orderly key log (k r)

theorem PublishLog.Holds.mono {log log' : PublishLog} (hlog : log ⊆ log') {o a d hash : String}
    (h : log.Holds o a d hash) : log'.Holds o a d hash := by
  obtain ⟨event, hmem, hids⟩ := h
  exact ⟨event, hlog hmem, hids⟩

/-- It does not matter what else was published. -/
theorem Orderly.mono {key : FormationKey} {log log' : PublishLog} (hlog : log ⊆ log')
    {p : WatchProg Unit} (hp : Orderly key log p) : Orderly key log' p := by
  induction p generalizing log log' with
  | done r => trivial
  | call c k ih =>
    cases c with
    | getCursor o a d => exact ⟨hp.1, fun r => ih r hlog (hp.2 r)⟩
    | publish event =>
      have happend : ∀ r, log ++ [(event, r)] ⊆ log' ++ [(event, r)] := fun r =>
        List.append_subset.mpr ⟨List.subset_append_of_subset_left _ hlog,
          List.subset_append_right _ _⟩
      exact ⟨hp.1, fun r => ih r (happend r) (hp.2 r)⟩
    | setCursor o a d hash => exact ⟨⟨hp.1.1, hp.1.2.mono hlog⟩, fun r => ih r hlog (hp.2 r)⟩

/-- **A round is orderly.** -/
theorem orderly_handleCalls (hasher : Hasher) (key : FormationKey) (log : PublishLog)
    (now : SystemTime) (change : ChangeEvent) :
    Orderly key log ((CdcWatcher.formation hasher key).handleCalls now change) := by
  have hemit : ∀ (log : PublishLog) (event : CdcEvent),
      event.orgId = key.1 → event.appId = key.2 → Orderly key log (emitCalls event) := by
    intro log event horg happ
    refine ⟨⟨horg, happ⟩, ?_⟩
    intro r
    cases r with
    | error e => trivial
    | ok u =>
      have hholds : PublishLog.Holds (log ++ [(event, Except.ok u)]) event.orgId event.appId
          event.documentId event.changeHash :=
        ⟨event, List.mem_append_right _ List.mem_cons_self, rfl, rfl, rfl, rfl⟩
      exact ⟨⟨⟨horg, happ⟩, hholds⟩, fun _ => trivial⟩
  cases change with
  | updated document =>
    refine ⟨⟨rfl, rfl⟩, ?_⟩
    intro cursor
    change Orderly key log (if isDuplicate cursor _ = true then _ else _)
    split
    · trivial
    · exact hemit log _ rfl rfl
  | removed docId => exact hemit log _ rfl rfl
  | initial documents => trivial

/-- The call writes a cursor. -/
def StorageCall.setsCursor : StorageCall → Bool
  | .setCursor _ _ _ _ => true
  | _ => false

/-- The call writes no cursor, and removes none. -/
def StorageCall.keepsCursors : StorageCall → Bool
  | .setCursor _ _ _ _ | .deleteOrg _ => false
  | _ => true

theorem Redb.exec_withCursors {c : StorageCall} (hc : c.keepsCursors = true) (s : Redb)
    (cursors : Table String String) :
    (Redb.exec c { s with cursors }).2 = { (Redb.exec c s).2 with cursors } := by
  cases c <;> first | rfl | exact absurd hc Bool.false_ne_true

theorem Postgres.commit_withCursors {T : Type} (s : Postgres) (r : Except Error T)
    {f g : T → Postgres} (cursors : Rows (String × String × String) String)
    (hg : ∀ t, g t = { f t with cursors }) :
    (commit { s with cursors } r g).2 = { (commit s r f).2 with cursors } := by
  cases r with
  | ok t => exact hg t
  | error e => rfl

theorem Postgres.exec_withCursors {c : StorageCall} (hc : c.keepsCursors = true) (s : Postgres)
    (cursors : Rows (String × String × String) String) :
    (Postgres.exec c { s with cursors }).2 = { (Postgres.exec c s).2 with cursors } := by
  cases c <;> first
    | rfl
    | exact commit_withCursors _ _ _ fun _ => rfl
    | exact absurd hc Bool.false_ne_true

namespace AnyStore

theorem cursor_keeps {c : StorageCall} (hc : c.keepsCursors = true) (st : AnyStore)
    (o a d : String) : (exec c st).2.cursor o a d = st.cursor o a d := by
  cases st with
  | redb s =>
    have hsame := congrArg Redb.cursors (Redb.exec_withCursors hc s s.cursors)
    have hcursors : (Redb.exec c s).2.cursors = s.cursors := hsame
    simp only [exec, cursor, hcursors]
  | postgres s =>
    have hsame := congrArg Postgres.cursors (Postgres.exec_withCursors hc s s.cursors)
    have hcursors : (Postgres.exec c s).2.cursors = s.cursors := hsame
    simp only [exec, cursor, hcursors]

/-- Deleting an organization removes cursors, or keeps them. -/
theorem cursor_deleteOrg (orgId : String) (st : AnyStore) (o a d : String) :
    (exec (.deleteOrg orgId) st).2.cursor o a d = none ∨
      (exec (.deleteOrg orgId) st).2.cursor o a d = st.cursor o a d := by
  cases st with
  | redb s =>
    have hget : (exec (.deleteOrg orgId) (.redb s)).2.cursor o a d =
        if belongsTo orgId (cursorKey o a d) = true then none
          else s.cursors[cursorKey o a d]? := Table.get_removeAll _ _ _
    rw [hget]
    split
    · exact Or.inl rfl
    · exact Or.inr rfl
  | postgres s =>
    simp only [exec, Postgres.exec]
    split
    · have hget : cursor o a d (.postgres (s.deleteOrg orgId)) =
          if (o == orgId) = true then none else s.cursors.select (o, a, d) :=
        Rows.select_deleteWhere _ _ _
      rw [hget]
      split
      · exact Or.inl rfl
      · exact Or.inr rfl
    · exact Or.inr rfl

/-- **A call that writes no cursor can at most remove some.** -/
theorem cursor_exec {c : StorageCall} (hc : c.setsCursor = false) {st : AnyStore}
    {o a d hash : String} (h : (exec c st).2.cursor o a d = some hash) :
    st.cursor o a d = some hash := by
  by_cases hkeeps : c.keepsCursors = true
  · rwa [cursor_keeps hkeeps] at h
  · cases c
    case setCursor => cases hc
    case deleteOrg orgId =>
      rcases cursor_deleteOrg orgId st o a d with hgone | hsame
      · rw [hgone] at h
        cases h
      · rwa [hsame] at h
    all_goals exact absurd rfl hkeeps

end AnyStore

/-! ### What is left of rounds -/

namespace Watched

/-- What is left of each round that is under way. -/
def Rounds (P : WatchProg Unit → Prop) (x : Watched) : Prop :=
  ∀ t ∈ x.tasks, ∀ p, t.state = .handling p → P p

variable {P : WatchProg Unit → Prop} {x : Watched}

theorem rounds_never (P : WatchProg Unit → Prop) : never.Rounds P := by
  intro t ht
  cases ht

theorem Rounds.mono {Q : WatchProg Unit → Prop} (hx : x.Rounds P) (h : ∀ p, P p → Q p) :
    x.Rounds Q := fun t ht p hp => h p (hx t ht p hp)

theorem Rounds.spawn (hx : x.Rounds P) : x.spawn.Rounds P := by
  intro t ht p hp
  rcases List.mem_append.mp ht with ht | ht
  · exact hx t ht p hp
  · obtain rfl := List.mem_singleton.mp ht
    cases hp

/-- A task that changes without beginning a round. -/
theorem Rounds.modify (hx : x.Rounds P) (n : ℕ) {f : WatchTask → WatchTask}
    (hf : ∀ t p, (f t).state = .handling p → t.state = .handling p) :
    Rounds P { x with tasks := x.tasks.modify n f } := by
  intro t ht p hp
  obtain ⟨m, hm⟩ := List.mem_iff_getElem?.mp ht
  simp only [List.getElem?_modify] at hm
  cases ht' : x.tasks[m]? with
  | none => simp [ht'] at hm
  | some t' =>
    have hmem : t' ∈ x.tasks := List.mem_of_getElem? ht'
    by_cases hnm : n = m
    · obtain rfl : f t' = t := by simpa [ht', hnm] using hm
      exact hx t' hmem p (hf t' p hp)
    · obtain rfl : t' = t := by simpa [ht', hnm] using hm
      exact hx t' hmem p hp

theorem Rounds.abort (hx : x.Rounds P) : x.abort.Rounds P := by
  unfold Watched.abort
  split
  · exact hx.modify _ fun _ _ hp => hp
  · exact hx

theorem rounds_exit (P : WatchProg Unit → Prop) (x : Watched) : x.exit.Rounds P := by
  intro t ht p hp
  obtain ⟨t', -, rfl⟩ := List.mem_map.mp ht
  cases hp

/-- One task goes on. -/
theorem Rounds.set (hx : x.Rounds P) (n : ℕ) {t : WatchTask} (ht : ∀ p, t.state = .handling p → P p)
    (taken : List Received) : Rounds P { x with tasks := x.tasks.set n t, taken } := by
  intro t' ht' p hp
  rcases List.mem_or_eq_of_mem_set ht' with hmem | rfl
  · exact hx t' hmem p hp
  · exact ht p hp

end Watched

namespace WatchMove

/-- The formation a move is about, if it is about one. -/
def key : WatchMove → Option FormationKey
  | watch key _ | unwatch key | arrive key _ _ | close key _ | step key _ _ _ | letGo key _ =>
    some key
  | shutdown | restart | other _ => none

/-- Other parts of the gateway write no cursors. -/
def setsNoCursor : WatchMove → Bool
  | other c => !c.setsCursor
  | _ => true

end WatchMove

namespace CdcWatcher

variable {hasher : Hasher}

/-- A cursor was there from the start, or is the hash of an event of its document that was
published. -/
def CursorsHeld (st : AnyStore) (s : Task) : Prop :=
  ∀ o a d hash, NulFree o → NulFree a → s.store.cursor o a d = some hash →
    st.cursor o a d = some hash ∨ PublishLog.Holds s.published o a d hash

/-- **One call of an orderly round.** -/
theorem call_orderly {st : AnyStore} {s : Task} (hs : CursorsHeld st s) {key : FormationKey}
    (hkey : PairFree key) {c : WatchCall} {k : Except Error (Watch.Res c) → WatchProg Unit}
    (hp : Orderly key s.published (.call c k)) (fate : Fate) :
    CursorsHeld st (Task.call fate.pattern c s).2 ∧
      s.published ⊆ (Task.call fate.pattern c s).2.published ∧
      Orderly key (Task.call fate.pattern c s).2.published (k (Task.call fate.pattern c s).1) := by
  cases c with
  | getCursor o a d =>
    have hstore : (s.reach fate.pattern (.getCursor o a d)).2.store = s.store :=
      store_reach_of_isRead rfl
    refine ⟨?_, fun _ h => h, hp.2 _⟩
    intro o' a' d' hash ho' ha' h
    exact hs o' a' d' hash ho' ha' ((congrArg (AnyStore.cursor o' a' d') hstore).symm.trans h)
  | publish event =>
    refine ⟨?_, List.subset_append_left _ _, hp.2 _⟩
    intro o a d hash ho ha h
    exact (hs o a d hash ho ha h).imp id fun hlog => hlog.mono (List.subset_append_left _ _)
  | setCursor o a d hash =>
    obtain ⟨⟨⟨rfl, rfl⟩, hlog⟩, hk⟩ := hp
    refine ⟨?_, fun _ h => h, hk _⟩
    intro o' a' d' hash' ho' ha' h
    rcases store_reach fate.pattern (.setCursor key.1 key.2 d hash) s with hstore | hstore
    · exact hs o' a' d' hash' ho' ha' ((congrArg (AnyStore.cursor o' a' d') hstore).symm.trans h)
    · have hnew := (congrArg (AnyStore.cursor o' a' d') hstore).symm.trans h
      by_cases hsame : (AnyStore.exec (.setCursor key.1 key.2 d hash) s.store).2.cursor o' a' d' =
          s.store.cursor o' a' d'
      · exact hs o' a' d' hash' ho' ha' (hsame.symm.trans hnew)
      · -- the cursor that was written is under the key of the formation
        obtain ⟨heq, hwritten⟩ := AnyStore.cursor_exec_setCursor hsame
        obtain ⟨rfl, hrest⟩ := Text.glue_inj hkey.1 ho' heq
        obtain ⟨rfl, rfl⟩ := Text.glue_inj hkey.2 ha' hrest
        obtain rfl := Option.some.inj (hwritten.symm.trans hnew)
        exact Or.inr hlog

/-- Cursors are held, and what is left of rounds is orderly. -/
structure Held (st : AnyStore) (w : CdcWatcher) : Prop where
  cursors : CursorsHeld st w.shared
  rounds : ∀ key, PairFree key → (w.formations key).Rounds (Orderly key w.shared.published)

theorem held_new (st : AnyStore) : Held st (new st) where
  cursors _ _ _ _ _ _ h := Or.inl h
  rounds _ _ := Watched.rounds_never _

/-- A formation changes, and nothing is published. -/
theorem Held.set {st : AnyStore} {w : CdcWatcher} (hw : Held st w) {key : FormationKey}
    {x : Watched} (hx : PairFree key → x.Rounds (Orderly key w.shared.published)) :
    Held st (w.set key x) where
  cursors := hw.cursors
  rounds := forall_set (P := fun key x => PairFree key →
    x.Rounds (Orderly key w.shared.published)) hw.rounds hx

/-- **One move.** -/
theorem Held.move {st : AnyStore} {w : CdcWatcher} (hw : Held st w) {m : WatchMove}
    (hkey : ∀ key, m.key = some key → PairFree key) (hm : m.setsNoCursor = true) :
    Held st (w.move hasher m) := by
  cases m with
  | watch key observed =>
    simp only [CdcWatcher.move]
    split
    · exact hw
    · split
      · exact hw.set fun hfree => (hw.rounds key hfree).spawn
      · exact hw
  | unwatch key => exact hw.set fun hfree => (hw.rounds key hfree).abort
  | shutdown => exact ⟨hw.cursors, fun key hfree => (hw.rounds key hfree).abort⟩
  | arrive key n change =>
    refine hw.set fun hfree => (hw.rounds key hfree).modify n ?_
    intro t p
    split <;> exact id
  | close key n => exact hw.set fun hfree => (hw.rounds key hfree).modify n fun _ _ => id
  | letGo key n =>
    refine hw.set fun hfree => (hw.rounds key hfree).modify n ?_
    intro t p
    split
    · intro hp
      cases hp
    · exact id
  | restart => exact ⟨hw.cursors, fun key _ => (w.formations key).rounds_exit _⟩
  | other c =>
    have hset : c.setsCursor = false := by simpa [WatchMove.setsNoCursor] using hm
    refine ⟨?_, hw.rounds⟩
    intro o a d hash ho ha h
    exact hw.cursors o a d hash ho ha (AnyStore.cursor_exec hset h)
  | step key n now fate =>
    have hfree : PairFree key := hkey key rfl
    have hrounds := hw.rounds key hfree
    simp only [CdcWatcher.move]
    split
    · next t ht =>
      have hmem : t ∈ (w.formations key).tasks := List.mem_of_getElem? ht
      cases hstate : t.state with
      | receiving =>
        simp only [WatchTask.step, hstate]
        refine hw.set fun _ => hrounds.set n ?_ _
        intro p hp
        unfold WatchTask.receive at hp
        split at hp
        · cases hp
          exact orderly_handleCalls hasher key _ now _
        · dsimp only at hp
          split at hp
          · cases hp
          · rw [hstate] at hp
            cases hp
      | gone =>
        simp only [WatchTask.step, hstate]
        refine hw.set fun _ => hrounds.set n ?_ _
        intro p hp
        rw [hstate] at hp
        cases hp
      | handling rest =>
        cases rest with
        | done r =>
          simp only [WatchTask.step, hstate]
          refine hw.set fun _ => hrounds.set n ?_ _
          intro p hp
          cases hp
        | call c k =>
          obtain ⟨hcursors, hsub, hrest⟩ :=
            call_orderly hw.cursors hfree (hrounds t hmem _ hstate) fate
          simp only [WatchTask.step, hstate]
          refine ⟨hcursors, ?_⟩
          -- what the others have left stays orderly when more is published
          have hall : ∀ k, PairFree k → (w.formations k).Rounds
              (Orderly k (Task.call fate.pattern c w.shared).2.published) :=
            fun k hk => (hw.rounds k hk).mono fun p hp => hp.mono hsub
          refine forall_set (P := fun key x => PairFree key → x.Rounds
            (Orderly key (Task.call fate.pattern c w.shared).2.published)) hall fun _ =>
              (hall key hfree).set n ?_ _
          intro p hp
          cases hp
          exact hrest
    · exact hw

/-- **A cursor is the hash of an event of its document that was published**, if it was not there
from the start: whichever formations are watched and unwatched, however the calls of their tasks and
of the rest of the gateway are interleaved, whichever of them fail, and whenever tasks are let go of
or the process ends. -/
theorem cursors_published (hasher : Hasher) (st : AnyStore) {l : List WatchMove}
    (hkeys : ∀ m ∈ l, ∀ key, m.key = some key → PairFree key)
    (hsets : ∀ m ∈ l, m.setsNoCursor = true) {o a d hash : String} (ho : NulFree o)
    (ha : NulFree a) (h : ((new st).moves hasher l).shared.store.cursor o a d = some hash) :
    st.cursor o a d = some hash ∨
      PublishLog.Holds ((new st).moves hasher l).shared.published o a d hash := by
  have hheld : ∀ {w : CdcWatcher}, Held st w → ∀ l : List WatchMove,
      (∀ m ∈ l, ∀ key, m.key = some key → PairFree key) →
      (∀ m ∈ l, m.setsNoCursor = true) → Held st (w.moves hasher l) := by
    intro w hw l
    induction l generalizing w with
    | nil => exact fun _ _ => hw
    | cons m l ih =>
      intro hkeys hsets
      exact ih (hw.move (hkeys m List.mem_cons_self) (hsets m List.mem_cons_self))
        (fun m' hm' => hkeys m' (List.mem_cons_of_mem _ hm'))
        fun m' hm' => hsets m' (List.mem_cons_of_mem _ hm')
  exact (hheld (held_new st) l hkeys hsets).cursors o a d hash ho ha h

end CdcWatcher

/-! ### Two formations -/

/-- A document without fields has changed. -/
def docChanged : ChangeEvent := .updated ⟨some "doc-1", .empty, 1000000000⟩

/-- Two formations are watched, and a document changes in both.  The engine cannot be reached for
the second. -/
def twoWatched : List WatchMove :=
  let a := ("acme", "logistics")
  let b := ("acme", "fleet")
  let well : Fate := ⟨none, .ok ()⟩
  [.watch a true, .watch b true, .arrive a 0 docChanged, .arrive b 0 docChanged,
    .step a 0 0 well, .step b 0 0 well, .step b 0 0 well, .step a 0 0 well,
    .step b 0 0 ⟨none, .error "connection refused"⟩, .step a 0 0 well, .step a 0 0 well,
    .step a 0 0 well]

theorem twoWatched_keys : ∀ m ∈ twoWatched, ∀ k, m.key = some k → PairFree k := by
  have ha : PairFree ("acme", "logistics") := ⟨by decide +kernel, by decide +kernel⟩
  have hb : PairFree ("acme", "fleet") := ⟨by decide +kernel, by decide +kernel⟩
  simp [twoWatched, WatchMove.key, ha, hb]

/-- All changes are hashed alike. -/
def constHasher : Hasher := fun _ => 10

/-- The document of the first formation was published. -/
theorem CdcWatcher.cursors_published_two :
    PublishLog.Holds ((new (.redb .empty)).moves constHasher twoWatched).shared.published
      "acme" "logistics" "doc-1" "a" := by
  have hcursor : ((new (.redb .empty)).moves constHasher twoWatched).shared.store.cursor
      "acme" "logistics" "doc-1" = some "a" := by decide +kernel
  rcases cursors_published constHasher (.redb .empty) twoWatched_keys (by decide +kernel)
    (by decide +kernel) (by decide +kernel) hcursor with hold | hheld
  · cases hold
  · exact hheld

end PeatGateway
