import PeatGateway.Cdc.Supervisor
import PeatGateway.Cdc.Withheld

/-!
# Watchers apart

The tasks of all formations share the store and the engine.  What becomes of one formation depends
on its own moves only, and as long as its rounds are neither cut short nor overlap and none of its
calls fails, its tasks together take its changes as one loop would that runs alone.

## Main definitions

* `Task.AlikeFor` — the same was published for a formation, and its cursors are the same.
* `WatchMove.concerns` — the moves that are not about another formation.
* `CdcWatcher.Smooth` — no round of the formation is cut short, overlaps another or fails.

## Main results

* `CdcWatcher.watchers_apart` — **the other watchers make no difference**.
* `CdcWatcher.smooth_reached` — **a formation that is watched smoothly is served as by one loop**.
-/

namespace PeatGateway

open Effect
open Formation (calm)

/-! ### What a formation sees -/

/-- The stores are the same but for their cursors. -/
def AnyStore.SameBut : AnyStore → AnyStore → Prop
  | .redb s, .redb t => t = { s with cursors := t.cursors }
  | .postgres s, .postgres t => t = { s with cursors := t.cursors }
  | _, _ => False

namespace AnyStore

theorem SameBut.refl (st : AnyStore) : st.SameBut st := by
  cases st <;> rfl

theorem SameBut.symm {s t : AnyStore} (h : s.SameBut t) : t.SameBut s := by
  cases s <;> cases t
  case redb.redb s t =>
    change t = _ at h
    rw [h]
    rfl
  case postgres.postgres s t =>
    change t = _ at h
    rw [h]
    rfl
  all_goals exact h.elim

theorem SameBut.trans {s t u : AnyStore} (h : s.SameBut t) (h' : t.SameBut u) : s.SameBut u := by
  cases s <;> cases t <;> cases u
  case redb.redb.redb s t u =>
    change u = _ at h'
    change t = _ at h
    rw [h', h]
    rfl
  case postgres.postgres.postgres s t u =>
    change u = _ at h'
    change t = _ at h
    rw [h', h]
    rfl
  all_goals first | exact h.elim | exact h'.elim

/-- **Other calls go on in the same way.** -/
theorem SameBut.exec {s t : AnyStore} (h : s.SameBut t) {c : StorageCall}
    (hc : c.setsCursor = false) : (AnyStore.exec c s).2.SameBut (AnyStore.exec c t).2 ∧
      ∀ o a d, s.cursor o a d = t.cursor o a d →
        (AnyStore.exec c s).2.cursor o a d = (AnyStore.exec c t).2.cursor o a d := by
  by_cases hkeeps : c.keepsCursors = true
  · refine ⟨?_, ?_⟩
    · cases s <;> cases t
      case redb.redb s t =>
        change t = _ at h
        have hexec := (congrArg (fun r => (Redb.exec c r).2) h).trans
          (Redb.exec_withCursors hkeeps s t.cursors)
        change (Redb.exec c t).2 = _
        rw [hexec]
      case postgres.postgres s t =>
        change t = _ at h
        have hexec := (congrArg (fun r => (Postgres.exec c r).2) h).trans
          (Postgres.exec_withCursors hkeeps s t.cursors)
        change (Postgres.exec c t).2 = _
        rw [hexec]
      all_goals exact h.elim
    · intro o a d hcursor
      rw [cursor_keeps hkeeps, cursor_keeps hkeeps, hcursor]
  · cases c
    case setCursor => cases hc
    case deleteOrg orgId =>
      cases s <;> cases t
      case redb.redb s t =>
        change t = _ at h
        refine ⟨?_, ?_⟩
        · change (Redb.deleteOrg t orgId) = _
          rw [h]
          rfl
        · intro o a d hcursor
          have hs : (AnyStore.exec (.deleteOrg orgId) (.redb s)).2.cursor o a d =
              if belongsTo orgId (cursorKey o a d) = true then none
                else s.cursors[cursorKey o a d]? := Table.get_removeAll _ _ _
          have ht : (AnyStore.exec (.deleteOrg orgId) (.redb t)).2.cursor o a d =
              if belongsTo orgId (cursorKey o a d) = true then none
                else t.cursors[cursorKey o a d]? := Table.get_removeAll _ _ _
          have hcursor : s.cursors[cursorKey o a d]? = t.cursors[cursorKey o a d]? := hcursor
          rw [hs, ht, hcursor]
      case postgres.postgres s t =>
        change t = _ at h
        have horgs : t.orgs = s.orgs := by rw [h]
        simp only [AnyStore.exec, Postgres.exec, horgs]
        split
        · refine ⟨?_, ?_⟩
          · change (Postgres.deleteOrg t orgId) = _
            rw [h]
            rfl
          · intro o a d hcursor
            have hs : AnyStore.cursor o a d (.postgres (s.deleteOrg orgId)) =
                if (o == orgId) = true then none else s.cursors.select (o, a, d) :=
              Rows.select_deleteWhere _ _ _
            have ht : AnyStore.cursor o a d (.postgres (t.deleteOrg orgId)) =
                if (o == orgId) = true then none else t.cursors.select (o, a, d) :=
              Rows.select_deleteWhere _ _ _
            have hcursor : s.cursors.select (o, a, d) = t.cursors.select (o, a, d) := hcursor
            rw [hs, ht, hcursor]
        · exact ⟨h, fun _ _ _ hcursor => hcursor⟩
      all_goals exact h.elim
    all_goals exact absurd rfl hkeeps

/-- Whether a cursor can be written: on Postgres it has to be there, or its organization. -/
def CanSet (st : AnyStore) (o a d : String) : Prop :=
  st.TakesCursors o ∨ (st.cursor o a d).isSome = true

/-- **What writing a cursor does.** -/
theorem setCursor_cases (st : AnyStore) (o a d hash : String) :
    (st.CanSet o a d ∧ (exec (.setCursor o a d hash) st).1 = .ok () ∧
      ∀ d', (exec (.setCursor o a d hash) st).2.cursor o a d' =
        if d = d' then some hash else st.cursor o a d') ∨
    (¬ st.CanSet o a d ∧
      exec (.setCursor o a d hash) st = (.error (Postgres.missingOrg "cdc_cursors"), st)) := by
  cases st with
  | redb s =>
    have htakes : TakesCursors o (.redb s) := trivial
    exact Or.inl ⟨Or.inl htakes, rfl, fun d' => (cursor_setCursor htakes a d hash d').2⟩
  | postgres s =>
    by_cases hok : ((s.cursors.select (o, a, d)).isSome || (s.orgs.select o).isSome) = true
    · refine Or.inl ⟨?_, ?_, ?_⟩
      · exact (Bool.or_eq_true_iff.mp hok).symm
      · simp only [exec, Postgres.exec, Postgres.upsertChild, hok, if_true, Postgres.commit]
      · intro d'
        have hget : (exec (.setCursor o a d hash) (.postgres s)).2.cursor o a d' =
            if (o, a, d) = (o, a, d') then some hash else s.cursors.select (o, a, d') := by
          simp only [exec, Postgres.exec, Postgres.upsertChild, hok, if_true, Postgres.commit,
            cursor]
          exact Rows.select_upsert _ _ _ _
        rw [hget]
        exact if_congr (by simp) rfl rfl
    · refine Or.inr ⟨?_, ?_⟩
      · intro hcan
        exact hok (Bool.or_eq_true_iff.mpr hcan.symm)
      · simp only [exec, Postgres.exec, Postgres.upsertChild, hok, Postgres.commit]
        rfl

/-- Writing a cursor changes nothing else. -/
theorem sameBut_setCursor (st : AnyStore) (o a d hash : String) :
    st.SameBut (exec (.setCursor o a d hash) st).2 := by
  cases st with
  | redb s => rfl
  | postgres s =>
    simp only [exec, Postgres.exec, Postgres.upsertChild]
    split
    · rfl
    · rfl

theorem SameBut.takesCursors {s t : AnyStore} (h : s.SameBut t) (o : String) :
    s.TakesCursors o ↔ t.TakesCursors o := by
  cases s <;> cases t
  case redb.redb s t => exact Iff.rfl
  case postgres.postgres s t =>
    change t = _ at h
    have horgs : t.orgs = s.orgs := by rw [h]
    simp only [TakesCursors, horgs]
  all_goals exact h.elim

end AnyStore

/-! ### Calls of tasks -/

/-- What was published for a formation, with the outcomes. -/
def Task.publishedFor (key : FormationKey) (s : Task) : PublishLog :=
  s.published.filter fun x => x.1.orgId == key.1 && x.1.appId == key.2

/-- The same was published for the formation, its cursors are the same, and cursors can be
written or not. -/
structure Task.AlikeFor (key : FormationKey) (s t : Task) : Prop where
  published : s.publishedFor key = t.publishedFor key
  cursors : ∀ d, s.store.cursor key.1 key.2 d = t.store.cursor key.1 key.2 d
  takes : s.store.TakesCursors key.1 ↔ t.store.TakesCursors key.1

namespace Task.AlikeFor

variable {key : FormationKey} {s t u : Task}

theorem refl (key : FormationKey) (s : Task) : s.AlikeFor key s := ⟨rfl, fun _ => rfl, Iff.rfl⟩

theorem trans (h : s.AlikeFor key t) (h' : t.AlikeFor key u) : s.AlikeFor key u where
  published := h.published.trans h'.published
  cursors d := (h.cursors d).trans (h'.cursors d)
  takes := h.takes.trans h'.takes

theorem symm (h : s.AlikeFor key t) : t.AlikeFor key s where
  published := h.published.symm
  cursors d := (h.cursors d).symm
  takes := h.takes.symm

/-- Only the log and the cursors count. -/
theorem of_eq (hlog : s.published = t.published) (hstore : s.store = t.store) :
    s.AlikeFor key t where
  published := by rw [publishedFor, publishedFor, hlog]
  cursors d := by rw [hstore]
  takes := by rw [hstore]

theorem canSet (h : s.AlikeFor key t) (d : String) :
    s.store.CanSet key.1 key.2 d ↔ t.store.CanSet key.1 key.2 d := by
  unfold AnyStore.CanSet
  rw [h.takes, h.cursors]

end Task.AlikeFor

section Calls

variable {key : FormationKey} {s t : Task} {log : PublishLog} {c : WatchCall}
  {k : Except Error (Watch.Res c) → WatchProg Unit}

/-- Writing a cursor of the formation ends in the same way, and leaves the same cursors. -/
theorem alike_setCursor (h : s.AlikeFor key t) (d hash : String) :
    (AnyStore.exec (.setCursor key.1 key.2 d hash) s.store).1 =
        (AnyStore.exec (.setCursor key.1 key.2 d hash) t.store).1 ∧
      (∀ d', (AnyStore.exec (.setCursor key.1 key.2 d hash) s.store).2.cursor key.1 key.2 d' =
        (AnyStore.exec (.setCursor key.1 key.2 d hash) t.store).2.cursor key.1 key.2 d') ∧
      ((AnyStore.exec (.setCursor key.1 key.2 d hash) s.store).2.TakesCursors key.1 ↔
        (AnyStore.exec (.setCursor key.1 key.2 d hash) t.store).2.TakesCursors key.1) := by
  have htakes := ((s.store.sameBut_setCursor key.1 key.2 d hash).takesCursors key.1).symm.trans
    (h.takes.trans ((t.store.sameBut_setCursor key.1 key.2 d hash).takesCursors key.1))
  rcases s.store.setCursor_cases key.1 key.2 d hash with ⟨hs, hok, hset⟩ | ⟨hs, hfail⟩
  · rcases t.store.setCursor_cases key.1 key.2 d hash with ⟨ht, hok', hset'⟩ | ⟨ht, -⟩
    · refine ⟨hok.trans hok'.symm, ?_, htakes⟩
      intro d'
      rw [hset, hset', h.cursors]
    · exact absurd ((h.canSet d).mp hs) ht
  · rcases t.store.setCursor_cases key.1 key.2 d hash with ⟨ht, -⟩ | ⟨ht, hfail'⟩
    · exact absurd ((h.canSet d).mpr ht) hs
    · rw [hfail, hfail']
      exact ⟨rfl, h.cursors, h.takes⟩

/-- **A call of the formation is answered alike**, and leaves the same for it. -/
theorem call_own (h : s.AlikeFor key t) (hp : Orderly key log (.call c k)) (fate : Fate) :
    (Task.call fate.pattern c s).1 = (Task.call fate.pattern c t).1 ∧
      (Task.call fate.pattern c s).2.AlikeFor key (Task.call fate.pattern c t).2 := by
  obtain ⟨store, engine⟩ := fate
  cases c with
  | getCursor o a d =>
    obtain ⟨⟨rfl, rfl⟩, -⟩ := hp
    have hanswer : (AnyStore.exec (.getCursor key.1 key.2 d) s.store).1 =
        (AnyStore.exec (.getCursor key.1 key.2 d) t.store).1 := by
      rw [AnyStore.exec_getCursor, AnyStore.exec_getCursor, h.cursors]
    have hstore : ∀ u : Task, ((u.reach (Fate.pattern ⟨store, engine⟩)
        (.getCursor key.1 key.2 d)).2).AlikeFor key u :=
      fun u => .of_eq rfl (store_reach_of_isRead rfl)
    refine ⟨?_, (hstore s).trans (h.trans (hstore t).symm)⟩
    simp only [Task.call, Task.reach, faulty, Fate.pattern]
    split
    · rfl
    · rfl
    · exact hanswer
  | publish event =>
    refine ⟨rfl, ?_, h.cursors, h.takes⟩
    have hlog := h.published
    simp only [Task.publishedFor] at hlog
    simp only [Task.call, Task.publishedFor, List.filter_append, hlog]
    rfl
  | setCursor o a d hash =>
    obtain ⟨⟨⟨rfl, rfl⟩, -⟩, -⟩ := hp
    obtain ⟨hanswer, hcursors, htakes⟩ := alike_setCursor h d hash
    simp only [Task.call, Task.reach, faulty, Fate.pattern]
    split
    · exact ⟨rfl, h.published, hcursors, htakes⟩
    · exact ⟨rfl, h.published, h.cursors, h.takes⟩
    · exact ⟨hanswer, h.published, hcursors, htakes⟩

/-- The same for what is left of a round. -/
theorem run_own (fate : Fate) {p : WatchProg Unit} (hp : Orderly key log p)
    (h : s.AlikeFor key t) :
    ((p.run (Task.call fate.pattern) s).2).AlikeFor key (p.run (Task.call fate.pattern) t).2 := by
  induction p generalizing s t log with
  | done r => exact h
  | call c k ih =>
    obtain ⟨hanswer, hafter⟩ := call_own h hp fate
    rw [Prog.run_call, Prog.run_call, hanswer]
    cases c with
    | getCursor o a d => exact ih _ (hp.2 _) hafter
    | publish event => exact ih _ (hp.2 _) hafter
    | setCursor o a d hash => exact ih _ (hp.2 _) hafter

/-- **A call of another formation leaves the same for this one.** -/
theorem call_foreign (hkey : PairFree key) {other : FormationKey} (hother : PairFree other)
    (hne : other ≠ key) (hp : Orderly other log (.call c k)) (fate : Fate) (s : Task) :
    (Task.call fate.pattern c s).2.AlikeFor key s := by
  cases c with
  | getCursor o a d => exact .of_eq rfl (store_reach_of_isRead rfl)
  | publish event =>
    obtain ⟨⟨horg, happ⟩, -⟩ := hp
    refine ⟨?_, fun _ => rfl, Iff.rfl⟩
    have hnot : (event.orgId == key.1 && event.appId == key.2) = false := by
      rw [horg, happ, Bool.eq_false_iff]
      intro hsame
      simp only [Bool.and_eq_true, beq_iff_eq] at hsame
      exact hne (Prod.ext hsame.1 hsame.2)
    simp only [Task.call, Task.publishedFor, List.filter_append, List.filter_cons, hnot]
    simp
  | setCursor o a d hash =>
    obtain ⟨⟨⟨rfl, rfl⟩, -⟩, -⟩ := hp
    rcases store_reach fate.pattern (.setCursor other.1 other.2 d hash) s with hstore | hstore
    · exact .of_eq rfl hstore
    · refine ⟨rfl, ?_, ?_⟩
      · intro d'
        refine (congrArg (AnyStore.cursor key.1 key.2 d') hstore).trans ?_
        by_contra hdiffers
        obtain ⟨heq, -⟩ := AnyStore.cursor_exec_setCursor hdiffers
        obtain ⟨horg, hrest⟩ := Text.glue_inj hother.1 hkey.1 heq
        obtain ⟨happ, -⟩ := Text.glue_inj hother.2 hkey.2 hrest
        exact hne (Prod.ext horg happ)
      · change AnyStore.TakesCursors key.1 (s.reach _ _).2.store ↔ _
        rw [hstore]
        exact ((s.store.sameBut_setCursor other.1 other.2 d hash).takesCursors key.1).symm

/-- The calls of tasks change nothing in the store but cursors. -/
theorem sameBut_call (fate : Fate) (c : WatchCall) (s : Task) :
    s.store.SameBut (Task.call fate.pattern c s).2.store := by
  cases c with
  | getCursor o a d =>
    change s.store.SameBut (s.reach _ _).2.store
    rw [store_reach_of_isRead rfl]
    exact .refl _
  | publish event => exact .refl _
  | setCursor o a d hash =>
    change s.store.SameBut (s.reach _ _).2.store
    rcases store_reach fate.pattern (.setCursor o a d hash) s with hstore | hstore
    · rw [hstore]
      exact .refl _
    · rw [hstore]
      exact s.store.sameBut_setCursor o a d hash

end Calls

/-! ### Moves of others -/

/-- The move is not about another formation. -/
def WatchMove.concerns (key : FormationKey) (m : WatchMove) : Bool := m.key.all (· == key)

namespace CdcWatcher

/-- The formation is in the same state, and nothing it sees differs. -/
structure Twins (key : FormationKey) (w w' : CdcWatcher) : Prop where
  here : w.formations key = w'.formations key
  shared : w.shared.AlikeFor key w'.shared
  store : w.shared.store.SameBut w'.shared.store

namespace Twins

variable {key : FormationKey} {w w' w'' : CdcWatcher}

theorem refl (key : FormationKey) (w : CdcWatcher) : Twins key w w :=
  ⟨rfl, .refl key w.shared, .refl _⟩

theorem trans (h : Twins key w w') (h' : Twins key w' w'') : Twins key w w'' :=
  ⟨h.here.trans h'.here, h.shared.trans h'.shared, h.store.trans h'.store⟩

/-- The formation changes in the same way. -/
theorem set (h : Twins key w w') (f : Watched → Watched) :
    Twins key (w.set key (f (w.formations key))) (w'.set key (f (w'.formations key))) := by
  refine ⟨?_, h.shared, h.store⟩
  rw [formations_set_self, formations_set_self, h.here]

/-- A task of the formation changes in the same way. -/
theorem modify (h : Twins key w w') (n : ℕ) (f : WatchTask → WatchTask) :
    Twins key (w.modify key n f) (w'.modify key n f) :=
  h.set fun x => { x with tasks := x.tasks.modify n f }

/-- Another formation changes. -/
theorem set_foreign {other : FormationKey} (hne : other ≠ key) (x : Watched) :
    Twins key (w.set other x) w :=
  ⟨formations_set_of_ne w hne.symm x, .refl key w.shared, .refl _⟩

end Twins

variable {hasher : Hasher} {st : AnyStore} {key : FormationKey} {w w' : CdcWatcher}

/-- **A move of another formation is not noticed.** -/
theorem twins_foreign (hw : Held st w) (hkey : PairFree key) {m : WatchMove}
    {other : FormationKey} (hm : m.key = some other) (hother : PairFree other) (hne : other ≠ key) :
    Twins key (w.move hasher m) w := by
  cases m with
  | watch k observed =>
    cases hm
    simp only [move]
    split
    · exact .refl key w
    · split
      · exact .set_foreign hne _
      · exact .refl key w
  | unwatch k | arrive k n change | close k n | letGo k n =>
    cases hm
    exact .set_foreign hne _
  | shutdown | restart | other c => cases hm
  | step k n now fate =>
    cases hm
    simp only [move]
    split
    · next t ht =>
      have hrounds := hw.rounds other hother t (List.mem_of_getElem? ht)
      refine ⟨formations_set_of_ne w hne.symm _, ?_, ?_⟩
      · cases hstate : t.state with
        | receiving | gone =>
          simp only [WatchTask.step, hstate]
          exact .refl key _
        | handling rest =>
          cases rest with
          | done r =>
            simp only [WatchTask.step, hstate]
            exact .refl key _
          | call c k =>
            simp only [WatchTask.step, hstate]
            exact call_foreign hkey hother hne (hrounds _ hstate) fate _
      · cases hstate : t.state with
        | receiving | gone =>
          simp only [WatchTask.step, hstate]
          exact .refl _
        | handling rest =>
          cases rest with
          | done r =>
            simp only [WatchTask.step, hstate]
            exact .refl _
          | call c k =>
            simp only [WatchTask.step, hstate]
            exact (sameBut_call fate c w.shared).symm
    · exact .refl key w

/-- **The other moves lead to the same for the formation.** -/
theorem Twins.move (hw : Held st w) (h : Twins key w w') (hkey : PairFree key) {m : WatchMove}
    (hm : m.concerns key = true) (hsets : m.setsNoCursor = true) :
    Twins key (w.move hasher m) (w'.move hasher m) := by
  cases m with
  | watch k observed =>
    obtain rfl : k = key := by simpa [WatchMove.concerns, WatchMove.key] using hm
    simp only [CdcWatcher.move, ← h.here]
    split
    · exact h
    · split
      · rw [h.here]
        exact h.here ▸ h.set Watched.spawn
      · exact h
  | unwatch k =>
    obtain rfl : k = key := by simpa [WatchMove.concerns, WatchMove.key] using hm
    exact h.set Watched.abort
  | arrive k n change | close k n | letGo k n =>
    obtain rfl : k = key := by simpa [WatchMove.concerns, WatchMove.key] using hm
    exact h.modify n _
  | shutdown | restart =>
    refine ⟨?_, h.shared, h.store⟩
    simp only [CdcWatcher.move, h.here]
  | other c =>
    have hset : c.setsCursor = false := by simpa [WatchMove.setsNoCursor] using hsets
    obtain ⟨hstore, hcursors⟩ := h.store.exec hset
    refine ⟨h.here, ⟨h.shared.published, ?_, ?_⟩, hstore⟩
    · exact fun d => hcursors key.1 key.2 d (h.shared.cursors d)
    · exact hstore.takesCursors key.1
  | step k n now fate =>
    obtain rfl : k = key := by simpa [WatchMove.concerns, WatchMove.key] using hm
    simp only [CdcWatcher.move, ← h.here]
    split
    · next t ht =>
      have hrounds := hw.rounds k hkey t (List.mem_of_getElem? ht)
      cases hstate : t.state with
      | receiving | gone =>
        simp only [WatchTask.step, hstate]
        exact ⟨by rw [formations_set_self, formations_set_self], h.shared, h.store⟩
      | handling rest =>
        cases rest with
        | done r =>
          simp only [WatchTask.step, hstate]
          exact ⟨by rw [formations_set_self, formations_set_self], h.shared, h.store⟩
        | call c rest =>
          obtain ⟨hanswer, hshared⟩ := call_own h.shared (hrounds _ hstate) fate
          simp only [WatchTask.step, hstate]
          refine ⟨?_, hshared, ?_⟩
          · change (w.set k _).formations k = (w'.set k _).formations k
            rw [formations_set_self, formations_set_self, hanswer]
          · exact (sameBut_call fate c w.shared).symm.trans
              (h.store.trans (sameBut_call fate c w'.shared))
    · exact h

/-- **The other watchers make no difference.**  Whatever the tasks of other formations do, whether
they fail, are stopped or overlap: a formation ends with the same tasks, each at the same point, the
same was published for it, and its cursors are the same, as if the others had never been watched. -/
theorem watchers_apart (hasher : Hasher) (st : AnyStore) {key : FormationKey} (hkey : PairFree key)
    {l : List WatchMove} (hkeys : ∀ m ∈ l, ∀ k, m.key = some k → PairFree k)
    (hsets : ∀ m ∈ l, m.setsNoCursor = true) :
    Twins key ((new st).moves hasher l)
      ((new st).moves hasher (l.filter (WatchMove.concerns key))) := by
  have hrun : ∀ {w w' : CdcWatcher}, Held st w → Twins key w w' → ∀ l : List WatchMove,
      (∀ m ∈ l, ∀ k, m.key = some k → PairFree k) → (∀ m ∈ l, m.setsNoCursor = true) →
      Twins key (w.moves hasher l) (w'.moves hasher (l.filter (WatchMove.concerns key))) := by
    intro w w' hw h l
    induction l generalizing w w' with
    | nil => exact fun _ _ => h
    | cons m l ih =>
      intro hkeys hsets
      have hm := hkeys m List.mem_cons_self
      have hmoved : Held st (w.move hasher m) := hw.move hm (hsets m List.mem_cons_self)
      have htail := fun {w'} (h' : Twins key (w.move hasher m) w') => ih hmoved h'
        (fun m' hm' => hkeys m' (List.mem_cons_of_mem _ hm'))
        fun m' hm' => hsets m' (List.mem_cons_of_mem _ hm')
      by_cases hconcerns : m.concerns key = true
      · rw [List.filter_cons_of_pos hconcerns]
        exact htail (h.move hw hkey hconcerns (hsets m List.mem_cons_self))
      · rw [List.filter_cons_of_neg hconcerns]
        obtain ⟨other, hother, hne⟩ : ∃ other, m.key = some other ∧ other ≠ key := by
          unfold WatchMove.concerns at hconcerns
          cases hk : m.key with
          | none => simp [hk] at hconcerns
          | some other => exact ⟨other, rfl, by simpa [hk] using hconcerns⟩
        exact htail ((twins_foreign hw hkey hother (hm other hother) hne).trans h)
  exact hrun (held_new st) (.refl key _) l hkeys hsets

end CdcWatcher

/-! ### Smooth runs -/

/-- The task has calls of a round left to make. -/
def WatchTask.midRound (t : WatchTask) : Bool :=
  match t.state with
  | .handling (.call _ _) => true
  | _ => false

/-- What the task shares once it has made the calls that are left of its round. -/
def WatchTask.finish (s : Task) (t : WatchTask) : Task :=
  match t.state with
  | .handling p => (p.run (Task.call calm) s).2
  | _ => s

theorem WatchTask.finish_of_not_midRound {t : WatchTask} (h : t.midRound = false) (s : Task) :
    t.finish s = s := by
  unfold finish
  split
  · next p hp =>
    cases p with
    | done r => rfl
    | call c k => simp [midRound, hp] at h
  · rfl

/-- No call fails. -/
def Fate.calm : Fate := ⟨none, .ok ()⟩

namespace CdcWatcher

variable {hasher : Hasher} {st : AnyStore} {key : FormationKey} {w w' : CdcWatcher}

/-- The move cuts no round of the formation short, lets no two of its tasks overlap and fails none
of its calls.  Other parts of the gateway leave the cursors as they are. -/
def SmoothMove (key : FormationKey) (w : CdcWatcher) : WatchMove → Prop
  | .watch k _ => k = key → (w.formations key).handle = none →
    ∀ t ∈ (w.formations key).tasks, t.state = .gone
  | .step k _ _ fate => k = key → fate = .calm
  | .letGo k n => k = key → ∀ t, (w.formations key).tasks[n]? = some t → t.midRound = false
  | .restart => ∀ t ∈ (w.formations key).tasks, t.midRound = false
  | .other c => c.keepsCursors = true
  | _ => True

/-- All moves are smooth. -/
def Smooth (hasher : Hasher) (key : FormationKey) : CdcWatcher → List WatchMove → Prop
  | _, [] => True
  | w, m :: l => SmoothMove key w m ∧ Smooth hasher key (w.move hasher m) l

end CdcWatcher

namespace Watched

/-- What is shared once the last task has made the calls that are left of its round. -/
def finish (s : Task) (x : Watched) : Task :=
  match x.tasks.getLast? with
  | some t => t.finish s
  | none => s

/-- All tasks but the last have ended. -/
def Alone (x : Watched) : Prop :=
  ∀ (n : ℕ) t, x.tasks[n]? = some t → t.state ≠ .gone → n + 1 = x.tasks.length

variable {x : Watched}

theorem finish_of_last {n : ℕ} {t : WatchTask} (ht : x.tasks[n]? = some t)
    (hn : n + 1 = x.tasks.length) (s : Task) : x.finish s = t.finish s := by
  have hlast : x.tasks.getLast? = some t := by
    rw [List.getLast?_eq_getElem?, ← hn, Nat.add_sub_cancel, ht]
  unfold finish
  rw [hlast]

theorem finish_of_not_midRound (h : ∀ t ∈ x.tasks, t.midRound = false) (s : Task) :
    x.finish s = s := by
  unfold finish
  split
  · next t ht => exact WatchTask.finish_of_not_midRound (h t (List.mem_of_getLast? ht)) s
  · rfl

/-- A task that changes without going on. -/
theorem finish_modify (n : ℕ) {f : WatchTask → WatchTask} {s : Task}
    (hf : ∀ t, x.tasks[n]? = some t → (f t).finish s = t.finish s) :
    finish s { x with tasks := x.tasks.modify n f } = x.finish s := by
  unfold finish
  simp only [List.getLast?_eq_getElem?, List.length_modify, List.getElem?_modify]
  cases ht : x.tasks[x.tasks.length - 1]? with
  | none => rfl
  | some t =>
    by_cases hn : n = x.tasks.length - 1
    · simp only [hn, if_true, Option.map_eq_map, Option.map_some]
      exact hf t (hn ▸ ht)
    · simp [hn]

theorem Alone.modify (h : x.Alone) (n : ℕ) {f : WatchTask → WatchTask}
    (hf : ∀ t, t.state = .gone → (f t).state = .gone) :
    Alone { x with tasks := x.tasks.modify n f } := by
  intro m t ht hgone
  simp only [List.getElem?_modify] at ht
  cases ht' : x.tasks[m]? with
  | none => simp [ht'] at ht
  | some t' =>
    have hold : t'.state ≠ .gone := by
      intro hg
      by_cases hnm : n = m
      · obtain rfl : f t' = t := by simpa [ht', hnm] using ht
        exact hgone (hf t' hg)
      · obtain rfl : t' = t := by simpa [ht', hnm] using ht
        exact hgone hg
    simpa using h m t' ht' hold

end Watched

/-- What is left of a round leads to the same for the formation. -/
theorem Watched.finish_alike {x : Watched} {key : FormationKey} {log : PublishLog} {s t : Task}
    (hx : x.Rounds (Orderly key log)) (h : s.AlikeFor key t) :
    (x.finish s).AlikeFor key (x.finish t) := by
  unfold Watched.finish
  split
  · next t' ht' =>
    unfold WatchTask.finish
    split
    · next p hp => exact run_own .calm (hx t' (List.mem_of_getLast? ht') p hp) h
    · exact h
  · exact h

namespace AnyStore

/-- Other calls do not take away that cursors can be written. -/
theorem takesCursors_keeps {c : StorageCall} (hc : c.keepsCursors = true) {st : AnyStore}
    {o : String} (h : st.TakesCursors o) : (exec c st).2.TakesCursors o := by
  cases st with
  | redb s => trivial
  | postgres s =>
    have horg : (s.orgs.select o).isSome = true := h
    change ((Postgres.exec c s).2.orgs.select o).isSome = true
    cases c
    case createOrg org =>
      simp only [Postgres.exec]
      split
      · exact horg
      · next t hins =>
        simp only [Postgres.commit, Rows.select_insert hins]
        split
        · rfl
        · exact horg
    case updateOrg org =>
      simp only [Postgres.exec, Rows.select_update]
      split
      · rwa [Option.isSome_map]
      · exact horg
    case deleteOrg | setCursor => cases hc
    -- the other calls rewrite other relations, or none
    all_goals first
      | exact horg
      | (simp only [Postgres.exec, Postgres.commit]; split <;> exact horg)

end AnyStore

namespace CdcWatcher

variable {hasher : Hasher} {st : AnyStore} {key : FormationKey} {w w' : CdcWatcher}

/-- Once the round that is under way is finished, all is as the loop that runs alone has left it
after the changes that have been taken. -/
structure Served (hasher : Hasher) (st : AnyStore) (key : FormationKey) (w : CdcWatcher) :
    Prop where
  alone : (w.formations key).Alone
  takes : w.shared.store.TakesCursors key.1
  reached : ((w.formations key).finish w.shared).AlikeFor key
    ((formation hasher key).reached calm st (w.formations key).taken)

theorem served_new (htakes : st.TakesCursors key.1) : Served hasher st key (new st) where
  alone n t ht := by simp [new, Watched.never] at ht
  takes := htakes
  reached := .refl key _

/-- Nothing has changed for the formation. -/
theorem Served.of_alike (hw : Held st w) (h : Served hasher st key w) (hkey : PairFree key)
    (hhere : w'.formations key = w.formations key) (hshared : w'.shared.AlikeFor key w.shared) :
    Served hasher st key w' where
  alone := hhere ▸ h.alone
  takes := hshared.takes.mpr h.takes
  reached := by
    rw [hhere]
    exact (Watched.finish_alike (hw.rounds key hkey) hshared).trans h.reached

/-- The formation changes without going on. -/
theorem Served.set (h : Served hasher st key w) {x : Watched} (halone : x.Alone)
    (hfinish : x.finish w.shared = (w.formations key).finish w.shared)
    (htaken : x.taken = (w.formations key).taken) : Served hasher st key (w.set key x) := by
  refine ⟨?_, h.takes, ?_⟩
  · rw [formations_set_self]
    exact halone
  · rw [formations_set_self, htaken]
    exact hfinish ▸ h.reached

/-- A task changes without going on. -/
theorem Served.modify (h : Served hasher st key w) (n : ℕ) {f : WatchTask → WatchTask}
    (hgone : ∀ t, t.state = .gone → (f t).state = .gone)
    (hfinish : ∀ t, (w.formations key).tasks[n]? = some t →
      (f t).finish w.shared = t.finish w.shared) :
    Served hasher st key (w.modify key n f) :=
  h.set (h.alone.modify n hgone) (Watched.finish_modify n hfinish) rfl

end CdcWatcher

namespace Watched

variable {x : Watched}

theorem alone_of_gone (h : ∀ t ∈ x.tasks, t.state = .gone) : x.Alone := by
  intro n t ht hgone
  exact absurd (h t (List.mem_of_getElem? ht)) hgone

theorem not_midRound_of_gone (h : ∀ t ∈ x.tasks, t.state = .gone) :
    ∀ t ∈ x.tasks, t.midRound = false := by
  intro t ht
  rw [WatchTask.midRound, h t ht]

/-- A task is spawned after all others have ended. -/
theorem alone_spawn (h : ∀ t ∈ x.tasks, t.state = .gone) : x.spawn.Alone := by
  intro n t ht hgone
  simp only [spawn] at ht ⊢
  rw [List.getElem?_append] at ht
  rw [List.length_append, List.length_singleton]
  split at ht
  · exact absurd (h t (List.mem_of_getElem? ht)) hgone
  · next hlen =>
    obtain ⟨hlt, -⟩ := List.getElem?_eq_some_iff.mp ht
    rw [List.length_singleton] at hlt
    omega

theorem finish_spawn (h : ∀ t ∈ x.tasks, t.state = .gone) (s : Task) :
    x.spawn.finish s = x.finish s := by
  rw [finish_of_not_midRound (not_midRound_of_gone h)]
  apply finish_of_not_midRound
  intro t ht
  rcases List.mem_append.mp ht with ht | ht
  · exact not_midRound_of_gone h t ht
  · rw [List.mem_singleton.mp ht]
    rfl

theorem Alone.abort (h : x.Alone) : x.abort.Alone := by
  unfold Watched.abort
  split
  · exact h.modify _ fun _ ht => ht
  · exact h

theorem finish_abort (s : Task) : x.abort.finish s = x.finish s := by
  unfold Watched.abort
  split
  · exact finish_modify _ fun _ _ => rfl
  · rfl

theorem taken_abort : x.abort.taken = x.taken := by
  unfold Watched.abort
  split <;> rfl

theorem gone_exit : ∀ t ∈ x.exit.tasks, t.state = .gone := by
  intro t ht
  obtain ⟨t', -, rfl⟩ := List.mem_map.mp ht
  rfl

/-- The last task goes on. -/
theorem Alone.set (h : x.Alone) {n : ℕ} (t : WatchTask) (hn : n + 1 = x.tasks.length)
    (taken : List Received) : Alone { x with tasks := x.tasks.set n t, taken } := by
  intro m t' ht' hgone
  simp only [List.length_set]
  rw [List.getElem?_set] at ht'
  split at ht'
  · next hnm => exact hnm ▸ hn
  · exact h m t' ht' hgone

theorem finish_set {n : ℕ} (t : WatchTask) (hn : n + 1 = x.tasks.length) (taken : List Received)
    (s : Task) : finish s { x with tasks := x.tasks.set n t, taken } = t.finish s := by
  apply finish_of_last (n := n)
  · have hlt : n < x.tasks.length := by omega
    simp [hlt]
  · simpa using hn

end Watched

namespace CdcWatcher

variable {hasher : Hasher} {st : AnyStore} {key : FormationKey} {w w' : CdcWatcher}

/-- A task of the formation goes on, and no call fails. -/
theorem Served.step (hw : Held st w) (h : Served hasher st key w) (hkey : PairFree key) (n : ℕ)
    (now : SystemTime) : Served hasher st key (w.move hasher (.step key n now .calm)) := by
  simp only [move]
  split
  · next t ht =>
    by_cases hgone : t.state = .gone
    · -- a task that has ended stays as it is
      have hsame : t.step (formation hasher key) now .calm w.shared = (w.shared, t, []) := by
        rw [WatchTask.step, hgone]
      rw [hsame]
      refine h.of_alike hw hkey ?_ (.refl key _)
      have hset : (w.formations key).tasks.set n t = (w.formations key).tasks := by
        apply List.ext_getElem?
        intro m
        rw [List.getElem?_set]
        split
        · next hnm =>
          subst hnm
          rw [ht, if_pos (List.getElem?_eq_some_iff.mp ht).1]
        · rfl
      change (w.set key _).formations key = _
      rw [formations_set_self, hset, List.append_nil]
    · -- the task is the last one, so what it leaves is what is left
      have hlast := h.alone n t ht hgone
      have hbefore := h.reached
      rw [Watched.finish_of_last ht hlast] at hbefore
      have hserved : ∀ {shared : Task} {t' : WatchTask} {taken : List Received},
          shared.AlikeFor key w.shared ∨ shared.store.TakesCursors key.1 →
          (t'.finish shared).AlikeFor key ((formation hasher key).reached calm st
            ((w.formations key).taken ++ taken)) →
          Served hasher st key { w.set key { w.formations key with
            tasks := (w.formations key).tasks.set n t',
            taken := (w.formations key).taken ++ taken } with shared } := by
        intro shared t' taken hshared hreached
        refine ⟨?_, ?_, ?_⟩
        · change ((w.set key _).formations key).Alone
          rw [formations_set_self]
          exact h.alone.set t' hlast _
        · rcases hshared with hshared | htakes
          · exact hshared.takes.mpr h.takes
          · exact htakes
        · change (((w.set key _).formations key).finish shared).AlikeFor key
            ((formation hasher key).reached calm st ((w.set key _).formations key).taken)
          rw [formations_set_self, Watched.finish_set t' hlast]
          exact hreached
      cases hstate : t.state with
      | gone => exact absurd hstate hgone
      | receiving =>
        have hshared : t.finish w.shared = w.shared := by rw [WatchTask.finish, hstate]
        rw [hshared] at hbefore
        simp only [WatchTask.step, hstate, WatchTask.receive]
        split
        · next change queue _ =>
          -- the round that begins leads to what the loop makes of the change
          apply hserved (Or.inl (.refl key _))
          rw [Formation.reached_append_singleton]
          exact run_own .calm (orderly_handleCalls hasher key [] now change) hbefore
        · apply hserved (Or.inl (.refl key _))
          rw [List.append_nil]
          split
          · exact hbefore
          · rw [hshared]
            exact hbefore
      | handling rest =>
        cases rest with
        | done r =>
          simp only [WatchTask.step, hstate]
          apply hserved (Or.inl (.refl key _))
          rw [List.append_nil]
          rwa [WatchTask.finish, hstate] at hbefore
        | call c k =>
          simp only [WatchTask.step, hstate]
          rw [WatchTask.finish, hstate] at hbefore
          have htakes := ((sameBut_call .calm c w.shared).takesCursors key.1).mp h.takes
          apply hserved (Or.inr htakes)
          rw [List.append_nil]
          exact hbefore
  · exact h

/-- **One smooth move.** -/
theorem Served.move (hw : Held st w) (h : Served hasher st key w) (hkey : PairFree key)
    {m : WatchMove} (hm : ∀ k, m.key = some k → PairFree k) (hsmooth : SmoothMove key w m) :
    Served hasher st key (w.move hasher m) := by
  by_cases hforeign : ∃ other, m.key = some other ∧ other ≠ key
  · obtain ⟨other, hother, hne⟩ := hforeign
    have htwins : Twins key (w.move hasher m) w :=
      twins_foreign hw hkey hother (hm other hother) hne
    exact h.of_alike hw hkey htwins.here htwins.shared
  · have hhere : ∀ k, m.key = some k → k = key := by
      intro k hk
      by_contra hne
      exact hforeign ⟨k, hk, hne⟩
    cases m with
    | watch k observed =>
      obtain rfl := hhere k rfl
      simp only [CdcWatcher.move]
      split
      · exact h
      · next hhandle =>
        split
        · have hgone := hsmooth rfl (by simpa using hhandle)
          exact h.set (Watched.alone_spawn hgone) (Watched.finish_spawn hgone _) rfl
        · exact h
    | unwatch k =>
      obtain rfl := hhere k rfl
      exact h.set h.alone.abort (Watched.finish_abort _) Watched.taken_abort
    | shutdown =>
      refine ⟨h.alone.abort, h.takes, ?_⟩
      change ((w.formations key).abort.finish w.shared).AlikeFor key
        ((formation hasher key).reached calm st (w.formations key).abort.taken)
      rw [Watched.finish_abort, Watched.taken_abort]
      exact h.reached
    | arrive k n change =>
      obtain rfl := hhere k rfl
      refine h.modify n ?_ ?_
      · intro t ht
        split <;> exact ht
      · intro t _
        split <;> rfl
    | close k n =>
      obtain rfl := hhere k rfl
      exact h.modify n (fun _ ht => ht) fun _ _ => rfl
    | step k n now fate =>
      obtain rfl := hhere k rfl
      obtain rfl := hsmooth rfl
      exact h.step hw hkey n now
    | letGo k n =>
      obtain rfl := hhere k rfl
      refine h.modify n ?_ ?_
      · intro t ht
        split
        · rfl
        · exact ht
      · intro t ht
        split
        · exact (WatchTask.finish_of_not_midRound (hsmooth rfl t ht) _).symm
        · rfl
    | restart =>
      have hfinish : ∀ s, (w.formations key).exit.finish s = (w.formations key).finish s := by
        intro s
        rw [Watched.finish_of_not_midRound hsmooth, Watched.finish_of_not_midRound]
        exact Watched.not_midRound_of_gone Watched.gone_exit
      exact ⟨Watched.alone_of_gone Watched.gone_exit, h.takes, hfinish _ ▸ h.reached⟩
    | other c =>
      refine h.of_alike hw hkey rfl ⟨rfl, ?_, ?_⟩
      · exact fun d => AnyStore.cursor_keeps hsmooth _ _ _ _
      · exact iff_of_true (AnyStore.takesCursors_keeps hsmooth h.takes) h.takes

/-- A smooth move writes no cursor from elsewhere. -/
theorem SmoothMove.setsNoCursor {m : WatchMove} (h : SmoothMove key w m) :
    m.setsNoCursor = true := by
  cases m
  case other c =>
    have hkeeps : c.keepsCursors = true := h
    cases c <;> first | rfl | cases hkeeps
  all_goals rfl

/-- **A formation that is watched smoothly is served as by one loop.**  Its tasks may be stopped
between rounds and new ones spawned, and all along the tasks of other formations run, fail and
overlap: once no round is under way, what was published for the formation, and its cursors, are
those of one loop that takes the same changes alone. -/
theorem smooth_reached (hasher : Hasher) {st : AnyStore} {key : FormationKey} (hkey : PairFree key)
    (htakes : st.TakesCursors key.1) {l : List WatchMove}
    (hkeys : ∀ m ∈ l, ∀ k, m.key = some k → PairFree k)
    (hsmooth : Smooth hasher key (new st) l)
    (hidle : ∀ t ∈ (((new st).moves hasher l).formations key).tasks, t.midRound = false) :
    ((new st).moves hasher l).shared.AlikeFor key ((formation hasher key).reached calm st
      (((new st).moves hasher l).formations key).taken) := by
  have hrun : ∀ {w : CdcWatcher}, Held st w → Served hasher st key w → ∀ l : List WatchMove,
      (∀ m ∈ l, ∀ k, m.key = some k → PairFree k) → Smooth hasher key w l →
      Served hasher st key (w.moves hasher l) := by
    intro w hw h l
    induction l generalizing w with
    | nil => exact fun _ _ => h
    | cons m l ih =>
      rintro hkeys ⟨hm, hl⟩
      have hfree := hkeys m List.mem_cons_self
      exact ih (hw.move hfree hm.setsNoCursor) (h.move hw hkey hfree hm)
        (fun m' hm' => hkeys m' (List.mem_cons_of_mem _ hm')) hl
  have hreached := (hrun (held_new st) (served_new htakes) l hkeys hsmooth).reached
  rwa [Watched.finish_of_not_midRound hidle] at hreached

/-! ### Two formations -/

/-- The first formation ends as if the second had never been watched. -/
theorem watchers_apart_two :
    Twins ("acme", "logistics") ((new (.redb .empty)).moves constHasher twoWatched)
      ((new (.redb .empty)).moves constHasher
        (twoWatched.filter (WatchMove.concerns ("acme", "logistics")))) :=
  watchers_apart constHasher (.redb .empty) (twoWatched_keys (.watch ("acme", "logistics") true)
    List.mem_cons_self _ rfl) twoWatched_keys (by decide +kernel)

theorem smooth_twoWatched : Smooth constHasher ("acme", "logistics") (new (.redb .empty))
    twoWatched := by
  have hne : ("acme", "fleet") ≠ ("acme", "logistics") := by decide
  refine ⟨?_, fun h => absurd h hne, trivial, trivial, fun _ => rfl, fun _ => rfl, fun _ => rfl,
    fun _ => rfl, fun h => absurd h hne, fun _ => rfl, fun _ => rfl, fun _ => rfl, trivial⟩
  intro _ _ t ht
  cases ht

/-- For the first formation all is as its own loop leaves it, though the second could not be
published. -/
theorem smooth_reached_two :
    ((new (.redb .empty)).moves constHasher twoWatched).shared.published.length = 2 ∧
    ((new (.redb .empty)).moves constHasher twoWatched).shared.AlikeFor ("acme", "logistics")
      ((formation constHasher ("acme", "logistics")).reached calm (.redb .empty)
        (((new (.redb .empty)).moves constHasher twoWatched).formations
          ("acme", "logistics")).taken) := by
  have hkey : PairFree ("acme", "logistics") :=
    twoWatched_keys (.watch ("acme", "logistics") true) List.mem_cons_self _ rfl
  have htakes : AnyStore.TakesCursors ("acme", "logistics").1 (.redb .empty) := trivial
  exact ⟨by decide +kernel, smooth_reached constHasher hkey htakes twoWatched_keys
    smooth_twoWatched (by decide +kernel)⟩

end CdcWatcher

end PeatGateway
