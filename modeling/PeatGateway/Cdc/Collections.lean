import PeatGateway.Cdc.Routing

/-!
# Which formations see a change

The task of a formation observes the collection that is named after it, `org.app`, and takes
every change it receives for one of its own.  An identifier may hold a dot, so two formations
may be named alike; if they share a document store, each publishes the changes of both.

## Main definitions

* `Formation.collection` — the collection the task of a formation observes.
* `WatcherCall`, `watched`, `observers` — the formations that are watched, and those that
  receive a change.
* `Formation.MayDeliver` — the task may deliver the event of a change to a sink.
* `Isolated` — a change is seen by one formation, and by the sinks of one organization.
* `Overlap` — two formations are named alike.

## Main results

* `Formation.collection_eq_iff` — when formations observe one collection.
* `Formation.tried_after` — a task delivers to sinks of its own organization.
* `isolated_iff` — **changes are isolated exactly if no two watched formations overlap**.
* `isolated_broken` — two organizations, one collection.
-/

namespace PeatGateway

open Effect Text

/-! ### The formations that are watched -/

/-- What the handle of a task is kept under. -/
def Formation.key (F : Formation) : String × String := (F.orgId, F.appId)

/-- The collection the task observes. -/
def Formation.collection (F : Formation) : String := glue '.' F.orgId F.appId

/-- A call of the watcher.  The document store may refuse to be observed. -/
inductive WatcherCall
  | watch (F : Formation) (observed : Bool)
  | unwatch (orgId appId : String)
  | shutdown

/-- The formations that are watched after the call. -/
def WatcherCall.exec : WatcherCall → List Formation → List Formation
  | watch F observed, handles =>
    -- no formation is watched twice
    if handles.any fun F' => F'.key == F.key then handles
    else if observed then handles ++ [F] else handles
  | unwatch orgId appId, handles => handles.filter fun F => F.key != (orgId, appId)
  | shutdown, _ => []

/-- The formations that are watched after the calls, on one document store. -/
def watched (calls : List WatcherCall) : List Formation :=
  calls.foldl (fun handles c => c.exec handles) []

/-- The formations whose tasks receive the changes of the collection. -/
def observers (handles : List Formation) (collection : String) : List Formation :=
  handles.filter fun F => F.collection == collection

/-! ### Isolation -/

/-- Others lead from embedded stores a gateway gets to, to such stores. -/
def Setting.KeepsReachable (G : Type) (Γ : Setting) : Prop :=
  ∀ n s, GatewayReachable G s → ∃ t, Γ.others n (.redb s) = .redb t ∧ GatewayReachable G t

/-- In some gateway the task delivers, or tries to, the event of the change to the sink. -/
def Formation.MayDeliver (G : Type) (F : Formation) (r : Received) (k : CdcSinkConfig) : Prop :=
  ∃ (Γ : Setting) (w : World) (s : Redb), Γ.KeepsReachable G ∧ w.store = .redb s ∧
    GatewayReachable G s ∧ w.attempts = [] ∧ ∃ event, (event, k) ∈ (F.after Γ w r).tried

/-- Every change is seen by one formation, and by the sinks of one organization. -/
structure Isolated (G : Type) (handles : List Formation) : Prop where
  /-- Formations observe collections of their own. -/
  collections : ∀ F ∈ handles, ∀ F' ∈ handles, F.key ≠ F'.key → F.collection ≠ F'.collection
  /-- The events made of a change are those of one formation. -/
  events : ∀ collection, ∀ F ∈ observers handles collection,
    ∀ F' ∈ observers handles collection, ∀ change now now' event event',
    F.event? change now = some event → F'.event? change now' = some event' →
    (event.orgId, event.appId) = (event'.orgId, event'.appId)
  /-- The sinks they are delivered to are those of one organization. -/
  sinks : ∀ collection, ∀ F ∈ observers handles collection,
    ∀ F' ∈ observers handles collection, ∀ change now now' k k',
    F.MayDeliver G ⟨change, now⟩ k → F'.MayDeliver G ⟨change, now'⟩ k' → k.orgId = k'.orgId

/-- The formations are named alike: the organization of the one ends in what the application of
the other starts with. -/
def Overlap (F F' : Formation) : Prop :=
  ∃ x, F.orgId = glue '.' F'.orgId x ∧ F'.appId = glue '.' x F.appId

/-- **When formations observe one collection.** -/
theorem Formation.collection_eq_iff {F F' : Formation} :
    F.collection = F'.collection ↔ F.key = F'.key ∨ Overlap F' F ∨ Overlap F F' := by
  rw [collection, collection, glue_eq_glue_iff, key, key, Prod.mk.injEq]
  rfl

/-- Formations that overlap are not the same. -/
theorem Overlap.key_ne {F F' : Formation} (h : Overlap F F') : F.key ≠ F'.key := by
  obtain ⟨x, horg, -⟩ := h
  intro heq
  have hlen := congrArg (fun k : String × String => k.1.toList.length) heq
  simp [Formation.key, horg] at hlen

/-! ### Where a task delivers -/

section Task

variable {G : Type} {Γ : Setting} {w : World} {s : Redb}

theorem attempts_ofStore {α : Type} (p : StoreProg α) (w : World) :
    ((ofStore p).run Γ.exec w).2.attempts = w.attempts := by
  induction p generalizing w with
  | done r => rfl
  | call c k ih => exact ih _ _

/-- An event is delivered to sinks of its organization. -/
theorem tried_publish (hΓ : Γ.KeepsReachable G) (hw : w.store = .redb s)
    (hs : GatewayReachable G s) (event : CdcEvent) :
    ∀ a ∈ ((publish event).run Γ.exec w).2.tried, a ∈ w.tried ∨ a.2.orgId = event.orgId := by
  obtain ⟨s₁, hfound, hs₁⟩ := hΓ w.calls s hs
  obtain ⟨s₂, hlisted, hs₂⟩ := hΓ (w.calls + 1) s₁ hs₁
  obtain ⟨sinks, htried, -, horg, -⟩ :=
    publish_routes (by rw [Setting.found, hw, hfound]) hs₁ hlisted hs₂ event
  intro a ha
  rw [htried, List.mem_append] at ha
  apply ha.imp_right
  intro ha
  obtain ⟨k, hk, rfl⟩ := List.mem_map.mp ha
  exact horg k hk

theorem tried_emit (hΓ : Γ.KeepsReachable G) (hw : w.store = .redb s)
    (hs : GatewayReachable G s) (event : CdcEvent) :
    ∀ a ∈ ((emit event).run Γ.exec w).2.tried, a ∈ w.tried ∨ a.2.orgId = event.orgId := by
  intro a ha
  apply tried_publish hΓ hw hs event a
  rw [emit, Prog.run_bind, Prog.run_outcome, Prog.next_ok] at ha
  cases hr : ((publish event).run Γ.exec w).1 with
  | error e =>
    rw [hr] at ha
    exact ha
  | ok u =>
    -- writing the cursor hands nothing over
    rw [hr] at ha
    change a ∈ World.tried (((ofStore _).outcome >>= _).run _ _).2 at ha
    rw [Prog.run_bind, Prog.run_outcome, Prog.next_ok] at ha
    change a ∈ World.tried ((ofStore _).run _ _).2 at ha
    rw [World.tried, attempts_ofStore] at ha
    exact ha

/-- **A task delivers to sinks of its own organization.** -/
theorem Formation.tried_after (F : Formation) (hΓ : Γ.KeepsReachable G) (hw : w.store = .redb s)
    (hs : GatewayReachable G s) (r : Received) :
    ∀ a ∈ (F.after Γ w r).tried, a ∈ w.tried ∨ a.2.orgId = F.orgId := by
  obtain ⟨change, now⟩ := r
  intro a ha
  cases change with
  | initial documents => exact Or.inl ha
  | removed docId => exact tried_emit hΓ hw hs (F.removalEvent docId now) a ha
  | updated document =>
    rw [Formation.after, Formation.handle, Prog.run_bind, Prog.run_outcome, Prog.next_ok] at ha
    -- reading the cursor leaves a store that is reachable, and hands nothing over
    obtain ⟨s₁, hfound, hs₁⟩ := hΓ w.calls s hs
    have hstore : ((ofStore (TenantManager.getCursor F.orgId F.appId
        (F.updateEvent document).documentId)).run Γ.exec w).2.store = .redb s₁ := by
      change (Γ.exec (.inl (.getCursor _ _ _)) w).2.store = _
      rw [exec_read rfl, Setting.found, hw, hfound]
    have hattempts := attempts_ofStore (Γ := Γ) (TenantManager.getCursor F.orgId F.appId
      (F.updateEvent document).documentId) w
    generalize ((ofStore (TenantManager.getCursor F.orgId F.appId
      (F.updateEvent document).documentId)).run Γ.exec w) = c at ha hstore hattempts
    have htried : c.2.tried = w.tried := by rw [World.tried, World.tried, hattempts]
    rw [← htried]
    split at ha
    · exact Or.inl ha
    · exact tried_emit hΓ hstore hs₁ (F.updateEvent document) a ha

/-- A task that may deliver to a sink is of its organization. -/
theorem Formation.MayDeliver.org {F : Formation} {r : Received} {k : CdcSinkConfig}
    (h : F.MayDeliver G r k) : k.orgId = F.orgId := by
  obtain ⟨Γ, w, s, hΓ, hw, hs, hempty, event, hk⟩ := h
  apply (F.tried_after hΓ hw hs r _ hk).resolve_left
  intro hmem
  rw [World.tried, hempty] at hmem
  cases hmem

/-- The event of a change names the formation. -/
theorem Formation.event?_key {F : Formation} {change : ChangeEvent} {now : SystemTime}
    {event : CdcEvent} (h : F.event? change now = some event) :
    (event.orgId, event.appId) = F.key := by
  cases change <;> cases h <;> rfl

end Task

theorem mem_observers {handles : List Formation} {collection : String} {F : Formation} :
    F ∈ observers handles collection ↔ F ∈ handles ∧ F.collection = collection := by
  rw [observers, List.mem_filter, beq_iff_eq]

/-- **Changes are isolated exactly if no two watched formations overlap.** -/
theorem isolated_iff (G : Type) (calls : List WatcherCall) :
    Isolated G (watched calls) ↔
      ∀ F ∈ watched calls, ∀ F' ∈ watched calls, ¬ Overlap F F' := by
  constructor
  · intro h F hF F' hF' hover
    exact h.collections F hF F' hF' hover.key_ne
      (Formation.collection_eq_iff.mpr (Or.inr (Or.inr hover)))
  · intro h
    -- formations with one collection are one formation
    have hone : ∀ F ∈ watched calls, ∀ F' ∈ watched calls, F.collection = F'.collection →
        F.key = F'.key := by
      intro F hF F' hF' heq
      rcases Formation.collection_eq_iff.mp heq with hkey | hover | hover
      · exact hkey
      · exact absurd hover (h F' hF' F hF)
      · exact absurd hover (h F hF F' hF')
    have hobs : ∀ collection, ∀ F ∈ observers (watched calls) collection,
        ∀ F' ∈ observers (watched calls) collection, F.key = F'.key := by
      intro collection F hF F' hF'
      obtain ⟨hF, hc⟩ := mem_observers.mp hF
      obtain ⟨hF', hc'⟩ := mem_observers.mp hF'
      exact hone F hF F' hF' (hc.trans hc'.symm)
    refine ⟨fun F hF F' hF' hne heq => hne (hone F hF F' hF' heq), ?_, ?_⟩
    · intro collection F hF F' hF' change now now' event event' he he'
      rw [Formation.event?_key he, Formation.event?_key he', hobs collection F hF F' hF']
    · intro collection F hF F' hF' change now now' k k' hk hk'
      rw [hk.org, hk'.org]
      exact congrArg Prod.fst (hobs collection F hF F' hF')

/-! ### Two formations named alike -/

/-- Two organizations, each with a formation and a webhook. -/
def dottedStore : Redb :=
  let ops : List ManagerOp := [.createOrg 0 "a.b" "First", .createOrg 0 "a" "Second",
    .createFormation ⟨[42], (sampleDraws 0).envelope⟩ "a.b" "c" .open,
    .createFormation ⟨[43], (sampleDraws 0).envelope⟩ "a" "b.c" .open,
    .createSink (.replicate 8 1) 0 "a.b" (.webhook "https://first"),
    .createSink (.replicate 8 2) 0 "a" (.webhook "https://second")]
  ops.foldl (fun s op => ((op.prog seedManager).run Redb.exec s).2) .empty

/-- Their formations. -/
def dottedFormations : List Formation := [⟨"a.b", "c", fun _ => 7⟩, ⟨"a", "b.c", fun _ => 8⟩]

/-- A document of the first. -/
def dottedChange : Received := ⟨.updated ⟨some "doc-1", .empty, 1000000000⟩, 0⟩

/-- Both formations observe the collection `a.b.c`, and a change of a document in it goes to the
sinks of both organizations. -/
theorem isolated_broken :
    (∀ F ∈ dottedFormations, IsIdentifier F.orgId ∧ IsIdentifier F.appId) ∧
      (observers (watched (dottedFormations.map fun F => .watch F true)) "a.b.c").map
        (fun F => ((F.after refusingSetting ⟨.redb dottedStore, 0, .redb .empty, []⟩
          dottedChange).tried.map fun a => (a.2.orgId, a.2.sinkId))) =
        [[("a.b", "0101010101010101")], [("a", "0202020202020202")]] ∧
      ¬ Isolated Bytes (watched (dottedFormations.map fun F => .watch F true)) := by
  refine ⟨by decide +kernel, by decide +kernel, ?_⟩
  intro h
  refine h.collections ⟨"a.b", "c", fun _ => 7⟩ ?_ ⟨"a", "b.c", fun _ => 8⟩ ?_ (by decide) rfl
  · exact List.mem_cons_self
  · exact List.mem_cons_of_mem _ List.mem_cons_self

end PeatGateway
