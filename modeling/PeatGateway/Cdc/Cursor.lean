import PeatGateway.Cdc.Watcher
import PeatGateway.Tenant.Core

/-!
# What a cursor says

The cursor of a document is the hash of an event, and an update with that hash is taken for
published and passed over.  It should say that every sink that was enabled when the event was
published has accepted it.  It does so as long as every sink an event is handed to can be
delivered to: the engine does not report what it was told by the sinks, so the task writes
the cursor all the same.

## Main definitions

* `AnyStore.cursor`, `AnyStore.sink` — the cursor of a document and the sinks of an
  organization, in a store of either kind.
* `CursorSound` — a call that makes the hash of an event the cursor of its document is made
  only after every enabled sink has accepted the event.
* `Answered` — a sink the task hands an event to can be delivered to.

## Main results

* `publish_allAccepted` — **publishing delivers**, if every sink can be delivered to.
* `Formation.cursor_sound` — **the cursor says what it should**, in every run in which every
  sink that is handed an event can be delivered to.
* `cursor_unsound_refused` — it does not, once a sink refuses.
-/

namespace PeatGateway

open Effect

/-! ### Cursors and sinks in a store -/

namespace AnyStore

/-- The cursor of a document. -/
def cursor (orgId appId documentId : String) : AnyStore → Option String
  | .redb s => s.cursors[cursorKey orgId appId documentId]?
  | .postgres s => s.cursors.select (orgId, appId, documentId)

/-- A sink of an organization. -/
def sink (orgId sinkId : String) : AnyStore → Option CdcSinkConfig
  | .redb s => s.sinks[sinkKey orgId sinkId]?
  | .postgres s => s.sinks.select (orgId, sinkId)

/-- The listing holds every sink of the organization. -/
theorem mem_of_listSinks {st : AnyStore} {o x : String} {sinks : List CdcSinkConfig}
    {k : CdcSinkConfig} (hlist : (exec (.listSinks o) st).1 = .ok sinks)
    (hk : st.sink o x = some k) : k ∈ sinks := by
  cases st with
  | redb s =>
    obtain rfl : s.sinks.scan (belongsTo o) = sinks := Except.ok.inj hlist
    exact Table.mem_scan.mpr ⟨sinkKey o x, belongsTo_nulKey o x, hk⟩
  | postgres s =>
    obtain rfl : s.sinks.orderBy (·.1 == o) Prod.snd = sinks := Except.ok.inj hlist
    exact Rows.mem_orderBy.mpr ⟨(o, x), beq_self_eq_true o, hk⟩

end AnyStore

/-! ### One call -/

namespace World

/-- The sink has accepted the event. -/
def Accepted (w : World) (event : CdcEvent) (sink : CdcSinkConfig) : Prop :=
  (event, sink, Delivery.accepted) ∈ w.attempts

/-- Every sink that was enabled when sinks were last listed has accepted the event. -/
def AllAccepted (w : World) (event : CdcEvent) : Prop :=
  ∀ x sink, w.listedAt.sink event.orgId x = some sink → sink.enabled = true →
    w.Accepted event sink

end World

section Calls

variable (Γ : Setting)

/-- The call makes the hash of the event the cursor of its document. -/
def Advances (event : CdcEvent) (c : Cdc.Call) (w : World) : Prop :=
  (Γ.found w).cursor event.orgId event.appId event.documentId ≠ some event.changeHash ∧
    (Γ.exec c w).2.store.cursor event.orgId event.appId event.documentId = some event.changeHash

/-- If the call makes the hash of the event the cursor of its document, every sink that was
enabled when the event was published has accepted it. -/
def CursorSound (event : CdcEvent) (c : Cdc.Call) (w : World) : Prop :=
  Advances Γ event c w → w.AllAccepted event

/-- If the call hands an event to a sink, the sink can be delivered to. -/
def Answered : Cdc.Call → World → Prop
  | .inl _, _ => True
  | .inr (event, sink), w => Γ.engine.Deliverable (Γ.net w.calls) event sink

variable {Γ}

/-- What a call to the store that succeeds answers. -/
theorem exec_inl_ok {c : StorageCall} {w : World} {x : c.Res}
    (h : (Γ.exec (.inl c) w).1 = .ok x) : (AnyStore.exec c (Γ.found w)).1 = .ok x := by
  simp only [Setting.exec, faulty] at h
  split at h
  · cases h
  · cases h
  · exact h

/-- The calls that write nothing to the store. -/
def writesNothing : Cdc.Call → Prop
  | .inl c => c.isRead = true
  | .inr _ => True

theorem store_of_writesNothing {c : Cdc.Call} (h : writesNothing c) (w : World) :
    (Γ.exec c w).2.store = Γ.found w := by
  match c with
  | .inl c =>
    simp only [Setting.exec, faulty]
    split
    · exact AnyStore.exec_of_isRead h _
    · rfl
    · exact AnyStore.exec_of_isRead h _
  | .inr (event, sink) => rfl

/-- The specification of programs that write nothing to the store. -/
def writesNothingSpec : Spec Cdc := ⟨writesNothing, fun _ _ => True⟩

theorem cursorSound_of_writesNothing {c : Cdc.Call} (h : writesNothing c) (event : CdcEvent)
    (w : World) : CursorSound Γ event c w := by
  intro hadv
  have hcursor := hadv.2
  rw [store_of_writesNothing h] at hcursor
  exact absurd hcursor hadv.1

/-- A program that writes nothing makes no hash a cursor. -/
theorem along_of_writesNothing {α : Type} {p : CdcProg α} {Q : α → Prop}
    (hp : p.Meets writesNothingSpec Q) (event : CdcEvent) (w : World) :
    p.Along Γ.exec (CursorSound Γ event) w := by
  have hsound : writesNothingSpec.Sound Γ.exec fun _ => True :=
    fun _ _ _ _ => ⟨trivial, fun _ _ => trivial⟩
  exact (hp.along hsound trivial).mono fun c w hc => cursorSound_of_writesNothing hc event w

end Calls

/-! ### Publishing -/

section Publish

variable {Γ : Setting} {event : CdcEvent} {w : World}

theorem handOverAll_cons (sink : CdcSinkConfig) (sinks : List CdcSinkConfig) :
    handOverAll event (sink :: sinks) =
      if sink.enabled then
        Prog.call (S := Cdc) (.inr (event, sink)) fun _ => handOverAll event sinks
      else handOverAll event sinks := by
  rw [handOverAll]
  split <;> rfl

/-- Publishing writes nothing to the store. -/
theorem publish_writesNothing : (publish event).Meets writesNothingSpec fun _ => True := by
  have hlist : (ofStore (TenantManager.listSinks event.orgId)).Meets writesNothingSpec
      fun _ => True := by
    let Φ : Spec Storage := ⟨fun c => c.isRead = true, fun _ _ => True⟩
    refine Prog.meets_inl (Φ := Φ) (fun _ hc => hc) (fun _ _ _ => trivial) ?_
    simp [TenantManager.listSinks, TenantManager.getOrg, StorageCall.isRead, Φ]
  have hsinks : ∀ sinks, (handOverAll event sinks).Meets writesNothingSpec fun _ => True := by
    intro sinks
    induction sinks with
    | nil => exact (Prog.meets_ok ()).mpr trivial
    | cons sink sinks ih =>
      rw [handOverAll_cons]
      split
      · exact (Prog.meets_call _ _).mpr ⟨trivial, fun _ => ih, fun _ _ => ih⟩
      · exact ih
  exact (Prog.meets_bind _ _ _).mpr (hlist.mono fun sinks _ => hsinks sinks)

/-- The task holds the sinks of the organization as they were when it listed them. -/
theorem wp_listSinks (o : String) :
    (ofStore (TenantManager.listSinks o)).Wp Γ.exec w
      (fun sinks w' => ∀ x sink, w'.listedAt.sink o x = some sink → sink ∈ sinks)
      fun _ => True := by
  rw [ofStore, TenantManager.listSinks, Prog.inl_bind, Prog.wp_bind]
  apply Prog.wp_of_ok
  intro _ _
  generalize ((TenantManager.getOrg o).inl.run Γ.exec w).2 = w₁
  apply Prog.wp_of_ok
  intro sinks hsinks x sink hsink
  exact AnyStore.mem_of_listSinks (exec_inl_ok (c := .listSinks o) hsinks) hsink

/-- **The loop over the sinks** hands the event to each that is enabled. -/
theorem handOverAll_accepted {sinks : List CdcSinkConfig}
    (h : (handOverAll event sinks).Along Γ.exec (Answered Γ) w) :
    (handOverAll event sinks).Wp Γ.exec w
      (fun _ w' => w'.listedAt = w.listedAt ∧ (∀ a ∈ w.attempts, a ∈ w'.attempts) ∧
        ∀ sink ∈ sinks, sink.enabled = true → w'.Accepted event sink)
      fun _ => False := by
  induction sinks generalizing w with
  | nil => exact (Prog.wp_ok ()).mpr ⟨rfl, fun _ ha => ha, nofun⟩
  | cons sink sinks ih =>
    rw [handOverAll_cons] at h ⊢
    split at h
    · next hon =>
      rw [if_pos hon]
      obtain ⟨hdel, hrest⟩ := (Prog.along_call _ _ _).mp h
      -- the sink accepts the event, and what follows keeps that
      have hacc : (Γ.exec (.inr (event, sink)) w).2.Accepted event sink := by
        refine List.mem_append_right _ (List.mem_singleton.mpr ?_)
        rw [deliver_eq_accepted.mpr hdel]
      refine Prog.wp_call.mpr ((ih hrest).mono ?_ fun _ hf => hf)
      rintro _ w' ⟨hlisted, hkeep, hall⟩
      refine ⟨hlisted, fun a ha => hkeep a (List.mem_append_left _ ha), ?_⟩
      intro k hk hon
      rcases List.mem_cons.mp hk with rfl | hk
      · exact hkeep _ hacc
      · exact hall k hk hon
    · next hoff =>
      rw [if_neg hoff]
      refine (ih h).mono ?_ fun _ hf => hf
      rintro _ w' ⟨hlisted, hkeep, hall⟩
      refine ⟨hlisted, hkeep, ?_⟩
      intro k hk hon
      rcases List.mem_cons.mp hk with rfl | hk
      · exact absurd hon hoff
      · exact hall k hk hon

/-- **Publishing delivers**, if every sink can be delivered to. -/
theorem publish_allAccepted (h : (publish event).Along Γ.exec (Answered Γ) w) :
    (publish event).Wp Γ.exec w (fun _ w' => w'.AllAccepted event) fun _ => True := by
  rw [publish, Prog.along_bind] at h
  rw [publish, Prog.wp_bind]
  apply Prog.wp_of_ok
  intro sinks hsinks
  have hlist := (wp_listSinks event.orgId).of_ok hsinks
  refine (handOverAll_accepted (h.2 sinks hsinks)).mono ?_ fun _ hf => hf.elim
  rintro _ w' ⟨hlisted, -, hall⟩ x sink hsink hon
  rw [hlisted] at hsink
  exact hall sink (hlist x sink hsink) hon

/-- The event is published, and only then its hash is written. -/
theorem emit_sound (h : (emit event).Along Γ.exec (Answered Γ) w) :
    (emit event).Along Γ.exec (CursorSound Γ event) w := by
  rw [emit, Prog.along_outcome_bind] at h
  rw [emit, Prog.along_outcome_bind]
  refine ⟨along_of_writesNothing publish_writesNothing event w, ?_⟩
  have hall := publish_allAccepted h.1
  cases hr : ((publish event).run Γ.exec w).1 with
  | error e => exact Prog.along_done _ _
  | ok u => exact (Prog.along_call _ _ _).mpr ⟨fun _ => hall.of_ok hr, Prog.along_done _ _⟩

/-- What the cursor that is written says, if it is sound. -/
theorem allAccepted_of_emit_sound (h : (emit event).Along Γ.exec (CursorSound Γ event) w)
    (hok : ((publish event).run Γ.exec w).1 = .ok ())
    (hadv : Advances Γ event (.inl (.setCursor event.orgId event.appId event.documentId
      event.changeHash)) ((publish event).run Γ.exec w).2) :
    ((publish event).run Γ.exec w).2.AllAccepted event := by
  rw [emit, Prog.along_outcome_bind, hok] at h
  exact ((Prog.along_call _ _ _).mp h.2).1 hadv

theorem along_answered_ofStore {α : Type} (p : StoreProg α) (w : World) :
    (ofStore p).Along Γ.exec (Answered Γ) w := by
  induction p generalizing w with
  | done r => exact Prog.along_done r w
  | call c k ih => exact (Prog.along_call _ _ _).mpr ⟨trivial, ih _ _⟩

/-- The sinks are handed the event as they were listed. -/
theorem along_answered_emit {sinks : List CdcSinkConfig}
    (hlist : ((ofStore (TenantManager.listSinks event.orgId)).run Γ.exec w).1 = .ok sinks)
    (h : ∀ sink ∈ sinks, ∀ n, Γ.engine.Deliverable (Γ.net n) event sink) :
    (emit event).Along Γ.exec (Answered Γ) w := by
  -- Handing over reaches the network only, so the sinks stay as they were listed.
  have hloop : ∀ w, (handOverAll event sinks).Along Γ.exec (Answered Γ) w := by
    clear hlist
    induction sinks with
    | nil => exact fun w => Prog.along_done _ w
    | cons sink sinks ih =>
      intro w
      have hrest := ih fun k hk => h k (List.mem_cons_of_mem _ hk)
      rw [handOverAll_cons]
      split
      · exact (Prog.along_call _ _ _).mpr ⟨h sink List.mem_cons_self _, hrest _⟩
      · exact hrest w
  refine (Prog.along_outcome_bind _ _ _).mpr ⟨?_, ?_⟩
  · refine (Prog.along_bind _ _ _).mpr ⟨along_answered_ofStore _ w, ?_⟩
    intro sinks' hsinks
    obtain rfl := Except.ok.inj (hlist.symm.trans hsinks)
    exact hloop _
  · cases ((publish event).run Γ.exec w).1 with
    | error e => exact Prog.along_done _ _
    | ok u =>
      refine (Prog.along_outcome_bind _ _ _).mpr ⟨along_answered_ofStore _ _, ?_⟩
      exact Prog.along_done _ _

end Publish

/-! ### The task -/

namespace Formation

variable (F : Formation) {Γ : Setting} {w : World}

/-- One change. -/
theorem handle_sound {change : ChangeEvent} {now : SystemTime} {event : CdcEvent}
    (hevent : F.event? change now = some event)
    (h : (F.handle now change).Along Γ.exec (Answered Γ) w) :
    (F.handle now change).Along Γ.exec (CursorSound Γ event) w := by
  cases change with
  | updated document =>
    obtain rfl : F.updateEvent document = event := Option.some.inj hevent
    rw [handle, Prog.along_outcome_bind] at h ⊢
    refine ⟨?_, ?_⟩
    · -- reading the cursor writes nothing
      refine (Prog.along_call _ _ _).mpr ⟨cursorSound_of_writesNothing ?_ _ _, Prog.along_done _ _⟩
      exact rfl
    · split
      · exact Prog.along_done _ _
      · next hnew =>
        rw [if_neg hnew] at h
        exact emit_sound h.2
  | removed docId =>
    obtain rfl : F.removalEvent docId now = event := Option.some.inj hevent
    exact emit_sound h
  | initial documents => cases hevent

/-- What the cursor should say, while a change is handled. -/
def RoundSound (Γ : Setting) (r : Received) (c : Cdc.Call) (w : World) : Prop :=
  ∀ event, F.event? r.change r.now = some event → CursorSound Γ event c w

/-- **The cursor says what it should in every run in which every sink that is handed an event
can be delivered to.** -/
theorem cursor_sound (w : World) (l : List Received)
    (h : F.EachCall Γ (fun _ => Answered Γ) w l) : F.EachCall Γ (F.RoundSound Γ) w l := by
  induction l generalizing w with
  | nil => trivial
  | cons r l ih =>
    refine ⟨?_, ih _ h.2⟩
    cases hevent : F.event? r.change r.now with
    | none =>
      apply h.1.mono
      intro c w _ event he
      rw [hevent] at he
      cases he
    | some event =>
      apply (F.handle_sound hevent h.1).mono
      intro c w hc event' he
      obtain rfl := Option.some.inj (hevent.symm.trans he)
      exact hc

end Formation

/-! ### A sink that refuses -/

/-- A store with one organization and one sink. -/
def hookStore : AnyStore :=
  let made := (TenantManager.createOrg 1 "acme" "Acme").run AnyStore.exec (.redb .empty)
  ((TenantManager.createSink (.replicate 8 7) 2 "acme" (.webhook "https://hooks.example")).run
    AnyStore.exec made.2).2

/-- The sink. -/
def hookSink : CdcSinkConfig :=
  ⟨"0707070707070707", "acme", .webhook "https://hooks.example", true, 2⟩

/-- A document without fields, one second after the epoch. -/
def hookChange : Received := ⟨.updated ⟨some "doc-1", .empty, 1000000000⟩, 0⟩

/-- The formation.  The number is what the hasher of the standard library makes of the change. -/
def hookFormation : Formation := ⟨"acme", "logistics", fun _ => 0x8e9b83ba7d64c253⟩

/-- Nothing but the status of the endpoint's answers is out of the ordinary. -/
def hookSetting (status : WebhookStatus) : Setting where
  engine := ⟨true, false, true⟩
  others _ st := st
  faults _ := none
  net _ := ⟨fun _ _ _ => .ok status, fun _ _ => .ok (), fun _ _ => .ok ()⟩

/-- The endpoint takes what it is sent. -/
def hookTakes : Setting := hookSetting ⟨200, "200 OK"⟩

/-- The endpoint refuses what it is sent. -/
def hookRefuses : Setting := hookSetting ⟨404, "404 Not Found"⟩

/-- The world the task starts in. -/
def hookWorld : World := ⟨hookStore, 0, hookStore, []⟩

/-- The world after the cursor has been read. -/
def hookRead (Γ : Setting) : World :=
  ((ofStore (TenantManager.getCursor "acme" "logistics" "doc-1")).run Γ.exec hookWorld).2

/-- The event of the change. -/
def hookEvent : CdcEvent := hookFormation.updateEvent ⟨some "doc-1", .empty, 1000000000⟩

/-- An endpoint that refuses the event does not keep the cursor from being written, and when
the change comes back no sink is handed it again. -/
theorem cursor_unsound_refused :
    ¬ hookFormation.EachCall hookRefuses (hookFormation.RoundSound hookRefuses) hookWorld
        [hookChange] ∧
      (hookFormation.after hookTakes (hookFormation.after hookRefuses hookWorld hookChange)
        hookChange).attempts.length = 1 := by
  refine ⟨?_, by decide +kernel⟩
  intro h
  have hround : (hookFormation.handle 0 hookChange.change).Along hookRefuses.exec
      (CursorSound hookRefuses hookEvent) hookWorld := h.1.mono fun c w hc => hc _ rfl
  have hemit : (emit hookEvent).Along hookRefuses.exec
      (CursorSound hookRefuses hookEvent) (hookRead hookRefuses) :=
    ((Prog.along_outcome_bind _ _ _).mp hround).2
  have hall := allAccepted_of_emit_sound hemit (by decide +kernel)
    ⟨by decide +kernel, by decide +kernel⟩
  have hacc := hall "0707070707070707" hookSink (by decide +kernel) rfl
  have hmem := List.mem_map_of_mem (f := fun a => a.2.2) hacc
  revert hmem
  decide +kernel

/-- With an endpoint that takes the event, the cursor is written and says what it should. -/
theorem cursor_sound_taken :
    hookFormation.EachCall hookTakes (hookFormation.RoundSound hookTakes) hookWorld [hookChange] ∧
      (hookFormation.after hookTakes hookWorld hookChange).store.cursor "acme" "logistics" "doc-1" =
        some "8e9b83ba7d64c253" := by
  have hlist : ((ofStore (TenantManager.listSinks "acme")).run hookTakes.exec
      (hookRead hookTakes)).1 = .ok [hookSink] := by decide +kernel
  have hemit : (emit hookEvent).Along hookTakes.exec (Answered hookTakes)
      (hookRead hookTakes) := by
    apply along_answered_emit hlist
    intro sink hsink n
    rw [List.mem_singleton.mp hsink]
    exact ⟨rfl, 0, by decide, ⟨⟨200, "200 OK"⟩, rfl, by decide⟩, fun j hj => by omega⟩
  refine ⟨Formation.cursor_sound _ _ _ ⟨?_, trivial⟩, by decide +kernel⟩
  exact (Prog.along_outcome_bind _ _ _).mpr ⟨along_answered_ofStore _ _, hemit⟩

end PeatGateway
