import PeatGateway.Api.EnrollSound
import PeatGateway.Cdc.Cursor
import PeatGateway.Storage.Interchange

/-!
# Where an event goes

An event is delivered to the sinks of its organization.  The engine does not look at the
organization of a sink: that the sinks it is given are those of the organization is due to
their keys, and these are right in every store the gateway gets to.

## Main definitions

* `CdcEngine.delivers` — the engine delivers to sinks of this kind.
* `World.tried` — the deliveries that were attempted, in order.
* `handed` — what the loop over the sinks does.

## Main results

* `handOverAll_handed` — **the loop over the sinks goes through all of them**, whatever
  becomes of each.
* `publish_routes` — **an event goes to the sinks of its organization**, to each once.
-/

namespace PeatGateway

open Effect Text

/-! ### Attempts -/

/-- An attempt was made to deliver the event. -/
def Delivery.attempted : Delivery → Bool
  | .accepted | .failed _ => true
  | .noConnection | .notEnabled | .unimplemented => false

/-- The engine delivers to sinks of this kind: webhooks, and NATS if it is connected. -/
def CdcEngine.delivers (E : CdcEngine) (sink : CdcSinkConfig) : Bool :=
  match sink.sinkType with
  | .nats _ => E.natsFeature && E.natsConnected
  | .webhook _ => E.webhookFeature
  | .kafka _ => false

/-- The deliveries that were attempted, in order. -/
def World.tried (w : World) : List (CdcEvent × CdcSinkConfig) :=
  (w.attempts.filter fun a => a.2.2.attempted).map fun a => (a.1, a.2.1)

theorem attempted_ofExcept (r : Except Error Unit) : (Delivery.ofExcept r).attempted = true := by
  cases r <;> rfl

/-- Whether an attempt is made depends on the kind of the sink only. -/
theorem attempted_deliver (E : CdcEngine) (net : Network) (event : CdcEvent)
    (sink : CdcSinkConfig) : (E.deliver net event sink).attempted = E.delivers sink := by
  obtain ⟨sinkId, orgId, sinkType, enabled, createdAt⟩ := sink
  cases sinkType with
  | nats subjectPrefix =>
    rw [CdcEngine.deliver, CdcEngine.delivers]
    cases E.natsFeature with
    | false => rfl
    | true =>
      cases E.natsConnected with
      | false => rfl
      | true => exact attempted_ofExcept _
  | kafka topic => rfl
  | webhook url =>
    rw [CdcEngine.deliver, CdcEngine.delivers]
    cases E.webhookFeature with
    | false => rfl
    | true => exact attempted_ofExcept _

section Loop

variable {Γ : Setting} {event : CdcEvent} {w : World}

/-- What the loop over the sinks does when `n` calls have been made. -/
def handed (Γ : Setting) (event : CdcEvent) :
    ℕ → List CdcSinkConfig → List (CdcEvent × CdcSinkConfig × Delivery)
  | _, [] => []
  | n, sink :: sinks =>
    if sink.enabled then
      (event, sink, Γ.engine.deliver (Γ.net n) event sink) :: handed Γ event (n + 1) sinks
    else handed Γ event n sinks

/-- **The loop over the sinks goes through all of them**, whatever becomes of each. -/
theorem handOverAll_handed (sinks : List CdcSinkConfig) :
    (handOverAll event sinks).Wp Γ.exec w
      (fun _ w' => w'.attempts = w.attempts ++ handed Γ event w.calls sinks)
      fun _ => False := by
  induction sinks generalizing w with
  | nil => exact (Prog.wp_ok ()).mpr (List.append_nil _).symm
  | cons sink sinks ih =>
    rw [handOverAll_cons, handed]
    split
    · refine Prog.wp_call.mpr (ih.mono ?_ fun _ hf => hf)
      intro _ w' hw'
      rw [hw']
      exact List.append_assoc _ [_] _
    · exact ih

/-- The sinks that delivery is attempted to. -/
theorem handed_attempted (n : ℕ) (sinks : List CdcSinkConfig) :
    ((handed Γ event n sinks).filter fun a => a.2.2.attempted).map (fun a => (a.1, a.2.1)) =
      (sinks.filter fun sink => sink.enabled && Γ.engine.delivers sink).map (event, ·) := by
  induction sinks generalizing n with
  | nil => rfl
  | cons sink sinks ih =>
    rw [handed, List.filter_cons]
    by_cases hon : sink.enabled = true
    · rw [if_pos hon, List.filter_cons, attempted_deliver]
      by_cases hkind : Γ.engine.delivers sink = true
      · rw [if_pos hkind, if_pos (by simp [hon, hkind]), List.map_cons, List.map_cons, ih]
      · rw [if_neg hkind, if_neg (by simp [hkind]), ih]
    · rw [if_neg hon, if_neg (by simp [hon]), ih]

end Loop

/-! ### Listing the sinks -/

section Listing

variable {Γ : Setting} {w : World} {s t : Redb} {o : String}

/-- What a call that only reads does. -/
theorem exec_read {c : StorageCall} (h : c.isRead = true) (w : World) :
    Γ.exec (.inl c) w =
      ((Γ.faults w.calls).elim (AnyStore.exec c (Γ.found w)).1 fun e => .error e.1,
        { w with
          store := Γ.found w
          calls := w.calls + 1
          listedAt := if c.listsSinks then Γ.found w else w.listedAt }) := by
  simp only [Setting.exec, faulty, AnyStore.exec_of_isRead h]
  cases Γ.faults w.calls with
  | none => rfl
  | some e =>
    obtain ⟨e, carried⟩ := e
    cases carried <;> rfl

/-- The sinks that are listed, and why there may be none. -/
theorem wp_listSinks_redb (hfound : Γ.found w = .redb s)
    (hlisted : Γ.others (w.calls + 1) (.redb s) = .redb t) :
    (ofStore (TenantManager.listSinks o)).Wp Γ.exec w
      (fun sinks w' => sinks = t.sinks.scan (belongsTo o) ∧ (s.orgs[o]?).isSome = true ∧
        w'.attempts = w.attempts)
      fun w' => w'.attempts = w.attempts ∧ (s.orgs[o]? = none ∨ Γ.faults w.calls ≠ none ∨
        Γ.faults (w.calls + 1) ≠ none) := by
  rw [ofStore, TenantManager.listSinks, TenantManager.getOrg, Prog.bind_assoc, Prog.inl_bind]
  apply Prog.wp_call.mpr
  rw [exec_read (c := .getOrg o) rfl, hfound]
  cases hf : Γ.faults w.calls with
  | some e => exact (Prog.wp_error _).mpr ⟨rfl, Or.inr (Or.inl (by simp))⟩
  | none =>
    change (Prog.inl (Prog.okOrElse s.orgs[o]? _ >>= _)).Wp _ _ _ _
    cases horg : s.orgs[o]? with
    | none => exact (Prog.wp_error _).mpr ⟨rfl, Or.inl rfl⟩
    | some org =>
      apply Prog.wp_call.mpr
      rw [exec_read (c := .listSinks o) rfl]
      change (Prog.done ((Γ.faults (w.calls + 1)).elim
        (AnyStore.exec (.listSinks o) (Γ.others (w.calls + 1) (.redb s))).1 _)).Wp _ _ _ _
      rw [hlisted]
      cases hf' : Γ.faults (w.calls + 1) with
      | some e => exact (Prog.wp_error _).mpr ⟨rfl, Or.inr (Or.inr (by simp))⟩
      | none => exact (Prog.wp_ok _).mpr ⟨rfl, rfl, rfl⟩

end Listing

/-! ### The sinks of an organization -/

section Sinks

variable {t : Redb} {o : String} {k : CdcSinkConfig}

/-- The sink is stored under the organization. -/
def Redb.HasSink (t : Redb) (o : String) (k : CdcSinkConfig) : Prop :=
  ∃ x, t.sinks[sinkKey o x]? = some k

theorem mem_scan_sinks : k ∈ t.sinks.scan (belongsTo o) ↔ t.HasSink o k := by
  rw [Table.mem_scan]
  constructor
  · rintro ⟨key, hkey, hk⟩
    obtain ⟨x, rfl⟩ := belongsTo_iff.mp hkey
    exact ⟨x, hk⟩
  · rintro ⟨x, hk⟩
    exact ⟨_, belongsTo_nulKey o x, hk⟩

/-- A sink that is stored under an organization belongs to it. -/
theorem Redb.Keyed.hasSink_org (h : t.Keyed) (ho : IsIdentifier o) (hk : t.HasSink o k) :
    k.orgId = o := by
  obtain ⟨x, hk⟩ := hk
  obtain ⟨hid, hkey⟩ := h.sinks _ _ hk
  exact (nulKey_inj ho hid hkey).1.symm

/-- The sinks of an organization are listed in the order of their ids. -/
theorem Redb.Keyed.pairwise_sinks (h : t.Keyed) (ho : IsIdentifier o) :
    (t.sinks.scan (belongsTo o)).Pairwise fun k k' => k.sinkId < k'.sinkId := by
  apply Table.pairwise_scan
  intro key key' k k' hkey hkey' hk hk' hlt
  obtain ⟨x, rfl⟩ := belongsTo_iff.mp hkey
  obtain ⟨y, rfl⟩ := belongsTo_iff.mp hkey'
  obtain ⟨hid, hx⟩ := h.sinks _ _ hk
  obtain ⟨hid', hy⟩ := h.sinks _ _ hk'
  rw [← (nulKey_inj ho hid hx).2, ← (nulKey_inj ho hid' hy).2]
  rw [compare_string] at hlt
  split at hlt
  · next hxy => exact glue_lt_glue.mp hxy
  · split at hlt <;> cases hlt

end Sinks

/-! ### Publishing -/

/-- **An event goes to the sinks of its organization.**  Delivery is attempted to those sinks
that are stored under the organization, enabled, and of a kind the engine delivers to, in the
order of their ids and so to each once, whatever became of the ones before.  Publishing fails
only if the organization is not there or a call to the store fails. -/
theorem publish_routes {G : Type} {Γ : Setting} {w : World} {s t : Redb}
    (hfound : Γ.found w = .redb s) (hs : GatewayReachable G s)
    (hlisted : Γ.others (w.calls + 1) (.redb s) = .redb t) (ht : GatewayReachable G t)
    (event : CdcEvent) :
    ∃ sinks, ((publish event).run Γ.exec w).2.tried = w.tried ++ sinks.map (event, ·) ∧
      sinks.Pairwise (fun k k' => k.sinkId < k'.sinkId) ∧
      (∀ k ∈ sinks, k.orgId = event.orgId) ∧
      (((publish event).run Γ.exec w).1 = .ok () ∧
          (∀ k, k ∈ sinks ↔ t.HasSink event.orgId k ∧ k.enabled = true ∧
            Γ.engine.delivers k = true) ∨
        (∃ e, ((publish event).run Γ.exec w).1 = .error e) ∧ sinks = [] ∧
          (s.orgs[event.orgId]? = none ∨ Γ.faults w.calls ≠ none ∨
            Γ.faults (w.calls + 1) ≠ none)) := by
  have hwp : (publish event).Wp Γ.exec w
      (fun _ w' => w'.tried = w.tried ++ ((t.sinks.scan (belongsTo event.orgId)).filter
          fun k => k.enabled && Γ.engine.delivers k).map (event, ·) ∧ IsIdentifier event.orgId)
      fun w' => w'.tried = w.tried ∧ (s.orgs[event.orgId]? = none ∨ Γ.faults w.calls ≠ none ∨
        Γ.faults (w.calls + 1) ≠ none) := by
    rw [publish, Prog.wp_bind]
    refine (wp_listSinks_redb hfound hlisted).mono ?_ ?_
    · rintro _ w₁ ⟨rfl, horg, hattempts⟩
      obtain ⟨org, horg⟩ := Option.isSome_iff_exists.mp horg
      refine (handOverAll_handed _).mono ?_ fun _ hf => hf.elim
      intro _ w₂ hw₂
      refine ⟨?_, (hs.keyed.orgs _ _ horg).1⟩
      rw [World.tried, hw₂, List.filter_append, List.map_append, handed_attempted, hattempts,
        World.tried]
    · rintro w₁ ⟨hattempts, hwhy⟩
      exact ⟨by rw [World.tried, hattempts, World.tried], hwhy⟩
  cases hr : ((publish event).run Γ.exec w).1 with
  | ok u =>
    obtain ⟨htried, ho⟩ := hwp.of_ok hr
    refine ⟨_, htried, ?_, ?_, Or.inl ⟨rfl, ?_⟩⟩
    · exact (ht.keyed.pairwise_sinks ho).filter _
    · intro k hk
      exact ht.keyed.hasSink_org ho (mem_scan_sinks.mp (List.mem_filter.mp hk).1)
    · intro k
      rw [List.mem_filter, mem_scan_sinks, Bool.and_eq_true]
  | error e =>
    obtain ⟨htried, hwhy⟩ := hwp.of_error hr
    exact ⟨[], by rw [htried, List.map_nil, List.append_nil], List.Pairwise.nil, by simp,
      Or.inr ⟨⟨e, rfl⟩, rfl, hwhy⟩⟩

/-! ### Two organizations with webhooks -/

/-- One organization makes three sinks and turns the last off, another makes one. -/
def sinkSchedule : Schedule Bytes :=
  [.start ((ManagerOp.createOrg 0 "alpha" "Alpha").prog seedManager), .step 0, .step 0,
    .start ((ManagerOp.createOrg 0 "bravo" "Bravo").prog seedManager), .step 1, .step 1,
    .start ((ManagerOp.createSink (.replicate 8 2) 0 "alpha" (.webhook "https://two")).prog
      seedManager), .step 2, .step 2, .step 2, .step 2,
    .start ((ManagerOp.createSink (.replicate 8 1) 0 "alpha" (.webhook "https://one")).prog
      seedManager), .step 3, .step 3, .step 3, .step 3,
    .start ((ManagerOp.createSink (.replicate 8 3) 0 "alpha" (.webhook "https://three")).prog
      seedManager), .step 4, .step 4, .step 4, .step 4,
    .start ((ManagerOp.toggleSink "alpha" "0303030303030303" false).prog seedManager), .step 5,
    .step 5, .step 5,
    .start ((ManagerOp.createSink (.replicate 8 4) 0 "bravo" (.webhook "https://four")).prog
      seedManager), .step 6, .step 6, .step 6, .step 6]

/-- The first sink refuses everything. -/
def refusingSetting : Setting where
  engine := ⟨true, false, true⟩
  others _ st := st
  faults _ := none
  net _ := {
    post sinkId _ _ :=
      .ok (if sinkId == "0101010101010101" then ⟨404, "404 Not Found"⟩ else ⟨200, "200 OK"⟩)
    natsPublish _ _ := .ok ()
    natsFlush _ _ := .ok () }

/-- An event of the first organization. -/
def alphaEvent : CdcEvent := ⟨"alpha", "mesh", "doc-1", "00", "unknown", 0, .null⟩

/-- The gateway with the sinks. -/
def sinkWorld : World :=
  ⟨.redb (Pool.acts Redb.exec ⟨.empty, []⟩ sinkSchedule).store, 0, .redb .empty, []⟩

/-- The second sink is tried although the first refuses, and no others are. -/
theorem publish_routes_alpha :
    (((publish alphaEvent).run refusingSetting.exec sinkWorld).2.tried.map fun a => a.2.sinkId) =
        ["0101010101010101", "0202020202020202"] ∧
      ∀ a ∈ ((publish alphaEvent).run refusingSetting.exec sinkWorld).2.tried,
        a.2.orgId = "alpha" := by
  have hreach : GatewayReachable Bytes (Pool.acts Redb.exec ⟨.empty, []⟩ sinkSchedule).store := by
    refine ⟨sinkSchedule, ?_, rfl⟩
    simp only [sinkSchedule, Act.forall_start_start, Act.forall_start_step, Act.forall_start_nil]
    exact ⟨.program (.op _ _), .program (.op _ _), .program (.op _ _), .program (.op _ _),
      .program (.op _ _), .program (.op _ _), .program (.op _ _), trivial⟩
  obtain ⟨sinks, htried, -, horg, -⟩ := publish_routes (Γ := refusingSetting) (w := sinkWorld)
    rfl hreach rfl hreach alphaEvent
  refine ⟨by decide +kernel, ?_⟩
  intro a ha
  rw [htried] at ha
  obtain ⟨k, hk, rfl⟩ := List.mem_map.mp ha
  exact horg k hk

end PeatGateway
