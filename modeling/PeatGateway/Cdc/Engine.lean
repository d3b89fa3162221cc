import PeatGateway.Lib.Json
import PeatGateway.Lib.Sum
import PeatGateway.Tenant.Manager

/-!
# Publishing change events

The engine hands an event to every enabled sink of its organization.  What a sink does with
it is looked at only to write a line to the log: the engine reports success in any case.

The network is a parameter: what each attempt to reach an endpoint is answered with.
Handing an event to a sink is a call of its own, beside the calls to the store.

## Main definitions

* `CdcEvent` — a change of a document.
* `Network` — what answers webhooks and the NATS server.
* `webhookPublish`, `natsPublish` — the sinks.
* `CdcEngine.deliver` — what becomes of an event at one sink.
* `Cdc`, `publish` — programs that also hand events to sinks, and the one that hands an
  event to all enabled sinks.

## Main results

* `webhookPublish_eq_ok` — **when the retry loop delivers**.
* `deliver_eq_accepted` — **when a sink accepts an event**.
-/

namespace PeatGateway

open Effect

/-- A change of a document. -/
structure CdcEvent where
  orgId : String
  appId : String
  documentId : String
  changeHash : String
  actorId : String
  timestampMs : UInt64
  patches : Json

/-- What is posted to a webhook.  The event is the body. -/
structure WebhookRequest where
  url : String
  /-- The header `X-Peat-Change-Hash`. -/
  changeHash : String
  /-- The header `X-Peat-Org-Id`. -/
  orgId : String
  body : CdcEvent

/-- What is published to NATS. -/
structure NatsMessage where
  subject : String
  /-- The header `Nats-Msg-Id`. -/
  messageId : String
  payload : CdcEvent

/-- The status of an answer, as a number and as it is displayed. -/
structure WebhookStatus where
  code : ℕ
  text : String

/-- What the endpoints of the sinks answer.  The first argument is the sink the request is
made for: two sinks may share an endpoint and be answered differently. -/
structure Network where
  /-- The status of the answer to an attempt, or the error of a request that fails. -/
  post : String → WebhookRequest → ℕ → Except Error WebhookStatus
  natsPublish : String → NatsMessage → Except Error Unit
  /-- The outcome of the flush after a message. -/
  natsFlush : String → NatsMessage → Except Error Unit

/-! ### Webhooks -/

/-- `MAX_RETRIES`. -/
def maxRetries : ℕ := 3

/-- `status.is_success()`. -/
def isSuccess (status : WebhookStatus) : Bool := 200 ≤ status.code && status.code < 300

/-- `status.is_client_error()`. -/
def isClientError (status : WebhookStatus) : Bool := 400 ≤ status.code && status.code < 500

/-- The loop over the attempts: `n` are left, the next one is `attempt`. -/
def webhookLoop (url : String) (answer : ℕ → Except Error WebhookStatus) : ℕ → ℕ → Except Error Unit
  | 0, _ => .error s!"Webhook {url} failed after {maxRetries} retries"
  | n + 1, attempt =>
    match answer attempt with
    | .ok status =>
      if isSuccess status then .ok ()
      else if isClientError status then
        .error s!"Webhook {url} returned {status.text} — not retrying"
      else webhookLoop url answer n (attempt + 1)
    | .error _ => webhookLoop url answer n (attempt + 1)

/-- `WebhookSink::publish`: one attempt and `MAX_RETRIES` more.  The pauses between them are
left out. -/
def webhookPublish (url : String) (answer : ℕ → Except Error WebhookStatus) : Except Error Unit :=
  webhookLoop url answer (maxRetries + 1) 0

/-- The answer is one after which the loop tries again: no answer at all, or a status that is
neither success nor the client's fault. -/
def Retried (answer : Except Error WebhookStatus) : Prop :=
  ∀ status, answer = .ok status → isSuccess status = false ∧ isClientError status = false

theorem webhookLoop_eq_ok {url : String} {answer : ℕ → Except Error WebhookStatus} {n attempt : ℕ} :
    webhookLoop url answer n attempt = .ok () ↔
      ∃ i < n, (∃ status, answer (attempt + i) = .ok status ∧ isSuccess status = true) ∧
        ∀ j < i, Retried (answer (attempt + j)) := by
  induction n generalizing attempt with
  | zero => simp [webhookLoop]
  | succ n ih =>
    -- if this attempt is tried again, the rest decides
    have hrest : Retried (answer attempt) →
        ((∃ i < n, (∃ status, answer (attempt + 1 + i) = .ok status ∧ isSuccess status = true) ∧
          ∀ j < i, Retried (answer (attempt + 1 + j))) ↔
        ∃ i < n + 1, (∃ status, answer (attempt + i) = .ok status ∧ isSuccess status = true) ∧
          ∀ j < i, Retried (answer (attempt + j))) := by
      intro hretry
      constructor
      · rintro ⟨i, hi, hok, hbefore⟩
        refine ⟨i + 1, by omega, by rwa [Nat.add_right_comm] at hok, ?_⟩
        intro j hj
        cases j with
        | zero => exact hretry
        | succ j =>
          rw [show attempt + (j + 1) = attempt + 1 + j by omega]
          exact hbefore j (by omega)
      · rintro ⟨i, hi, ⟨status, hstatus, hsucc⟩, hbefore⟩
        cases i with
        | zero =>
          rw [(hretry status hstatus).1] at hsucc
          cases hsucc
        | succ i =>
          refine ⟨i, by omega, ⟨status, by rwa [Nat.add_right_comm], hsucc⟩, ?_⟩
          intro j hj
          rw [Nat.add_right_comm]
          exact hbefore (j + 1) (by omega)
    rw [webhookLoop]
    cases hanswer : answer attempt with
    | error e =>
      refine ih.trans (hrest ?_)
      rw [hanswer]
      exact nofun
    | ok status =>
      dsimp only
      split
      · next hsucc =>
        exact iff_of_true rfl ⟨0, by omega, ⟨status, hanswer, hsucc⟩, fun j hj => by omega⟩
      · next hsucc =>
        split
        · next hclient =>
          refine iff_of_false nofun ?_
          rintro ⟨i, -, ⟨status', hstatus', hsucc'⟩, hbefore⟩
          cases i with
          | zero =>
            obtain rfl := Except.ok.inj (hanswer.symm.trans hstatus')
            exact hsucc hsucc'
          | succ i =>
            have hretry := hbefore 0 (by omega) status hanswer
            rw [hclient] at hretry
            cases hretry.2
        · next hclient =>
          refine ih.trans (hrest ?_)
          rw [hanswer]
          rintro _ ⟨⟩
          exact ⟨by simpa using hsucc, by simpa using hclient⟩

/-- The endpoint is reached: one of the first four attempts succeeds, and all before it are
tried again. -/
def Reached (answer : ℕ → Except Error WebhookStatus) : Prop :=
  ∃ i ≤ maxRetries, (∃ status, answer i = .ok status ∧ isSuccess status = true) ∧
    ∀ j < i, Retried (answer j)

/-- **When the retry loop delivers.** -/
theorem webhookPublish_eq_ok {url : String} {answer : ℕ → Except Error WebhookStatus} :
    webhookPublish url answer = .ok () ↔ Reached answer := by
  rw [webhookPublish, webhookLoop_eq_ok, Reached]
  simp only [Nat.zero_add, Nat.lt_succ_iff]

/-! ### The engine -/

/-- What the engine was built and configured with. -/
structure CdcEngine where
  /-- The feature `nats` is compiled in. -/
  natsFeature : Bool
  /-- A NATS server is configured and connected. -/
  natsConnected : Bool
  /-- The feature `webhook` is compiled in. -/
  webhookFeature : Bool

/-- What became of an event at one sink. -/
inductive Delivery
  | accepted
  | failed (error : Error)
  /-- There is no connection to the server. -/
  | noConnection
  /-- The kind of sink is not compiled in. -/
  | notEnabled
  /-- Nothing is done for this kind of sink. -/
  | unimplemented
  deriving DecidableEq

/-- The outcome of a sink's own publishing. -/
def Delivery.ofExcept : Except Error Unit → Delivery
  | .ok () => .accepted
  | .error e => .failed e

/-- The request a webhook is sent. -/
def webhookRequest (url : String) (event : CdcEvent) : WebhookRequest :=
  ⟨url, event.changeHash, event.orgId, event⟩

/-- The message NATS is sent. -/
def natsMessage (subjectPrefix : String) (event : CdcEvent) : NatsMessage :=
  ⟨s!"{subjectPrefix}.{event.appId}.{event.documentId}", event.changeHash, event⟩

/-- `NatsSink::publish`. -/
def natsPublish (net : Network) (sinkId subjectPrefix : String) (event : CdcEvent) :
    Except Error Unit := do
  let message := natsMessage subjectPrefix event
  (net.natsPublish sinkId message).mapError
    fun _ => s!"Failed to publish to NATS subject {message.subject}"
  net.natsFlush sinkId message

namespace CdcEngine

variable (E : CdcEngine) (net : Network)

/-- One sink: the match on its kind. -/
def deliver (event : CdcEvent) (sink : CdcSinkConfig) : Delivery :=
  match sink.sinkType with
  | .nats subjectPrefix =>
    if E.natsFeature then
      if E.natsConnected then .ofExcept (natsPublish net sink.sinkId subjectPrefix event)
      else .noConnection
    else .notEnabled
  | .kafka _ => .unimplemented
  | .webhook url =>
    if E.webhookFeature then
      .ofExcept (webhookPublish url (net.post sink.sinkId (webhookRequest url event)))
    else .notEnabled

/-- The sink can be delivered to: it is of a kind that is implemented, compiled in and
connected, and its endpoint answers. -/
def Deliverable (event : CdcEvent) (sink : CdcSinkConfig) : Prop :=
  match sink.sinkType with
  | .nats subjectPrefix =>
    E.natsFeature = true ∧ E.natsConnected = true ∧
      net.natsPublish sink.sinkId (natsMessage subjectPrefix event) = .ok () ∧
      net.natsFlush sink.sinkId (natsMessage subjectPrefix event) = .ok ()
  | .kafka _ => False
  | .webhook url =>
    E.webhookFeature = true ∧ Reached (net.post sink.sinkId (webhookRequest url event))

end CdcEngine

theorem Delivery.ofExcept_eq_accepted {r : Except Error Unit} :
    Delivery.ofExcept r = .accepted ↔ r = .ok () := by
  cases r <;> simp [Delivery.ofExcept]

theorem natsPublish_eq_ok {net : Network} {sinkId subjectPrefix : String} {event : CdcEvent} :
    natsPublish net sinkId subjectPrefix event = .ok () ↔
      net.natsPublish sinkId (natsMessage subjectPrefix event) = .ok () ∧
      net.natsFlush sinkId (natsMessage subjectPrefix event) = .ok () := by
  unfold natsPublish
  cases hp : net.natsPublish sinkId (natsMessage subjectPrefix event) with
  | error e => simp [hp, Except.mapError, bind, Except.bind]
  | ok u => simp [hp, Except.mapError, bind, Except.bind]

/-- **When a sink accepts an event.** -/
theorem deliver_eq_accepted {E : CdcEngine} {net : Network} {event : CdcEvent}
    {sink : CdcSinkConfig} :
    E.deliver net event sink = .accepted ↔ E.Deliverable net event sink := by
  unfold CdcEngine.deliver CdcEngine.Deliverable
  split
  · cases E.natsFeature <;> cases E.natsConnected <;>
      simp [Delivery.ofExcept_eq_accepted, natsPublish_eq_ok]
  · simp
  · cases E.webhookFeature <;> simp [Delivery.ofExcept_eq_accepted, webhookPublish_eq_ok]

/-! ### Publishing -/

/-- Handing an event to a sink. -/
abbrev Sinks : Sig := ⟨CdcEvent × CdcSinkConfig, fun _ => Delivery⟩

/-- The calls of the change capture: those to the store, and those to the sinks. -/
abbrev Cdc : Sig := Storage.sum Sinks

/-- Programs of the change capture. -/
abbrev CdcProg (α : Type) : Type := Prog Cdc Error α

/-- A program over the store. -/
def ofStore {α : Type} (p : StoreProg α) : CdcProg α := p.inl

/-- Hand the event to a sink.  What comes of it goes to the log only. -/
def handOver (event : CdcEvent) (sink : CdcSinkConfig) : CdcProg Unit :=
  Prog.attempt (S := Cdc) (.inr (event, sink)) >>= fun _ => pure ()

/-- The loop over the sinks. -/
def handOverAll (event : CdcEvent) : List CdcSinkConfig → CdcProg Unit
  | [] => pure ()
  | sink :: sinks => do
    if sink.enabled then handOver event sink
    handOverAll event sinks

/-- `CdcEngine::publish`: hand the event to all enabled sinks of its organization. -/
def publish (event : CdcEvent) : CdcProg Unit := do
  let sinks ← ofStore (TenantManager.listSinks event.orgId)
  handOverAll event sinks

end PeatGateway
