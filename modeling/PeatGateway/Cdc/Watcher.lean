import PeatGateway.Cdc.Engine
import PeatGateway.Lib.Rows
import PeatGateway.Storage.Open

/-!
# Watching a formation

A task receives the changes of the documents of one formation, makes an event of each and
publishes it.  The hash of the last event of a document is kept as its cursor, and an update
whose hash is the cursor is passed over.

A run of the task is not alone: between any two of its calls others may have changed the
store, calls to the store may fail, and the endpoints of the sinks answer as they please.

## Main definitions

* `hashInput`, `hashFields` — what is hashed, and the hash.
* `ChangeEvent`, `Formation.event?` — changes, and the events made of them.
* `Formation.handle` — what the task does with one change.
* `Setting`, `World`, `Setting.exec` — what surrounds the task, what it acts on, and its
  calls.
* `Formation.EachCall` — every call of a run satisfies a condition.
-/

namespace PeatGateway

open Effect Text

/-! ### The hash of a change -/

/-- What a string feeds to a hasher: its bytes and a terminator. -/
def hashStr (s : String) : Bytes := utf8 s ++ [0xff]

/-- What a number feeds to a hasher: its bytes, the lowest first. -/
def hashU64 (n : UInt64) : Bytes :=
  (List.range 8).map fun i => UInt8.ofNat (n.toNat / 256 ^ i % 256)

/-- The fields of a document, in the order the hash map happens to hold them. -/
abbrev Fields : Type := Rows String Json

/-- The names of the fields, sorted. -/
def Fields.sortedKeys (fields : Fields) : List String :=
  (fields.rows.map Prod.fst).insertionSort fun k k' => (compare k k').isLE = true

/-- What `hash_fields` feeds to the hasher. -/
def hashInput (docId : String) (fields : Fields) (timestampMs : UInt64) : Bytes :=
  hashStr docId ++ hashU64 timestampMs ++ fields.sortedKeys.flatMap fun k =>
    hashStr k ++ (fields.select k).elim [] fun v => hashStr v.toText

/-- The hasher: its algorithm is not specified, so it is a parameter. -/
abbrev Hasher : Type := Bytes → UInt64

/-- `hash_fields`. -/
def hashFields (hasher : Hasher) (docId : String) (fields : Fields) (timestampMs : UInt64) :
    UInt64 :=
  hasher (hashInput docId fields timestampMs)

/-- The format `{:x}`. -/
def lowerHex (n : UInt64) : String := String.ofList (Nat.toDigits 16 n.toNat)

/-! ### Changes -/

/-- A time, in nanoseconds after the epoch. -/
abbrev SystemTime : Type := ℤ

/-- Milliseconds after the epoch, or zero for times before it. -/
def timestampOf (t : SystemTime) : UInt64 :=
  if t < 0 then 0 else UInt64.ofNat (t.toNat / 1000000)

/-- A document as the mesh hands it out. -/
structure Document where
  id : Option String
  fields : Fields
  updatedAt : SystemTime

/-- A change the mesh reports. -/
inductive ChangeEvent
  | updated (document : Document)
  | removed (docId : String)
  | initial (documents : List Document)

/-- A formation that is watched. -/
structure Formation where
  orgId : String
  appId : String
  hasher : Hasher

namespace Formation

variable (F : Formation)

/-- The hash of a change, as text. -/
def changeHash (docId : String) (fields : Fields) (timestampMs : UInt64) : String :=
  lowerHex (hashFields F.hasher docId fields timestampMs)

/-- The event of an update. -/
def updateEvent (document : Document) : CdcEvent :=
  let docId := document.id.getD "unknown"
  let timestampMs := timestampOf document.updatedAt
  { orgId := F.orgId
    appId := F.appId
    documentId := docId
    changeHash := F.changeHash docId document.fields timestampMs
    actorId := ((document.fields.select "_actor").bind Json.asStr).getD "unknown"
    timestampMs
    -- an object keeps its entries sorted
    patches := .object (document.fields.sortedKeys.filterMap fun k =>
      (document.fields.select k).map (k, ·)) }

/-- The event of a removal, which happens when it is noticed. -/
def removalEvent (docId : String) (now : SystemTime) : CdcEvent :=
  { orgId := F.orgId
    appId := F.appId
    documentId := docId
    changeHash := F.changeHash docId .empty (timestampOf now)
    actorId := "system"
    timestampMs := timestampOf now
    patches := .object [("_deleted", .bool true)] }

/-- The event made of a change that is noticed at `now`, if any is. -/
def event? (change : ChangeEvent) (now : SystemTime) : Option CdcEvent :=
  match change with
  | .updated document => some (F.updateEvent document)
  | .removed docId => some (F.removalEvent docId now)
  | .initial _ => none

end Formation

/-! ### The task -/

/-- The cursor that was read is the hash. -/
def isDuplicate (cursor : Except Error (Option String)) (changeHash : String) : Bool :=
  match cursor with
  | .ok (some c) => c == changeHash
  | _ => false

/-- Publish an event and keep its hash.  A cursor that cannot be written is only noted in the
log. -/
def emit (event : CdcEvent) : CdcProg Unit :=
  (publish event).outcome >>= fun
    | .error _ => pure ()
    | .ok () =>
      (ofStore (TenantManager.setCursor event.orgId event.appId event.documentId
        event.changeHash)).outcome >>= fun _ => pure ()

/-- One round of the loop in `watch_formation`. -/
def Formation.handle (F : Formation) (now : SystemTime) : ChangeEvent → CdcProg Unit
  | .updated document =>
    let event := F.updateEvent document
    (ofStore (TenantManager.getCursor F.orgId F.appId event.documentId)).outcome >>= fun cursor =>
      if isDuplicate cursor event.changeHash then pure () else emit event
  | .removed docId => emit (F.removalEvent docId now)
  | .initial _ => pure ()

/-! ### Runs -/

/-- What surrounds the task.  Moments are told by the number of calls the task has made. -/
structure Setting where
  engine : CdcEngine
  /-- What others do to the store before the call. -/
  others : ℕ → AnyStore → AnyStore
  /-- Which calls to the store fail. -/
  faults : Faults Error
  /-- How the endpoints of the sinks answer. -/
  net : ℕ → Network

/-- What the task acts on. -/
structure World where
  store : AnyStore
  /-- The number of calls so far. -/
  calls : ℕ
  /-- The store as it was when the task last listed sinks. -/
  listedAt : AnyStore
  /-- What has been handed to which sink, and what became of it. -/
  attempts : List (CdcEvent × CdcSinkConfig × Delivery)

/-- The call lists sinks. -/
def StorageCall.listsSinks : StorageCall → Bool
  | .listSinks _ => true
  | _ => false

namespace Setting

variable (Γ : Setting)

/-- The store a call finds. -/
def found (w : World) : AnyStore := Γ.others w.calls w.store

/-- A call of the task. -/
def exec : Handler Cdc Error World
  | .inl c, w =>
    let r := faulty AnyStore.exec Γ.faults c (Γ.found w, w.calls)
    (r.1, { w with
      store := r.2.1
      calls := r.2.2
      listedAt := if c.listsSinks then Γ.found w else w.listedAt })
  | .inr (event, sink), w =>
    let d := Γ.engine.deliver (Γ.net w.calls) event sink
    (.ok d, { w with
      store := Γ.found w
      calls := w.calls + 1
      attempts := w.attempts ++ [(event, sink, d)] })

end Setting

/-- A change taken from the stream, and the time then. -/
structure Received where
  change : ChangeEvent
  now : SystemTime

namespace Formation

variable (F : Formation) (Γ : Setting)

/-- The world after one change. -/
def after (w : World) (r : Received) : World := ((F.handle r.now r.change).run Γ.exec w).2

/-- Every call the task makes while it takes the changes from the stream satisfies a
condition, given the change and the world the call is made in. -/
def EachCall (P : Received → Cdc.Call → World → Prop) : World → List Received → Prop
  | _, [] => True
  | w, r :: l =>
    (F.handle r.now r.change).Along Γ.exec (P r) w ∧ EachCall P (F.after Γ w r) l

end Formation

end PeatGateway
