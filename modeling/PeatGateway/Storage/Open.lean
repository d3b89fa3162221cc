import PeatGateway.Storage.Postgres
import PeatGateway.Storage.Redb

/-!
# The store behind the gateway

`storage::open` connects to one of the two backends, and from then on the gateway holds a
`dyn StorageBackend`.

## Main definitions

* `AnyStore`, `AnyStore.exec` — a store of either kind.
* `AnyStore.readSpec` — programs that only read, and so leave the store as it is.
-/

namespace PeatGateway

open Effect

/-- A store of one of the two backends. -/
inductive AnyStore
  | redb (s : Redb)
  | postgres (s : Postgres)

namespace AnyStore

/-- A storage call, by the backend the store belongs to. -/
def exec : Backend AnyStore
  | c, .redb s => ((Redb.exec c s).1, .redb (Redb.exec c s).2)
  | c, .postgres s => ((Postgres.exec c s).1, .postgres (Postgres.exec c s).2)

/-- The store is an embedded one. -/
def isRedb : AnyStore → Bool
  | .redb _ => true
  | .postgres _ => false

/-- A program runs on either kind of store as it runs on the backend. -/
theorem run_redb {α : Type} (p : StoreProg α) (s : Redb) :
    p.run exec (.redb s) = ((p.run Redb.exec s).1, .redb (p.run Redb.exec s).2) := by
  induction p generalizing s with
  | done r => rfl
  | call c k ih => exact ih _ _

theorem run_postgres {α : Type} (p : StoreProg α) (s : Postgres) :
    p.run exec (.postgres s) =
      ((p.run Postgres.exec s).1, .postgres (p.run Postgres.exec s).2) := by
  induction p generalizing s with
  | done r => rfl
  | call c k ih => exact ih _ _

/-- A call that only reads leaves the store as it is. -/
theorem exec_of_isRead {c : StorageCall} (h : c.isRead = true) (st : AnyStore) :
    (exec c st).2 = st := by
  cases st <;> cases c <;> first | rfl | cases h

/-- The specification of programs that only read, on the store they read. -/
def readSpec (st : AnyStore) : Spec Storage :=
  ⟨fun c => c.isRead = true, fun c x => (exec c st).1 = .ok x⟩

theorem readSpec_sound (st : AnyStore) : st.readSpec.Sound exec (· = st) := by
  rintro c _ rfl hpre
  exact ⟨exec_of_isRead hpre _, fun _ hx => hx⟩

end AnyStore

end PeatGateway
