import PeatGateway.Lib.Pool
import PeatGateway.Lib.Wp
import PeatGateway.Models

/-!
# The storage interface

The calls of the trait `StorageBackend`: every access of the gateway to its store is
one of these, and each is one transaction.

## Main definitions

* `StorageCall`, `StorageCall.Res` — the calls and what each is answered with.
* `StorageCall.isRead` — the calls that write nothing.
* `Storage` — the signature they form.
* `StoreProg` — the programs that reach the store.
-/

namespace PeatGateway

open Effect

/-- The calls of the trait `StorageBackend`. -/
inductive StorageCall
  | createOrg (org : Organization)
  | getOrg (orgId : String)
  | listOrgs
  | updateOrg (org : Organization)
  | deleteOrg (orgId : String)
  | createFormation (orgId : String) (formation : FormationConfig)
  | getFormation (orgId appId : String)
  | listFormations (orgId : String)
  | deleteFormation (orgId appId : String)
  | createToken (token : EnrollmentToken)
  | getToken (orgId tokenId : String)
  | listTokens (orgId appId : String)
  | updateToken (token : EnrollmentToken)
  | deleteToken (orgId tokenId : String)
  | createSink (sink : CdcSinkConfig)
  | getSink (orgId sinkId : String)
  | listSinks (orgId : String)
  | updateSink (sink : CdcSinkConfig)
  | deleteSink (orgId sinkId : String)
  | createIdp (idp : IdpConfig)
  | getIdp (orgId idpId : String)
  | listIdps (orgId : String)
  | updateIdp (idp : IdpConfig)
  | deleteIdp (orgId idpId : String)
  | createPolicyRule (rule : PolicyRule)
  | listPolicyRules (orgId : String)
  | deletePolicyRule (orgId ruleId : String)
  | appendAudit (entry : EnrollmentAuditEntry)
  | listAudit (orgId : String) (appId : Option String) (limit : UInt64)
  | storeGenesis (orgId appId : String) (encoded : Bytes)
  | getGenesis (orgId appId : String)
  | deleteGenesis (orgId appId : String)
  | getCursor (orgId appId documentId : String)
  | setCursor (orgId appId documentId changeHash : String)
  deriving DecidableEq, Repr

/-- What a successful call returns. -/
@[reducible] def StorageCall.Res : StorageCall → Type
  | createOrg _ => Unit
  | getOrg _ => Option Organization
  | listOrgs => List Organization
  | updateOrg _ => Unit
  | deleteOrg _ => Bool
  | createFormation _ _ => Unit
  | getFormation _ _ => Option FormationConfig
  | listFormations _ => List FormationConfig
  | deleteFormation _ _ => Bool
  | createToken _ => Unit
  | getToken _ _ => Option EnrollmentToken
  | listTokens _ _ => List EnrollmentToken
  | updateToken _ => Unit
  | deleteToken _ _ => Bool
  | createSink _ => Unit
  | getSink _ _ => Option CdcSinkConfig
  | listSinks _ => List CdcSinkConfig
  | updateSink _ => Unit
  | deleteSink _ _ => Bool
  | createIdp _ => Unit
  | getIdp _ _ => Option IdpConfig
  | listIdps _ => List IdpConfig
  | updateIdp _ => Unit
  | deleteIdp _ _ => Bool
  | createPolicyRule _ => Unit
  | listPolicyRules _ => List PolicyRule
  | deletePolicyRule _ _ => Bool
  | appendAudit _ => Unit
  | listAudit _ _ _ => List EnrollmentAuditEntry
  | storeGenesis _ _ _ => Unit
  | getGenesis _ _ => Option Bytes
  | deleteGenesis _ _ => Bool
  | getCursor _ _ _ => Option String
  | setCursor _ _ _ _ => Unit

/-- The calls that write nothing. -/
def StorageCall.isRead : StorageCall → Bool
  | getOrg _ | listOrgs | getFormation _ _ | listFormations _ | getToken _ _ | listTokens _ _
  | getSink _ _ | listSinks _ | getIdp _ _ | listIdps _ | listPolicyRules _ | listAudit _ _ _
  | getGenesis _ _ | getCursor _ _ _ => true
  | _ => false

/-- The signature of the storage calls. -/
abbrev Storage : Sig := ⟨StorageCall, StorageCall.Res⟩

/-- Programs over the store. -/
abbrev StoreProg (α : Type) : Type := Prog Storage Error α

/-- A semantics of the storage calls on the states of one backend. -/
abbrev Backend (σ : Type) : Type := Handler Storage Error σ

/-- One storage call, its error passed on. -/
def store (c : StorageCall) : StoreProg c.Res := Prog.perform (S := Storage) c

@[simp] theorem run_store_bind {σ β : Type} (h : Backend σ) (c : StorageCall)
    (f : c.Res → StoreProg β) (s : σ) :
    Prog.run h (bind (α := no_index c.Res) (store c) f) s =
      Prog.next (fun a => (f a).run h) (h c s) :=
  Prog.run_bind h (store c) f s

@[simp] theorem meets_store {Φ : Spec Storage} (c : StorageCall) (Q : c.Res → Prop) :
    Prog.Meets (α := no_index c.Res) Φ (store c) Q ↔ Φ.pre c ∧ ∀ x, Φ.post c x → Q x := by
  unfold store
  exact Prog.meets_perform (S := Storage) c Q

@[simp] theorem wp_store {σ : Type} {h : Backend σ} {s : σ} {E : σ → Prop} (c : StorageCall)
    (Q : c.Res → σ → Prop) :
    Prog.Wp (α := no_index c.Res) h (store c) s Q E ↔ Prog.Post Q E (h c s) := by
  unfold store
  exact Prog.wp_perform (S := Storage) c Q

/-- A storage call that may fail. -/
theorem wp_store_faulty {σ : Type} {h : Backend σ} {f : Faults Error} (c : StorageCall) {s : σ × ℕ}
    {Q : c.Res → σ × ℕ → Prop} {E : σ × ℕ → Prop} (hE : ∀ n, E (s.1, n) ∧ E ((h c s.1).2, n))
    (hQ : ∀ n x, (h c s.1).1 = .ok x → Q x ((h c s.1).2, n)) :
    Prog.Wp (faulty h f) (store c) s Q E :=
  (wp_store c Q).mpr (post_faulty hE hQ)

/-- A storage call where one call fails. -/
theorem wp_store_failsAt {σ : Type} {h : Backend σ} {i : ℕ} {e : Error} (c : StorageCall)
    {s : σ × ℕ} (Q : c.Res → σ × ℕ → Prop) {E : σ × ℕ → Prop} :
    Prog.Wp (α := no_index c.Res) (faulty h (failsAt i e)) (store c) s Q E ↔
      if s.2 = i then E (s.1, s.2 + 1)
      else Prog.Post (fun x t => Q x (t, s.2 + 1)) (fun t => E (t, s.2 + 1)) (h c s.1) :=
  (wp_store c Q).trans (post_failsAt (S := Storage) (c := c))

@[simp] theorem along_store_bind {σ β : Type} {h : Backend σ} {pre : StorageCall → σ → Prop}
    (c : StorageCall) (f : c.Res → StoreProg β) (s : σ) :
    Prog.Along h pre (bind (α := no_index c.Res) (store c) f) s ↔
      pre c s ∧ ∀ x, (h c s).1 = .ok x → (f x).Along h pre (h c s).2 :=
  Prog.along_perform_bind (S := Storage) c f s

end PeatGateway
