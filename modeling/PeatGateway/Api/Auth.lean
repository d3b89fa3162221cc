import PeatGateway.Api.Http
import PeatGateway.Lib.Order

/-!
# The admin token

A middleware in front of the admin routes compares the bearer of a request with the configured
token, in a time that does not depend on where they differ.

## Main definitions

* `constantTimeEq` — the comparison.
* `requireAdminToken` — the middleware.
* `Admits` — the request carries the configured token, or none is configured.

## Main results

* `constantTimeEq_iff` — **the comparison is equality**.
* `requireAdminToken_eq_ok` — **a request passes exactly if it is admitted**.
-/

namespace PeatGateway

open Text

/-! ### The comparison -/

/-- `constant_time_eq`. -/
def constantTimeEq (a b : Bytes) : Bool :=
  if a.length ≠ b.length then false
  else (a.zip b).foldl (fun acc p => acc ||| (p.1 ^^^ p.2)) 0 == 0

/-- The differences are gathered bit by bit, and none of them is lost. -/
theorem foldl_or_eq_zero (l : List (UInt8 × UInt8)) (acc : UInt8) :
    l.foldl (fun acc p => acc ||| (p.1 ^^^ p.2)) acc = 0 ↔ acc = 0 ∧ ∀ p ∈ l, p.1 = p.2 := by
  induction l generalizing acc with
  | nil => simp
  | cons p l ih =>
    rw [List.foldl_cons, ih, UInt8.or_eq_zero_iff, UInt8.xor_eq_zero_iff, List.forall_mem_cons,
      and_assoc]

theorem forall_mem_zip_iff {a b : Bytes} (h : a.length = b.length) :
    (∀ p ∈ a.zip b, p.1 = p.2) ↔ a = b := by
  induction a generalizing b with
  | nil =>
    cases b with
    | nil => simp
    | cons y b => simp at h
  | cons x a ih =>
    cases b with
    | nil => simp at h
    | cons y b =>
      rw [List.zip_cons_cons, List.forall_mem_cons, List.cons.injEq, ih (Nat.succ.inj h)]

/-- **The comparison is equality.** -/
theorem constantTimeEq_iff {a b : Bytes} : constantTimeEq a b = true ↔ a = b := by
  unfold constantTimeEq
  split
  · next hne =>
    simp only [Bool.false_eq_true, false_iff]
    rintro rfl
    exact hne rfl
  · next heq =>
    rw [beq_iff_eq, foldl_or_eq_zero, and_iff_right rfl, forall_mem_zip_iff (not_not.mp heq)]

/-! ### The middleware -/

/-- The bearer of the header `authorization`. -/
def adminBearer (headers : HeaderMap) : Option String :=
  (headers.lookup "authorization").bind fun v =>
    (headerStr v).bind fun s => stripPrefix s "Bearer "

/-- The body of a refusal: `json!({"error": …})`. -/
def errorPayload (message : String) : Payload := .json (.object [("error", .string message)])

/-- `require_admin_token`: passes the request on, or refuses it. -/
def requireAdminToken (expected : Option String) (headers : HeaderMap) :
    Except ApiResponse Unit :=
  match expected with
  | none => .ok ()
  | some expected =>
    match adminBearer headers with
    | some provided =>
      if constantTimeEq (utf8 provided) (utf8 expected) then .ok ()
      else .error ⟨.forbidden, errorPayload "Invalid admin token"⟩
    | none => .error ⟨.unauthorized, errorPayload "Admin token required"⟩

/-- The request is admitted: it carries the configured token, or none is configured. -/
def Admits (expected : Option String) (headers : HeaderMap) : Prop :=
  ∀ secret, expected = some secret → adminBearer headers = some secret

/-- **A request passes exactly if it is admitted.** -/
theorem requireAdminToken_eq_ok {expected : Option String} {headers : HeaderMap} :
    requireAdminToken expected headers = .ok () ↔ Admits expected headers := by
  unfold requireAdminToken Admits
  cases expected with
  | none => simp
  | some secret =>
    simp only [Option.some.injEq, forall_eq']
    cases adminBearer headers with
    | none => simp
    | some provided =>
      dsimp only
      rw [Option.some.injEq, ← utf8_inj, ← constantTimeEq_iff]
      split
      · next heq => simp [heq]
      · next hne => simp [hne]

/-- A request that is not admitted is refused with one of two answers. -/
theorem requireAdminToken_of_not_admits {expected : Option String} {headers : HeaderMap}
    (h : ¬ Admits expected headers) :
    ∃ r, requireAdminToken expected headers = .error r ∧
      (r.status = .unauthorized ∨ r.status = .forbidden) := by
  rw [← requireAdminToken_eq_ok] at h
  unfold requireAdminToken at h ⊢
  split at h
  · exact absurd rfl h
  · split at h
    · split at h
      · exact absurd rfl h
      · next hne => exact ⟨_, if_neg hne, Or.inr rfl⟩
    · exact ⟨_, rfl, Or.inl rfl⟩

end PeatGateway
