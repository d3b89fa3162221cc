import PeatGateway.Api.Tenants

/-!
# Safe requests

A `GET` or a `HEAD` asks for something to be shown.  Some of these requests make several storage
calls, between which other requests are served; none of them leaves a trace.

## Main definitions

* `ApiRequest.isSafe` — the request asks for something to be shown.
* `Move.unasked` — the same moves with nothing asked to be shown.

## Main results

* `meets_serve_safe` — a safe request makes reading calls only.
* `reads_unnoticed` — **the store, and what all other requests are answered, is as if nothing had
  been asked to be shown**.
-/

namespace PeatGateway

open Effect

/-- A request with a safe method. -/
def ApiRequest.isSafe (req : ApiRequest) : Bool := req.method = .get || req.method = .head

/-- The reading calls. -/
def readingSpec : Spec Storage := ⟨fun c => c.isRead = true, fun _ _ => True⟩

/-- All calls. -/
def anySpec : Spec Storage := ⟨fun _ => True, fun _ _ => True⟩

/-- The requests that ask for something to be shown. -/
def AdminRequest.isSafe : AdminRequest → Bool
  | .listOrgs | .getOrg _ | .listFormations _ | .getFormation _ _ | .listPeers _ _
  | .listDocuments _ _ | .listCertificates _ _ | .listTokens _ _ | .getToken _ _ | .listSinks _
  | .getSink _ _ | .listIdps _ | .getIdp _ _ | .listPolicyRules _ | .listAudit _ _ _ => true
  | _ => false

/-- Whatever it is read as, it is something safe. -/
def YieldsSafe (x : Except HttpStatus AdminRequest) : Prop := ∀ r, x = .ok r → r.isSafe = true

theorem yieldsSafe_error (status : HttpStatus) : YieldsSafe (.error status) := by
  intro r hr
  cases hr

theorem yieldsSafe_pure {r : AdminRequest} (hr : r.isSafe = true) : YieldsSafe (pure r) := by
  intro r' hr'
  cases hr'
  exact hr

theorem yieldsSafe_bind {α : Type} {x : Except HttpStatus α}
    {f : α → Except HttpStatus AdminRequest} (hf : ∀ a, YieldsSafe (f a)) :
    YieldsSafe (x >>= f) := by
  cases x with
  | error status => exact yieldsSafe_error status
  | ok a => exact hf a

/-- A safe method leads to a handler that shows something. -/
theorem yieldsSafe_extract {req : ApiRequest} (hsafe : req.isSafe = true) (e : Endpoint) :
    YieldsSafe (req.extract e) := by
  have hmethod : req.method = .get ∨ req.method = .head := by
    simpa [ApiRequest.isSafe] using hsafe
  unfold ApiRequest.extract
  -- both methods lead to the same handler, after up to two parameters
  rcases hmethod with hm | hm <;> rw [hm] <;> cases e <;> dsimp only
  all_goals first
    | exact yieldsSafe_error _
    | exact yieldsSafe_pure rfl
    | exact yieldsSafe_bind fun _ => yieldsSafe_pure rfl
    | exact yieldsSafe_bind fun _ => yieldsSafe_bind fun _ => yieldsSafe_pure rfl

/-- What is asked to be shown is read. -/
theorem isRead_of_isSafe {env : Surroundings} {r : AdminRequest} (hr : r.isSafe = true)
    {op : ManagerOp} (hop : op ∈ r.ops env) : op.isRead = true := by
  cases r
  case listCertificates =>
    simp only [AdminRequest.ops, List.mem_cons, List.not_mem_nil, or_false] at hop
    rcases hop with rfl | rfl | rfl <;> rfl
  all_goals first
    | exact (Bool.false_ne_true hr).elim
    | rw [List.mem_singleton.mp hop]; rfl

section Reads

variable {G : Type} (gw : Gateway G)

/-- **A safe request makes reading calls only.** -/
theorem meets_serve_safe (env : Surroundings) {req : ApiRequest} (hsafe : req.isSafe = true) :
    (serve gw env req).Meets readingSpec fun _ => True := by
  apply meets_serve
  · intro _ e r _ hr op hop
    exact op.meets_of_isRead gw.mgr (isRead_of_isSafe (yieldsSafe_extract hsafe e r hr) hop)
      fun _ hc => hc
  · -- there is no safe way to enroll
    intro o a _ _ _ hpost _ _
    simp [ApiRequest.isSafe, hpost] at hsafe

/-- The same moves with nothing asked to be shown. -/
def Move.unasked : Move → Move := Move.only fun req => !req.isSafe

/-- **Reading leaves no trace.**  Whatever is asked to be shown between the storage calls of other
requests: the store ends up as if nothing had been, and so does each other request. -/
theorem reads_unnoticed (s : AnyStore) (l : List Move) :
    (served gw AnyStore.exec s l).store =
      (served gw AnyStore.exec s (l.map Move.unasked)).store ∧
    ∀ i req, (arrivals l)[i]? = some req → req.isSafe = false →
      responseTo gw AnyStore.exec s l i =
        responseTo gw AnyStore.exec s (l.map Move.unasked) i := by
  have hsound : (Pairing.same anySpec).Sound AnyStore.exec AnyStore.exec Eq := by
    intro c c' s t hst hc
    obtain ⟨hcc, _⟩ := hc
    subst hst hcc
    exact ⟨⟨HEq.rfl, fun _ _ => trivial⟩, rfl⟩
  have hunseen : readingSpec.Unseen AnyStore.exec Eq := by
    intro c s t hst hread
    rw [AnyStore.exec_of_isRead hread]
    exact ⟨hst, fun _ _ => trivial⟩
  have hkeep : ∀ env req, .request env req ∈ l → (!req.isSafe) = true →
      (serve gw env req).Meets anySpec fun _ => True :=
    fun _ _ _ _ => Prog.meets_of_pre (fun _ => trivial) _
  have hdrop : ∀ env req, .request env req ∈ l → (!req.isSafe) = false →
      (serve gw env req).Meets readingSpec fun _ => True :=
    fun env _ _ hsafe => meets_serve_safe gw env (by simpa using hsafe)
  obtain ⟨hstore, hsame⟩ := served_only gw hsound hunseen (rfl : s = s) hkeep hdrop
  exact ⟨hstore, fun i req hreq hsafe => hsame i req hreq (by rw [hsafe]; rfl)⟩

end Reads

end PeatGateway
