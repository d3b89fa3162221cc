import PeatGateway.Api.EnrollSound
import PeatGateway.Api.Gateway
import PeatGateway.Lib.Lockstep
import PeatGateway.Tenant.Deletion

/-!
# Tenants do not notice each other

Requests of many organizations are served at the same time from one redb database.  What an
organization is answered, and what becomes of its records, is as if all the others had asked for
a page that does not exist.

## Main definitions

* `ownSpec` — the calls of an organization on its own records.
* `ApiRequest.orgId` — the organization a request is addressed to.
* `Move.alone`, `Move.only` — the same moves with the others gone, or with some requests gone.

## Main results

* `meets_serve_own` — a request addressed to an organization makes calls on its own records.
* `served_only` — requests that go unseen may as well be left out.
* `tenants_unnoticed` — **the responses to an organization, and its records, do not depend on the
  requests of the others**.
-/

namespace PeatGateway

open Effect Text

/-! ### What an organization does -/

/-- The calls of an organization on its own records. -/
def ownSpec (A : String) : Spec Storage := (callSpec (· = A)).and (ownReads A)

/-! ### What the calls do to the rows -/

/-- The organizations of others. -/
def Other (A : String) (o : String) : Prop := IsIdentifier o ∧ o ≠ A

/-- A call in the scope of others reads, or writes in the scope of one of them. -/
theorem callPre_other {A : String} {c : StorageCall} (hc : callPre (Other A) c) :
    c.isRead = true ∨ ∃ B, Other A B ∧ callPre (· = B) c := by
  cases c with
  | createOrg _ | updateOrg _ | createToken _ | updateToken _ | createSink _ | updateSink _
  | createIdp _ | updateIdp _ | createPolicyRule _ => exact Or.inr ⟨_, hc.2, hc.1, rfl⟩
  | createFormation _ _ | storeGenesis _ _ _ =>
    exact Or.inr ⟨_, hc.2.2, hc.1, hc.2.1, rfl⟩
  | deleteOrg _ | deleteFormation _ _ | deleteToken _ _ | deleteSink _ _ | deleteIdp _ _
  | deletePolicyRule _ _ | deleteGenesis _ _ | setCursor _ _ _ _ | appendAudit _ =>
    exact Or.inr ⟨_, hc, rfl⟩
  | _ => exact Or.inl rfl

/-- **The calls of the others keep the rows of an organization.** -/
theorem sameRows_other {A : String} (hA : IsIdentifier A) (s : Redb) {c : StorageCall}
    (hc : callPre (Other A) c) : s.SameRows A (Redb.exec c s).2 := by
  rcases callPre_other hc with hread | ⟨B, hB, hcB⟩
  · have hstay : (Redb.exec c s).2 = s := by
      cases c <;> first | rfl | cases hread
    rw [hstay]
    exact .refl A s
  · exact sameRows_exec hB.1 hA hB.2 s c hcB

/-! ### Requests -/

/-- The organization a request of the administrator is addressed to; listing all organizations
is addressed to none. -/
def AdminRequest.orgId : AdminRequest → Option String
  | .listOrgs => none
  | .createOrg orgId _ | .getOrg orgId | .updateOrg orgId _ _ | .deleteOrg orgId
  | .createFormation orgId _ _ | .listFormations orgId | .getFormation orgId _
  | .deleteFormation orgId _ | .listPeers orgId _ | .listDocuments orgId _
  | .listCertificates orgId _ | .createToken orgId _ _ _ _ | .listTokens orgId _
  | .getToken orgId _ | .revokeToken orgId _ | .deleteToken orgId _ | .createSink orgId _
  | .listSinks orgId | .getSink orgId _ | .toggleSink orgId _ _ | .deleteSink orgId _
  | .createIdp orgId _ _ _ | .listIdps orgId | .getIdp orgId _ | .toggleIdp orgId _ _
  | .deleteIdp orgId _ | .createPolicyRule orgId _ _ _ _ _ | .listPolicyRules orgId
  | .deletePolicyRule orgId _ | .listAudit orgId _ _ => some orgId

/-- The organization a request is addressed to, if it gets as far as a handler. -/
def ApiRequest.orgId (req : ApiRequest) : Option String :=
  match route req.path with
  | none => none
  | some (.enroll o _) => (pathParam o).toOption
  | some e => (req.extract e).toOption.bind AdminRequest.orgId

theorem AdminRequest.orgId_ops (env : Surroundings) {r : AdminRequest} {op : ManagerOp}
    (hop : op ∈ r.ops env) : op.orgId = r.orgId := by
  cases r
  case listCertificates =>
    simp only [ops, List.mem_cons, List.not_mem_nil, or_false] at hop
    rcases hop with rfl | rfl | rfl <;> rfl
  all_goals
    obtain rfl := List.mem_singleton.mp hop
    rfl

theorem ApiRequest.orgId_of_extract {req : ApiRequest} {e : Endpoint} {r : AdminRequest}
    (hroute : route req.path = some e) (hr : req.extract e = .ok r) : req.orgId = r.orgId := by
  have hadmin : ∀ o a, e ≠ .enroll o a := by
    rintro o a rfl
    cases hr
  unfold orgId
  rw [hroute]
  cases e
  case enroll o a => exact absurd rfl (hadmin o a)
  all_goals
    dsimp only
    rw [hr]
    rfl

theorem ApiRequest.orgId_of_enroll {req : ApiRequest} {o a orgId : String}
    (hroute : route req.path = some (.enroll o a)) (ho : pathParam o = .ok orgId) :
    req.orgId = some orgId := by
  unfold ApiRequest.orgId
  rw [hroute]
  dsimp only
  rw [ho]
  rfl

section Meets

variable {G : Type} {gw : Gateway G} {env : Surroundings} {req : ApiRequest} {A : String}

/-- A request of an organization makes its own calls. -/
theorem meets_serve_own (hA : IsIdentifier A) (h : req.orgId = some A) :
    (serve gw env req).Meets (ownSpec A) fun _ => True := by
  have hop : ∀ op : ManagerOp, op.orgId = some A →
      (op.prog gw.mgr).Meets (ownSpec A) fun _ => True := by
    intro op horg
    refine Prog.Meets.and (op.meets gw.mgr ?_) (op.meets_ownReads gw.mgr horg)
    intro orgId horg' o ho
    rw [horg] at horg'
    obtain rfl := Option.some.inj horg'
    exact ho hA
  apply meets_serve
  · intro _ e r hroute hr op hmem
    apply hop
    rw [AdminRequest.orgId_ops env hmem, ← ApiRequest.orgId_of_extract hroute hr, h]
  · intro o a orgId appId hroute _ ho _
    have horg := ApiRequest.orgId_of_enroll hroute ho
    rw [h] at horg
    obtain rfl := Option.some.inj horg
    exact meets_enroll_ops gw.mgr hop _ _ _ _ _

/-- A request that is not one of an organization makes calls in the scope of others. -/
theorem meets_serve_other (h : req.orgId ≠ some A)
    (hid : ∀ o, req.orgId = some o → IsIdentifier o) :
    (serve gw env req).Meets (callSpec (Other A)) fun _ => True := by
  have hscope : ∀ orgId, req.orgId = some orgId → InScope (Other A) orgId := by
    intro orgId horg o ho
    obtain rfl := ho (hid orgId horg)
    refine ⟨hid _ horg, ?_⟩
    rintro rfl
    exact h horg
  apply meets_serve
  · intro _ e r hroute hr op hmem
    apply op.meets gw.mgr
    intro orgId horg
    rw [AdminRequest.orgId_ops env hmem, ← ApiRequest.orgId_of_extract hroute hr] at horg
    exact hscope orgId horg
  · intro o a orgId appId hroute _ ho _
    exact meets_enroll gw.mgr (hscope orgId (ApiRequest.orgId_of_enroll hroute ho)) _ _ _ _ _

end Meets

/-! ### With and without some of the requests -/

/-- A request for a page that does not exist. -/
def nowhere : ApiRequest := ⟨.get, [], [], [], .notJson⟩

namespace Move

/-- The same move, if it is none of others. -/
def alone (A : String) : Move → Move
  | request env req => if req.orgId = some A then request env req else request env nowhere
  | step i => step i

/-- The same move, if it is one of the requests that are kept. -/
def only (keep : ApiRequest → Bool) : Move → Move
  | request env req => if keep req = true then request env req else request env nowhere
  | step i => step i

theorem alone_eq_only (A : String) : alone A = only fun req => req.orgId = some A := by
  funext m
  cases m with
  | request env req => simp [alone, only]
  | step i => rfl

/-- The request that arrives, if one does. -/
def request? : Move → Option ApiRequest
  | request _ req => some req
  | step _ => none

end Move

/-- The requests of a schedule in the order in which they arrive. -/
def arrivals (l : List Move) : List ApiRequest := l.filterMap Move.request?

theorem mem_arrivals {l : List Move} {env : Surroundings} {req : ApiRequest}
    (h : .request env req ∈ l) : req ∈ arrivals l :=
  List.mem_filterMap.mpr ⟨_, h, rfl⟩

section Only

variable {G : Type} (gw : Gateway G) {keep : ApiRequest → Bool} {Φ Ψ : Spec Storage}

/-- The two schedules: the requests that are kept go on in lockstep, and the others are not
seen. -/
theorem schedules_only {l : List Move}
    (hkeep : ∀ env req, .request env req ∈ l → keep req = true →
      (serve gw env req).Meets Φ fun _ => True)
    (hdrop : ∀ env req, .request env req ∈ l → keep req = false →
      (serve gw env req).Meets Ψ fun _ => True) {seen : ℕ → Bool} {n : ℕ}
    (hseen : ∀ k, seen (n + k) = ((arrivals l)[k]?.any keep)) :
    Pool.Schedules (Pairing.same Φ) Ψ Eq Eq seen n
      (l.map (Move.act gw)) ((l.map (Move.only keep)).map (Move.act gw)) := by
  induction l generalizing n with
  | nil => trivial
  | cons m l ih =>
    have htail := fun {n} => ih (n := n)
      (fun env req hmem => hkeep env req (List.mem_cons_of_mem _ hmem))
      (fun env req hmem => hdrop env req (List.mem_cons_of_mem _ hmem))
    cases m with
    | step i => exact ⟨rfl, htail hseen⟩
    | request env req =>
      have hnext : ∀ k, seen (n + 1 + k) = ((arrivals l)[k]?.any keep) := by
        intro k
        rw [Nat.add_assoc, Nat.add_comm 1 k]
        exact hseen (k + 1)
      have hfirst : seen n = keep req := hseen 0
      have htail := htail hnext
      by_cases h : keep req = true
      · simp only [List.map_cons, Move.only, if_pos h, Move.act]
        refine ⟨?_, htail⟩
        rw [Pool.Match, if_pos (by rw [hfirst, h])]
        exact (hkeep env req List.mem_cons_self h).paired
      · simp only [List.map_cons, Move.only, if_neg h, Move.act]
        refine ⟨?_, htail⟩
        rw [Pool.Match, if_neg (by rw [hfirst]; exact h)]
        exact ⟨hdrop env req List.mem_cons_self (by simpa using h), rfl⟩

/-- **Requests that go unseen may as well be left out**: the store stays related to the one without
them, and the other requests are given the same responses. -/
theorem served_only {σ τ : Type} {h : Backend σ} {g : Backend τ} {R : σ → τ → Prop}
    (hΦ : (Pairing.same Φ).Sound h g R) (hΨ : Ψ.Unseen h R) {s : σ} {t : τ} (hR : R s t)
    {l : List Move}
    (hkeep : ∀ env req, .request env req ∈ l → keep req = true →
      (serve gw env req).Meets Φ fun _ => True)
    (hdrop : ∀ env req, .request env req ∈ l → keep req = false →
      (serve gw env req).Meets Ψ fun _ => True) :
    R (served gw h s l).store (served gw g t (l.map (Move.only keep))).store ∧
    ∀ i req, (arrivals l)[i]? = some req → keep req = true →
      responseTo gw h s l i = responseTo gw g t (l.map (Move.only keep)) i := by
  let seen : ℕ → Bool := fun i => (arrivals l)[i]?.any keep
  have hmoves : Pool.Schedules (Pairing.same Φ) Ψ Eq Eq seen 0
      (l.map (Move.act gw)) ((l.map (Move.only keep)).map (Move.act gw)) :=
    schedules_only gw hkeep hdrop fun k => by simp [seen]
  have hrun := Pool.acts_paired hΦ hΨ (Pool.lockstep_nil hR) hmoves
  refine ⟨hrun.store, ?_⟩
  intro i req hreq hkept
  have hseen : seen i = true := by simp only [seen, hreq, Option.any_some, hkept]
  exact eq_of_rel_outcomes (hrun.returned hseen)

end Only

/-! ### With and without the others -/

section Alone

variable {G : Type} (gw : Gateway G) {A : String}

/-- An organization without the others, if their calls go unseen. -/
theorem served_alone (hA : IsIdentifier A) {σ τ : Type} {h : Backend σ} {g : Backend τ}
    {R : σ → τ → Prop} (hown : (Pairing.same (ownSpec A)).Sound h g R)
    (hother : (callSpec (Other A)).Unseen h R) {s : σ} {t : τ} (hR : R s t) (l : List Move)
    (hids : ∀ req ∈ arrivals l, ∀ o, req.orgId = some o → IsIdentifier o) :
    R (served gw h s l).store (served gw g t (l.map (Move.alone A))).store ∧
    ∀ i req, (arrivals l)[i]? = some req → req.orgId = some A →
      responseTo gw h s l i = responseTo gw g t (l.map (Move.alone A)) i := by
  rw [Move.alone_eq_only]
  have hkeep : ∀ env req, .request env req ∈ l → decide (req.orgId = some A) = true →
      (serve gw env req).Meets (ownSpec A) fun _ => True :=
    fun env req _ horg => meets_serve_own hA (of_decide_eq_true horg)
  have hdrop : ∀ env req, .request env req ∈ l → decide (req.orgId = some A) = false →
      (serve gw env req).Meets (callSpec (Other A)) fun _ => True :=
    fun env req hmem horg => meets_serve_other (of_decide_eq_false horg)
      (hids req (mem_arrivals hmem))
  obtain ⟨hstore, hsame⟩ := served_only gw hown hother hR hkeep hdrop
  exact ⟨hstore, fun i req hreq horg => hsame i req hreq (decide_eq_true horg)⟩

/-- Two stores with records under their own keys, and the same rows of the organization. -/
def Redb.Agree (A : String) (s t : Redb) : Prop := s.Keyed ∧ t.Keyed ∧ t.SameRows A s

theorem ownSpec_sound (A : String) :
    (Pairing.same (ownSpec A)).Sound Redb.exec Redb.exec (Redb.Agree A) := by
  rintro c _ s t ⟨hs, ht, hrows⟩ ⟨rfl, hpre⟩
  obtain ⟨hanswer, hrows'⟩ := hrows.exec_own hpre
  obtain ⟨hs', hpost⟩ := callSpec_sound (· = A) c s hs hpre.1
  obtain ⟨ht', -⟩ := callSpec_sound (· = A) c t ht hpre.1
  exact ⟨⟨heq_of_eq hanswer, fun x hx => ⟨hpost x hx, trivial⟩⟩, hs', ht', hrows'⟩

theorem other_unseen (hA : IsIdentifier A) :
    (callSpec (Other A)).Unseen Redb.exec (Redb.Agree A) := by
  rintro c s t ⟨hs, ht, hrows⟩ hpre
  obtain ⟨hs', hpost⟩ := callSpec_sound (Other A) c s hs hpre
  exact ⟨⟨hs', ht, hrows.trans (sameRows_other hA s hpre)⟩, hpost⟩

/-- **Tenants do not notice each other.**  Whatever the others ask for, and however the storage
calls of all requests are interleaved: an organization ends with the rows, and each of its
requests with the response, that it would have if the others had all asked for a page that does
not exist. -/
theorem tenants_unnoticed (hA : IsIdentifier A) {s : Redb} (hs : s.Keyed) (l : List Move)
    (hids : ∀ req ∈ arrivals l, ∀ o, req.orgId = some o → IsIdentifier o) :
    (served gw Redb.exec s (l.map (Move.alone A))).store.SameRows A
      (served gw Redb.exec s l).store ∧
    ∀ i req, (arrivals l)[i]? = some req → req.orgId = some A →
      responseTo gw Redb.exec s l i = responseTo gw Redb.exec s (l.map (Move.alone A)) i := by
  obtain ⟨hstore, hsame⟩ := served_alone gw hA (ownSpec_sound A) (other_unseen hA)
    ⟨hs, hs, .refl A s⟩ l hids
  exact ⟨hstore.2.2, hsame⟩

end Alone

/-! ### Two organizations -/

/-- `a` is made and shown, while `b` is made in between. -/
def twoTenants : List Move :=
  [.request quietSurroundings ⟨.post, ["orgs"], [], adminHeaders,
      .json (.object [("org_id", .string "a"), ("display_name", .string "A")]) .data⟩,
    .request quietSurroundings ⟨.post, ["orgs"], [], adminHeaders,
      .json (.object [("org_id", .string "b"), ("display_name", .string "B")]) .data⟩,
    .step 0, .step 1, .step 1, .step 0,
    .request quietSurroundings ⟨.get, ["orgs", "a"], [], adminHeaders, .notJson⟩, .step 2]

/-- `a` sees itself as if it were alone. -/
theorem tenants_unnoticed_two :
    (served seedGateway Redb.exec .empty (twoTenants.map (Move.alone "a"))).store.SameRows "a"
      (served seedGateway Redb.exec .empty twoTenants).store ∧
    (responseTo seedGateway Redb.exec .empty twoTenants 2).isSome = true ∧
    responseTo seedGateway Redb.exec .empty twoTenants 2 =
      responseTo seedGateway Redb.exec .empty (twoTenants.map (Move.alone "a")) 2 := by
  obtain ⟨hrows, hsame⟩ := tenants_unnoticed seedGateway (A := "a") (by decide +kernel)
    Redb.keyed_empty twoTenants (by decide +kernel)
  exact ⟨hrows, by decide +kernel,
    hsame 2 ⟨.get, ["orgs", "a"], [], adminHeaders, .notJson⟩ rfl (by decide +kernel)⟩

end PeatGateway
