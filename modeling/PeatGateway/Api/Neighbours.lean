import PeatGateway.Api.Tenants
import PeatGateway.Tenant.Cascade

/-!
# Tenants on Postgres do not notice each other

The counterpart of `PeatGateway.Api.Tenants` for Postgres, where nothing is asked of the names that
come in: a path that names an organization by any text at all is about its rows and no others.

## Main definitions

* `Postgres.Agree` — two stores that cannot be told apart by an organization.

## Main results

* `meets_serve_about` — a request makes calls about the organization it is addressed to.
* `neighbours_unnoticed` — **the responses to an organization, and its rows, do not depend on the
  requests of the others**.
-/

namespace PeatGateway

open Effect

section Requests

variable {G : Type} (gw : Gateway G)

/-- **A request makes calls about the organization it is addressed to.** -/
theorem meets_serve_about (env : Surroundings) {req : ApiRequest} {about : Option String → Prop}
    (h : about req.orgId) : (serve gw env req).Meets (aboutSpec about) fun _ => True := by
  apply meets_serve
  · intro _ e r hroute hr op hop
    apply op.meets_about
    rwa [AdminRequest.orgId_ops env hop, ← ApiRequest.orgId_of_extract hroute hr]
  · intro o a orgId appId hroute _ ho _
    rw [ApiRequest.orgId_of_enroll hroute ho] at h
    apply meets_enroll_ops
    intro op hop
    apply op.meets_about
    rwa [hop]

end Requests

/-- Two stores with records under their own keys, and the same rows of the organization. -/
def Postgres.Agree (A : String) (s t : Postgres) : Prop := s.Keyed ∧ t.Keyed ∧ t.SameRows A s

section Calls

variable {A : String}

/-- The calls about an organization are answered alike. -/
theorem aboutSpec_sound :
    (Pairing.same (aboutSpec (· = some A))).Sound Postgres.exec Postgres.exec
      (Postgres.Agree A) := by
  rintro c _ s t ⟨hs, ht, hrows⟩ ⟨rfl, hc⟩
  obtain ⟨hanswer, hrows'⟩ := hrows.exec hc
  exact ⟨⟨heq_of_eq hanswer, hs.orgRead c⟩, hs.exec c, ht.exec c, hrows'⟩

/-- The calls about other organizations, or about none, go unseen. -/
theorem aboutSpec_unseen :
    (aboutSpec (· ≠ some A)).Unseen Postgres.exec (Postgres.Agree A) := by
  intro c s t hst hc
  obtain ⟨hs, ht, hrows⟩ := hst
  refine ⟨⟨hs.exec c, ht, hrows.trans ?_⟩, hs.orgRead c⟩
  cases horg : c.orgId with
  | some o =>
    have hoA : o ≠ A := by
      rintro rfl
      exact hc horg
    exact Postgres.sameRows_exec hoA s horg
  | none =>
    cases c <;> cases horg
    exact .refl A s

end Calls

section Neighbours

variable {G : Type} (gw : Gateway G)

/-- **Tenants on Postgres do not notice each other.**  Whatever the others ask for, under whatever
names, and however the storage calls of all requests are interleaved: an organization ends with
the rows, and each of its requests with the response, that it would have if the others had all
asked for a page that does not exist. -/
theorem neighbours_unnoticed (A : String) {s : Postgres} (hs : s.Keyed) (l : List Move) :
    (served gw Postgres.exec s (l.map (Move.alone A))).store.SameRows A
      (served gw Postgres.exec s l).store ∧
    ∀ i req, (arrivals l)[i]? = some req → req.orgId = some A →
      responseTo gw Postgres.exec s l i =
        responseTo gw Postgres.exec s (l.map (Move.alone A)) i := by
  have hkeep : ∀ env req, .request env req ∈ l → decide (req.orgId = some A) = true →
      (serve gw env req).Meets (aboutSpec (· = some A)) fun _ => True :=
    fun env _ _ horg => meets_serve_about gw env (of_decide_eq_true horg)
  have hdrop : ∀ env req, .request env req ∈ l → decide (req.orgId = some A) = false →
      (serve gw env req).Meets (aboutSpec (· ≠ some A)) fun _ => True :=
    fun env _ _ horg => meets_serve_about gw env (of_decide_eq_false horg)
  rw [Move.alone_eq_only]
  obtain ⟨hstore, hsame⟩ := served_only gw aboutSpec_sound aboutSpec_unseen
    (⟨hs, hs, .refl A s⟩ : Postgres.Agree A s s) hkeep hdrop
  exact ⟨hstore.2.2, fun i req hreq horg => hsame i req hreq (decide_eq_true horg)⟩

/-- On a new database `a` sees itself as if it were alone. -/
theorem neighbours_unnoticed_two :
    (served seedGateway Postgres.exec .empty (twoTenants.map (Move.alone "a"))).store.SameRows "a"
      (served seedGateway Postgres.exec .empty twoTenants).store ∧
    (responseTo seedGateway Postgres.exec .empty twoTenants 2).isSome = true ∧
    responseTo seedGateway Postgres.exec .empty twoTenants 2 =
      responseTo seedGateway Postgres.exec .empty (twoTenants.map (Move.alone "a")) 2 := by
  obtain ⟨hrows, hsame⟩ := neighbours_unnoticed seedGateway "a" Postgres.keyed_empty twoTenants
  exact ⟨hrows, by decide +kernel,
    hsame 2 ⟨.get, ["orgs", "a"], [], adminHeaders, .notJson⟩ rfl (by decide +kernel)⟩

end Neighbours

end PeatGateway
