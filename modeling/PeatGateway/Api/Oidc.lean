import PeatGateway.Api.Policy
import PeatGateway.Lib.Text

/-!
# Asking an identity provider about a bearer

The provider's discovery document names its endpoints.  If it names an introspection
endpoint, that endpoint is asked and has to say that the token is active; otherwise the
userinfo endpoint is asked, and that it answers at all is taken as proof.

The provider is an arbitrary function from requests to responses.

## Main definitions

* `HttpRequest`, `HttpResponse`, `Internet` — requests and whatever answers them.
* `introspectOidcToken` — the two-path check of a bearer.
* `Vouches` — a provider says of a bearer that the claims hold.

## Main results

* `introspectOidcToken_eq_ok` — **claims are returned exactly if the provider vouches for
  them**.
-/

namespace PeatGateway

open Text

/-- The requests the gateway makes to an identity provider. -/
inductive HttpRequest
  | get (url : String)
  | getBearer (url bearer : String)
  | postForm (url user password : String) (form : List (String × String))
  deriving DecidableEq

/-- A response: its status, as a number and as it is displayed, and what reading its body
as JSON gives. -/
structure HttpResponse where
  status : ℕ
  statusText : String
  json : Except Error Json

/-- What answers requests; the error is that of a request that fails. -/
abbrev Internet : Type := HttpRequest → Except Error HttpResponse

/-- `status.is_success()`. -/
def HttpResponse.isSuccess (r : HttpResponse) : Bool := 200 ≤ r.status && r.status < 300

/-- `response.json::<Map>()`: a body that is no object is a decoding error. -/
def HttpResponse.jsonMap (r : HttpResponse) : Except Error JsonMap :=
  match r.json with
  | .ok (.object m) => .ok m
  | .ok _ => .error "error decoding response body"
  | .error e => .error e

/-- Where the discovery document of an issuer is. -/
def discoveryUrl (issuerUrl : String) : String :=
  trimEndMatches issuerUrl '/' ++ "/.well-known/openid-configuration"

/-- The endpoint a discovery document names, if it names one by a text. -/
def endpoint (discovery : Json) (name : String) : Option String :=
  (discovery.get name).bind Json.asStr

section

variable (net : Internet)

/-- Ask the introspection endpoint. -/
def introspectAt (url clientId clientSecret bearer : String) : Except Error JsonMap := do
  let resp ← (net (.postForm url clientId clientSecret [("token", bearer)])).mapError
    fun e => s!"Token introspection request failed: {e}"
  if !resp.isSuccess then
    .error s!"Introspection endpoint returned {resp.statusText} — check client credentials"
  else
    let body ← resp.jsonMap.mapError fun e => s!"Failed to parse introspection response: {e}"
    match body.get "active" with
    | some (.bool true) => .ok body
    | some (.bool false) => .error "Token is not active (revoked or expired)"
    | _ => .error "Introspection response missing required 'active' field"

/-- Ask the userinfo endpoint. -/
def userinfoAt (url bearer : String) : Except Error JsonMap := do
  let resp ← (net (.getBearer url bearer)).mapError fun e => s!"Userinfo request failed: {e}"
  if !resp.isSuccess then
    .error s!"Userinfo endpoint returned {resp.statusText} — token may be invalid or expired"
  else resp.jsonMap.mapError fun e => s!"Failed to parse userinfo response: {e}"

/-- `introspect_oidc_token`. -/
def introspectOidcToken (issuerUrl clientId clientSecret bearer : String) :
    Except Error JsonMap := do
  let resp ← (net (.get (discoveryUrl issuerUrl))).mapError
    fun e => s!"OIDC discovery request failed: {e}"
  let discovery ← resp.json.mapError fun e => s!"OIDC discovery response parse failed: {e}"
  match endpoint discovery "introspection_endpoint" with
  | some url => introspectAt net url clientId clientSecret bearer
  | none =>
    match endpoint discovery "userinfo_endpoint" with
    | some url => userinfoAt net url bearer
    | none => .error "IdP has neither introspection nor userinfo endpoint"

/-- The provider says of the bearer that the claims hold: its introspection endpoint calls
it active, or, if it has none, its userinfo endpoint answers. -/
def Vouches (idp : IdpConfig) (bearer : String) (claims : JsonMap) : Prop :=
  ∃ resp discovery, net (.get (discoveryUrl idp.issuerUrl)) = .ok resp ∧
    resp.json = .ok discovery ∧
    ((∃ url answer, endpoint discovery "introspection_endpoint" = some url ∧
        net (.postForm url idp.clientId idp.clientSecret [("token", bearer)]) = .ok answer ∧
        answer.isSuccess = true ∧ answer.json = .ok (.object claims) ∧
        JsonMap.get claims "active" = some (.bool true)) ∨
      ∃ url answer, endpoint discovery "introspection_endpoint" = none ∧
        endpoint discovery "userinfo_endpoint" = some url ∧
        net (.getBearer url bearer) = .ok answer ∧
        answer.isSuccess = true ∧ answer.json = .ok (.object claims))

end

section Spec

variable {net : Internet}

theorem bind_mapError_eq_ok {α β : Type} {r : Except Error α} {f : Error → Error}
    {k : α → Except Error β} {b : β} :
    (r.mapError f >>= k) = .ok b ↔ ∃ a, r = .ok a ∧ k a = .ok b := by
  cases r with
  | error e => exact ⟨nofun, nofun⟩
  | ok a => exact ⟨fun h => ⟨a, rfl, h⟩, fun ⟨_, ha, h⟩ => by cases ha; exact h⟩

theorem mapError_eq_ok {α : Type} {r : Except Error α} {f : Error → Error} {a : α} :
    r.mapError f = .ok a ↔ r = .ok a := by
  cases r <;> simp [Except.mapError]

theorem jsonMap_eq_ok {r : HttpResponse} {m : JsonMap} :
    r.jsonMap = .ok m ↔ r.json = .ok (.object m) := by
  unfold HttpResponse.jsonMap
  split <;> simp_all

theorem introspectAt_eq_ok {url clientId clientSecret bearer : String} {claims : JsonMap} :
    introspectAt net url clientId clientSecret bearer = .ok claims ↔
      ∃ answer, net (.postForm url clientId clientSecret [("token", bearer)]) = .ok answer ∧
        answer.isSuccess = true ∧ answer.json = .ok (.object claims) ∧
        JsonMap.get claims "active" = some (.bool true) := by
  rw [introspectAt, bind_mapError_eq_ok]
  refine exists_congr fun answer => and_congr_right ?_
  intro _
  by_cases hs : answer.isSuccess = true
  · simp only [hs, Bool.not_true, Bool.false_eq_true, if_false, bind_mapError_eq_ok, jsonMap_eq_ok,
      true_and]
    constructor
    -- Only `"active": true` lets the claims through; a missing field is refused like a false one.
    · rintro ⟨body, hjson, hactive⟩
      split at hactive
      · next hget =>
        obtain rfl := Except.ok.inj hactive
        exact ⟨hjson, hget⟩
      · cases hactive
      · cases hactive
    · rintro ⟨hjson, hget⟩
      refine ⟨claims, hjson, ?_⟩
      rw [hget]
  · simp [hs]

theorem userinfoAt_eq_ok {url bearer : String} {claims : JsonMap} :
    userinfoAt net url bearer = .ok claims ↔
      ∃ answer, net (.getBearer url bearer) = .ok answer ∧ answer.isSuccess = true ∧
        answer.json = .ok (.object claims) := by
  rw [userinfoAt, bind_mapError_eq_ok]
  refine exists_congr fun answer => and_congr_right ?_
  intro _
  by_cases hs : answer.isSuccess = true
  · simp [hs, mapError_eq_ok, jsonMap_eq_ok]
  · simp [hs]

/-- **Claims are returned exactly if the provider vouches for them.** -/
theorem introspectOidcToken_eq_ok {idp : IdpConfig} {bearer : String} {claims : JsonMap} :
    introspectOidcToken net idp.issuerUrl idp.clientId idp.clientSecret bearer = .ok claims ↔
      Vouches net idp bearer claims := by
  rw [introspectOidcToken, bind_mapError_eq_ok, Vouches]
  apply exists_congr
  intro resp
  rw [bind_mapError_eq_ok, ← exists_and_left]
  refine exists_congr fun discovery => and_congr_right fun _ => and_congr_right ?_
  intro _
  cases endpoint discovery "introspection_endpoint" with
  | some url => simp [introspectAt_eq_ok]
  | none =>
    cases endpoint discovery "userinfo_endpoint" with
    | some url => simp [userinfoAt_eq_ok]
    | none => simp

end Spec

end PeatGateway
