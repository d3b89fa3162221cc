import PeatGateway.Api.Enroll
import PeatGateway.Serde

/-!
# Requests and responses

What the router sees of a request, what the extractors make of it, and what goes back.

A path is the list of its segments.  The segments that stand for ids are decoded after the path
has been matched, so that an id may hold any character.  An empty segment stands for an id like any
other, but not at the end of a path.

## Main definitions

* `ApiRequest`, `ApiResponse` — what goes in and out.
* `percentDecode` — the text of a path segment.
* `Endpoint`, `route` — the paths of the API.
* `AdminRequest`, `extract` — the requests of the administrator, and how they are read.
-/

namespace PeatGateway

open Effect

/-! ### Requests and responses -/

/-- The methods that routes tell apart. -/
inductive Method
  | get
  | head
  | post
  | patch
  | delete
  | other
  deriving DecidableEq, Repr

/-- The statuses of responses. -/
inductive HttpStatus
  | ok
  | created
  | badRequest
  | unauthorized
  | forbidden
  | notFound
  | methodNotAllowed
  | payloadTooLarge
  | unsupportedMediaType
  | unprocessableEntity
  | tooManyRequests
  | internalServerError
  deriving DecidableEq, Repr

/-- The statuses of the enrollment handler among all. -/
def StatusCode.toHttp : StatusCode → HttpStatus
  | .badRequest => .badRequest
  | .unauthorized => .unauthorized
  | .forbidden => .forbidden
  | .tooManyRequests => .tooManyRequests
  | .internalServerError => .internalServerError

/-- `serde_json::error::Category`.  A value of the wrong shape is an error in the data, or in the
grammar where the reader meets a token that it does not expect there, as in place of the name of a
variant.  The end of a text that is not complete counts as the grammar's. -/
inductive Category
  | data
  | grammar
  deriving DecidableEq, Repr

/-- The status of an error of the JSON reader. -/
def Category.status : Category → HttpStatus
  | .data => .unprocessableEntity
  | .grammar => .badRequest

/-- The body of a request, as far as the JSON extractor gets. -/
inductive Body
  /-- The content type is not that of JSON. -/
  | notJson
  | tooLarge
  /-- The text is not that of a JSON value.  The fault is of the kind of the first error that
  reading it as the type of the route meets. -/
  | malformed (fault : Category)
  /-- The text of a value, and the same for a value that is not of that type. -/
  | json (v : Json) (fault : Category)

/-- A request, as far as handlers look at it. -/
structure ApiRequest where
  method : Method
  /-- The segments of the path, as they are sent. -/
  path : List String
  /-- The names and values of the query, decoded. -/
  query : List (String × String)
  headers : HeaderMap
  body : Body

/-- The body of a response. -/
inductive Payload
  | empty
  | text (s : String)
  | json (v : Json)
  /-- The text of an extractor that has refused. -/
  | rejection

/-- A response. -/
structure ApiResponse where
  status : HttpStatus
  payload : Payload

/-- A list as JSON. -/
def jsonList {α : Type} (write : α → Json) (l : List α) : Payload := .json (.array (l.map write))

/-! ### Extractors -/

/-- The bytes of a path segment: `%` and two hexadecimal digits stand for a byte. -/
def percentBytes : List Char → Bytes
  | '%' :: hi :: lo :: cs =>
    match Wire.hexVal hi, Wire.hexVal lo with
    | some h, some l => UInt8.ofNat (16 * h + l) :: percentBytes cs
    | _, _ => Text.utf8 "%" ++ percentBytes (hi :: lo :: cs)
  | c :: cs => String.utf8EncodeChar c ++ percentBytes cs
  | [] => []

/-- The text of a path segment, if its bytes are that of a text. -/
def percentDecode (segment : String) : Option String :=
  String.fromUTF8? ⟨(percentBytes segment.toList).toArray⟩

/-- A parameter of the path. -/
def pathParam (segment : String) : Except HttpStatus String :=
  match percentDecode segment with
  | some s => .ok s
  | none => .error .badRequest

/-- The body, read as a value of some type. -/
def Body.extract {α : Type} (read : Json → Option α) : Body → Except HttpStatus α
  | .notJson => .error .unsupportedMediaType
  | .tooLarge => .error .payloadTooLarge
  | .malformed fault => .error fault.status
  | .json v fault =>
    match read v with
    | some a => .ok a
    | none => .error fault.status

/-- The value of a name in the query.  A name that is given twice is not accepted. -/
def queryField (name : String) (query : List (String × String)) :
    Except HttpStatus (Option String) :=
  match query.filter (·.1 == name) with
  | [] => .ok none
  | [(_, v)] => .ok (some v)
  | _ => .error .badRequest

/-- `str::parse::<usize>`: decimal digits, with or without a plus sign. -/
def parseUsize (s : String) : Option UInt64 :=
  let digits := (Text.stripPrefix s "+").getD s
  ((readNat digits).filter (· < 2 ^ 64)).map UInt64.ofNat

/-! ### Paths -/

/-- What a path leads to.  Parameters are the segments as they are sent. -/
inductive Endpoint
  | orgs
  | org (orgId : String)
  | formations (orgId : String)
  | formation (orgId appId : String)
  | peers (orgId appId : String)
  | documents (orgId appId : String)
  | certificates (orgId appId : String)
  | formationTokens (orgId appId : String)
  | enroll (orgId appId : String)
  | tokens (orgId : String)
  | token (orgId tokenId : String)
  | revokeToken (orgId tokenId : String)
  | sinks (orgId : String)
  | sink (orgId sinkId : String)
  | idps (orgId : String)
  | idp (orgId idpId : String)
  | policyRules (orgId : String)
  | policyRule (orgId ruleId : String)
  | audit (orgId : String)
  | health
  | metrics
  deriving DecidableEq, Repr

/-- The paths below `/orgs`. -/
def routeOrgs : List String → Option Endpoint
  | [] => some .orgs
  | [o] => some (.org o)
  | [o, "formations"] => some (.formations o)
  | [o, "formations", a] => some (.formation o a)
  | [o, "formations", a, "peers"] => some (.peers o a)
  | [o, "formations", a, "documents"] => some (.documents o a)
  | [o, "formations", a, "certificates"] => some (.certificates o a)
  | [o, "formations", a, "tokens"] => some (.formationTokens o a)
  | [o, "formations", a, "enroll"] => some (.enroll o a)
  | [o, "tokens"] => some (.tokens o)
  | [o, "tokens", t] => some (.token o t)
  | [o, "tokens", t, "revoke"] => some (.revokeToken o t)
  | [o, "sinks"] => some (.sinks o)
  | [o, "sinks", s] => some (.sink o s)
  | [o, "idps"] => some (.idps o)
  | [o, "idps", i] => some (.idp o i)
  | [o, "policy-rules"] => some (.policyRules o)
  | [o, "policy-rules", r] => some (.policyRule o r)
  | [o, "audit"] => some (.audit o)
  | _ => none

/-- The paths of the API.  The router matches an empty segment with a parameter, but for one at the
end of the path. -/
def route : List String → Option Endpoint
  | "orgs" :: segments => if segments.getLast? = some "" then none else routeOrgs segments
  | ["health"] => some .health
  | ["metrics"] => some .metrics
  | _ => none

/-! ### The requests of the administrator -/

/-- A request that the admin routes pass on to a handler, with all that is read of it. -/
inductive AdminRequest
  | createOrg (orgId displayName : String)
  | listOrgs
  | getOrg (orgId : String)
  | updateOrg (orgId : String) (displayName : Option String) (quotas : Option OrgQuotas)
  | deleteOrg (orgId : String)
  | createFormation (orgId appId : String) (policy : EnrollmentPolicy)
  | listFormations (orgId : String)
  | getFormation (orgId appId : String)
  | deleteFormation (orgId appId : String)
  | listPeers (orgId appId : String)
  | listDocuments (orgId appId : String)
  | listCertificates (orgId appId : String)
  | createToken (orgId appId label : String) (maxUses : Option UInt32)
      (expiresAt : Option UInt64)
  | listTokens (orgId appId : String)
  | getToken (orgId tokenId : String)
  | revokeToken (orgId tokenId : String)
  | deleteToken (orgId tokenId : String)
  | createSink (orgId : String) (sinkType : CdcSinkType)
  | listSinks (orgId : String)
  | getSink (orgId sinkId : String)
  | toggleSink (orgId sinkId : String) (enabled : Bool)
  | deleteSink (orgId sinkId : String)
  | createIdp (orgId issuerUrl clientId clientSecret : String)
  | listIdps (orgId : String)
  | getIdp (orgId idpId : String)
  | toggleIdp (orgId idpId : String) (enabled : Bool)
  | deleteIdp (orgId idpId : String)
  | createPolicyRule (orgId claimKey claimValue : String) (tier : MeshTier)
      (permissions priority : UInt32)
  | listPolicyRules (orgId : String)
  | deletePolicyRule (orgId ruleId : String)
  | listAudit (orgId : String) (appId : Option String) (limit : UInt64)
  deriving DecidableEq, Repr

/-! ### Reading the bodies -/

/-- `Option<String>`. -/
def optionalString : Codec (Option String) := Codec.string.option Codec.string_ne_null

/-- `CreateOrgRequest`. -/
def readCreateOrg (j : Json) : Option (String × String) := do
  let m ← j.entries ["org_id", "display_name"] 0
  return (← Codec.string.field "org_id" m, ← Codec.string.field "display_name" m)

/-- `Option<OrgQuotas>`. -/
def optionalQuotas : Codec (Option OrgQuotas) :=
  OrgQuotas.codec.option fun q => by simp [OrgQuotas.codec]

/-- `UpdateOrgRequest`. -/
def readUpdateOrg (j : Json) : Option (Option String × Option OrgQuotas) := do
  let m ← j.entries ["display_name", "quotas"] 0
  return (← optionalString.field "display_name" m, ← optionalQuotas.field "quotas" m)

/-- `default_enrollment_policy`. -/
def defaultEnrollmentPolicy : EnrollmentPolicy := .controlled

/-- `CreateFormationRequest`. -/
def readCreateFormation (j : Json) : Option (String × EnrollmentPolicy) := do
  let m ← j.entries ["app_id", "enrollment_policy"] 1
  return (← Codec.string.field "app_id" m,
    ← (EnrollmentPolicy.codec.withDefault defaultEnrollmentPolicy).field "enrollment_policy" m)

/-- `CreateTokenRequest`. -/
def readCreateToken (j : Json) :
    Option (String × String × Option UInt32 × Option UInt64) := do
  let m ← j.entries ["app_id", "label", "max_uses", "expires_at"] 0
  return (← Codec.string.field "app_id" m, ← Codec.string.field "label" m,
    ← optionalU32.field "max_uses" m, ← optionalU64.field "expires_at" m)

/-- `CreateSinkRequest`. -/
def readCreateSink (j : Json) : Option CdcSinkType := do
  CdcSinkType.codec.field "sink_type" (← j.entries ["sink_type"] 0)

/-- `ToggleSinkRequest` and `ToggleIdpRequest`. -/
def readToggle (j : Json) : Option Bool := do
  Codec.bool.field "enabled" (← j.entries ["enabled"] 0)

/-- `CreateIdpRequest`. -/
def readCreateIdp (j : Json) : Option (String × String × String) := do
  let m ← j.entries ["issuer_url", "client_id", "client_secret"] 0
  return (← Codec.string.field "issuer_url" m, ← Codec.string.field "client_id" m,
    ← Codec.string.field "client_secret" m)

/-- `default_priority`. -/
def defaultRulePriority : UInt32 := 100

/-- `CreatePolicyRuleRequest`. -/
def readCreatePolicyRule (j : Json) :
    Option (String × String × MeshTier × UInt32 × UInt32) := do
  let m ← j.entries ["claim_key", "claim_value", "tier", "permissions", "priority"] 2
  return (← Codec.string.field "claim_key" m, ← Codec.string.field "claim_value" m,
    ← MeshTier.codec.field "tier" m, ← (Codec.uint32.withDefault 0).field "permissions" m,
    ← (Codec.uint32.withDefault defaultRulePriority).field "priority" m)

/-- `EnrollRequest`. -/
def readEnroll (j : Json) : Option EnrollRequest := do
  let m ← j.entries ["token", "public_key", "node_id"] 0
  return ⟨← optionalString.field "token" m, ← optionalString.field "public_key" m,
    ← optionalString.field "node_id" m⟩

/-- `default_limit`. -/
def defaultLimit : UInt64 := 100

/-- `AuditQuery`. -/
def readAuditQuery (query : List (String × String)) :
    Except HttpStatus (Option String × UInt64) := do
  let appId ← queryField "app_id" query
  match ← queryField "limit" query with
  | none => return (appId, defaultLimit)
  | some text =>
    match parseUsize text with
    | some limit => return (appId, limit)
    | none => .error .badRequest

namespace ApiRequest

/-- The handler of the method and what the extractors pass to it, first of the path, then of
the query and of the body. -/
def extract (req : ApiRequest) : Endpoint → Except HttpStatus AdminRequest
  | .orgs =>
    match req.method with
    | .post => do
      let (orgId, displayName) ← req.body.extract readCreateOrg
      return .createOrg orgId displayName
    | .get | .head => return .listOrgs
    | _ => .error .methodNotAllowed
  | .org o =>
    match req.method with
    | .get | .head => do return .getOrg (← pathParam o)
    | .patch => do
      let orgId ← pathParam o
      let (displayName, quotas) ← req.body.extract readUpdateOrg
      return .updateOrg orgId displayName quotas
    | .delete => do return .deleteOrg (← pathParam o)
    | _ => .error .methodNotAllowed
  | .formations o =>
    match req.method with
    | .post => do
      let orgId ← pathParam o
      let (appId, policy) ← req.body.extract readCreateFormation
      return .createFormation orgId appId policy
    | .get | .head => do return .listFormations (← pathParam o)
    | _ => .error .methodNotAllowed
  | .formation o a =>
    match req.method with
    | .get | .head => do return .getFormation (← pathParam o) (← pathParam a)
    | .delete => do return .deleteFormation (← pathParam o) (← pathParam a)
    | _ => .error .methodNotAllowed
  | .peers o a =>
    match req.method with
    | .get | .head => do return .listPeers (← pathParam o) (← pathParam a)
    | _ => .error .methodNotAllowed
  | .documents o a =>
    match req.method with
    | .get | .head => do return .listDocuments (← pathParam o) (← pathParam a)
    | _ => .error .methodNotAllowed
  | .certificates o a =>
    match req.method with
    | .get | .head => do return .listCertificates (← pathParam o) (← pathParam a)
    | _ => .error .methodNotAllowed
  | .formationTokens o a =>
    match req.method with
    | .get | .head => do return .listTokens (← pathParam o) (← pathParam a)
    | _ => .error .methodNotAllowed
  | .tokens o =>
    match req.method with
    | .post => do
      let orgId ← pathParam o
      let (appId, label, maxUses, expiresAt) ← req.body.extract readCreateToken
      return .createToken orgId appId label maxUses expiresAt
    | _ => .error .methodNotAllowed
  | .token o t =>
    match req.method with
    | .get | .head => do return .getToken (← pathParam o) (← pathParam t)
    | .delete => do return .deleteToken (← pathParam o) (← pathParam t)
    | _ => .error .methodNotAllowed
  | .revokeToken o t =>
    match req.method with
    | .post => do return .revokeToken (← pathParam o) (← pathParam t)
    | _ => .error .methodNotAllowed
  | .sinks o =>
    match req.method with
    | .post => do return .createSink (← pathParam o) (← req.body.extract readCreateSink)
    | .get | .head => do return .listSinks (← pathParam o)
    | _ => .error .methodNotAllowed
  | .sink o s =>
    match req.method with
    | .get | .head => do return .getSink (← pathParam o) (← pathParam s)
    | .patch => do
      return .toggleSink (← pathParam o) (← pathParam s) (← req.body.extract readToggle)
    | .delete => do return .deleteSink (← pathParam o) (← pathParam s)
    | _ => .error .methodNotAllowed
  | .idps o =>
    match req.method with
    | .post => do
      let orgId ← pathParam o
      let (issuerUrl, clientId, clientSecret) ← req.body.extract readCreateIdp
      return .createIdp orgId issuerUrl clientId clientSecret
    | .get | .head => do return .listIdps (← pathParam o)
    | _ => .error .methodNotAllowed
  | .idp o i =>
    match req.method with
    | .get | .head => do return .getIdp (← pathParam o) (← pathParam i)
    | .patch => do
      return .toggleIdp (← pathParam o) (← pathParam i) (← req.body.extract readToggle)
    | .delete => do return .deleteIdp (← pathParam o) (← pathParam i)
    | _ => .error .methodNotAllowed
  | .policyRules o =>
    match req.method with
    | .post => do
      let orgId ← pathParam o
      let (claimKey, claimValue, tier, permissions, priority) ←
        req.body.extract readCreatePolicyRule
      return .createPolicyRule orgId claimKey claimValue tier permissions priority
    | .get | .head => do return .listPolicyRules (← pathParam o)
    | _ => .error .methodNotAllowed
  | .policyRule o r =>
    match req.method with
    | .delete => do return .deletePolicyRule (← pathParam o) (← pathParam r)
    | _ => .error .methodNotAllowed
  | .audit o =>
    match req.method with
    | .get | .head => do
      let orgId ← pathParam o
      let (appId, limit) ← readAuditQuery req.query
      return .listAudit orgId appId limit
    | _ => .error .methodNotAllowed
  -- no admin route
  | .enroll _ _ | .health | .metrics => .error .methodNotAllowed

end ApiRequest

end PeatGateway
