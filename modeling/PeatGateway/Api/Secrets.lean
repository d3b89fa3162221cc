import PeatGateway.Api.Gateway
import PeatGateway.Lib.Alike
import PeatGateway.Lib.Lockstep
import PeatGateway.Tenant.Calls

/-!
# Client secrets go in and do not come out

The client secret of an identity provider is given to the gateway once, is stored with the
provider, and is shown to nobody but the provider.  Two gateways whose requests differ in nothing
but the secrets give the same responses, on either backend, as long as the providers answer them
alike.

Which secrets may stand for each other is left open: a relation `like`, which has to relate blank
secrets to blank ones only, since a blank secret is refused.

## Main definitions

* `IdpConfig.Alike`, `AnyStore.Alike` — providers, and stores, that differ in secrets only.
* `secretPairing` — the same storage calls but for the secrets.
* `Internet.Alike`, `ApiRequest.Alike`, `Move.Alike` — what the gateways meet.

## Main results

* `secretPairing_sound` — related calls keep the stores alike, on both backends.
* `paired_serve` — requests that differ in secrets go on in lockstep.
* `secrets_unseen` — **responses do not depend on client secrets**.
-/

namespace PeatGateway

open Effect

section

variable (like : String → String → Prop)

/-! ### Stores -/

/-- The providers are shown alike, and their secrets may stand for each other. -/
def IdpConfig.Alike (i j : IdpConfig) : Prop :=
  IdpConfigResponse.ofConfig i = IdpConfigResponse.ofConfig j ∧ like i.clientSecret j.clientSecret

/-- The stores are of the same backend, and differ in the secrets of providers only. -/
def AnyStore.Alike : AnyStore → AnyStore → Prop
  | .redb s, .redb t =>
    t = { s with idps := t.idps } ∧ Table.Alike (IdpConfig.Alike like) s.idps t.idps
  | .postgres s, .postgres t =>
    t = { s with idps := t.idps } ∧ Rows.Alike (IdpConfig.Alike like) s.idps t.idps
  | _, _ => False

/-- The call hands a provider to the store, or is answered with providers. -/
def StorageCall.carriesIdp : StorageCall → Bool
  | .createIdp _ | .updateIdp _ | .getIdp _ _ | .listIdps _ => true
  | _ => false

/-- The calls are the same, but for the secrets of the providers in them. -/
inductive StorageCall.Alike : StorageCall → StorageCall → Prop
  | same (c : StorageCall) (hc : c.carriesIdp = false) : Alike c c
  | getIdp (orgId idpId : String) : Alike (.getIdp orgId idpId) (.getIdp orgId idpId)
  | listIdps (orgId : String) : Alike (.listIdps orgId) (.listIdps orgId)
  | createIdp {i j : IdpConfig} (h : i.Alike like j) : Alike (.createIdp i) (.createIdp j)
  | updateIdp {i j : IdpConfig} (h : i.Alike like j) : Alike (.updateIdp i) (.updateIdp j)

/-- The answers are the same, but for the secrets of the providers in them. -/
def AnswerAlike : (c c' : StorageCall) → Except Error c.Res → Except Error c'.Res → Prop
  | .getIdp _ _, .getIdp _ _, r, r' => Outcomes Eq (Option.Rel (IdpConfig.Alike like)) r r'
  | .listIdps _, .listIdps _, r, r' => Outcomes Eq (List.Forall₂ (IdpConfig.Alike like)) r r'
  | _, _, r, r' => HEq r r'

/-- The same storage calls but for the secrets. -/
def secretPairing : Pairing Storage Error where
  call := StorageCall.Alike like
  answer := AnswerAlike like

end

section Backends

variable {like : String → String → Prop} {i j : IdpConfig}

theorem IdpConfig.Alike.orgId (h : i.Alike like j) : i.orgId = j.orgId :=
  congrArg IdpConfigResponse.orgId h.1

theorem IdpConfig.Alike.idpId (h : i.Alike like j) : i.idpId = j.idpId :=
  congrArg IdpConfigResponse.idpId h.1

theorem IdpConfig.Alike.enabled (h : i.Alike like j) : i.enabled = j.enabled :=
  congrArg IdpConfigResponse.enabled h.1

/-- The calls that the table of providers has no part in. -/
def StorageCall.sparesIdps : StorageCall → Bool
  | .createIdp _ | .updateIdp _ | .getIdp _ _ | .listIdps _ | .deleteIdp _ _ | .deleteOrg _ => false
  | _ => true

theorem Redb.exec_withIdps {c : StorageCall} (hc : c.sparesIdps = true) (s : Redb)
    (idps : Table String IdpConfig) :
    Redb.exec c { s with idps } = ((Redb.exec c s).1, { (Redb.exec c s).2 with idps }) := by
  cases c <;> first | rfl | exact absurd hc Bool.false_ne_true

theorem Postgres.commit_withIdps {T : Type} (s : Postgres) (r : Except Error T)
    {f g : T → Postgres} (idps : Rows (String × String) IdpConfig)
    (hg : ∀ t, g t = { f t with idps }) :
    commit { s with idps } r g = ((commit s r f).1, { (commit s r f).2 with idps }) := by
  cases r with
  | ok t => exact congrArg (Prod.mk _) (hg t)
  | error e => rfl

theorem Postgres.exec_withIdps {c : StorageCall} (hc : c.sparesIdps = true) (s : Postgres)
    (idps : Rows (String × String) IdpConfig) :
    Postgres.exec c { s with idps } =
      ((Postgres.exec c s).1, { (Postgres.exec c s).2 with idps }) := by
  cases c <;> first
    | rfl
    | exact commit_withIdps _ _ _ fun _ => rfl
    | exact absurd hc Bool.false_ne_true

/-- What a call that spares the providers does to redb stores that are alike. -/
theorem Redb.alike_exec {s t : Redb} (h : (AnyStore.redb s).Alike like (.redb t)) {c : StorageCall}
    (hc : c.sparesIdps = true) :
    (Redb.exec c s).1 = (Redb.exec c t).1 ∧
      (AnyStore.redb (Redb.exec c s).2).Alike like (.redb (Redb.exec c t).2) := by
  obtain ⟨ht, hidps⟩ := h
  have hself : (Redb.exec c s).2.idps = s.idps :=
    congrArg (fun r => r.2.idps) (exec_withIdps hc s s.idps)
  have hother := (congrArg (Redb.exec c) ht).trans (exec_withIdps hc s t.idps)
  rw [hother]
  exact ⟨rfl, rfl, hself ▸ hidps⟩

theorem Postgres.alike_exec {s t : Postgres}
    (h : (AnyStore.postgres s).Alike like (.postgres t)) {c : StorageCall}
    (hc : c.sparesIdps = true) :
    (Postgres.exec c s).1 = (Postgres.exec c t).1 ∧
      (AnyStore.postgres (Postgres.exec c s).2).Alike like (.postgres (Postgres.exec c t).2) := by
  obtain ⟨ht, hidps⟩ := h
  have hself : (Postgres.exec c s).2.idps = s.idps :=
    congrArg (fun r => r.2.idps) (exec_withIdps hc s s.idps)
  have hother := (congrArg (Postgres.exec c) ht).trans (exec_withIdps hc s t.idps)
  rw [hother]
  exact ⟨rfl, rfl, hself ▸ hidps⟩

/-- The answer to a call that carries no provider is the same on both sides. -/
theorem answerAlike_of_eq {c : StorageCall} (hc : c.carriesIdp = false) {r r' : Except Error c.Res}
    (h : r = r') : AnswerAlike like c c r r' := by
  cases c <;> first | exact heq_of_eq h | cases hc

theorem Redb.alike_call {s t : Redb} (h : (AnyStore.redb s).Alike like (.redb t))
    {c c' : StorageCall} (hc : c.Alike like c') :
    AnswerAlike like c c' (Redb.exec c s).1 (Redb.exec c' t).1 ∧
      (AnyStore.redb (Redb.exec c s).2).Alike like (.redb (Redb.exec c' t).2) := by
  cases hc with
  | same c hc =>
    by_cases hspares : c.sparesIdps = true
    · obtain ⟨hanswer, hst⟩ := Redb.alike_exec h hspares
      exact ⟨answerAlike_of_eq hc hanswer, hst⟩
    · obtain ⟨ht, hidps⟩ := h
      cases c
      case deleteOrg o =>
        rw [ht]
        exact ⟨HEq.rfl, rfl, hidps.removeAll _⟩
      case deleteIdp o x =>
        have hsome := isSome_eq_of_rel (hidps (idpKey o x) rfl)
        refine ⟨heq_of_eq (congrArg Except.ok hsome), ?_, hidps.erase _⟩
        exact ht ▸ rfl
      -- the other calls spare the providers, or carry one
      all_goals first | exact absurd rfl hspares | cases hc
  | getIdp o x => exact ⟨.ok (h.2 _ rfl), h⟩
  | listIdps o => exact ⟨.ok (h.2.scan fun _ _ => rfl), h⟩
  | createIdp hij | updateIdp hij =>
    obtain ⟨ht, hidps⟩ := h
    refine ⟨HEq.rfl, ?_, ?_⟩
    · exact ht ▸ rfl
    · simp only [Redb.exec, ← hij.orgId, ← hij.idpId]
      exact hidps.insert _ hij

/-- An insertion of a provider, which fails in both stores or in none. -/
theorem Postgres.alike_insertIdp {s t : Postgres}
    (h : (AnyStore.postgres s).Alike like (.postgres t)) (hij : i.Alike like j) :
    (Postgres.exec (.createIdp i) s).1 = (Postgres.exec (.createIdp j) t).1 ∧
      (AnyStore.postgres (Postgres.exec (.createIdp i) s).2).Alike like
        (.postgres (Postgres.exec (.createIdp j) t).2) := by
  obtain ⟨ht, hidps⟩ := h
  have hinsert := hidps.insert (i.orgId, i.idpId) hij
  have horg : t.orgs = s.orgs := by rw [ht]
  simp only [Postgres.exec, insertChild, ← hij.orgId, ← hij.idpId, horg]
  generalize s.idps.insert (i.orgId, i.idpId) i = o at hinsert
  generalize t.idps.insert (i.orgId, i.idpId) j = o' at hinsert
  cases hinsert with
  | none => exact ⟨rfl, ht, hidps⟩
  | some hins =>
    dsimp only
    split
    · exact ⟨rfl, ht ▸ rfl, hins⟩
    · exact ⟨rfl, ht, hidps⟩

theorem Postgres.alike_call {s t : Postgres} (h : (AnyStore.postgres s).Alike like (.postgres t))
    {c c' : StorageCall} (hc : c.Alike like c') :
    AnswerAlike like c c' (Postgres.exec c s).1 (Postgres.exec c' t).1 ∧
      (AnyStore.postgres (Postgres.exec c s).2).Alike like (.postgres (Postgres.exec c' t).2) := by
  cases hc with
  | same c hc =>
    by_cases hspares : c.sparesIdps = true
    · obtain ⟨hanswer, hst⟩ := Postgres.alike_exec h hspares
      exact ⟨answerAlike_of_eq hc hanswer, hst⟩
    · obtain ⟨ht, hidps⟩ := h
      cases c
      case deleteOrg o =>
        have horg : t.orgs = s.orgs := by rw [ht]
        simp only [Postgres.exec, horg]
        refine ⟨HEq.rfl, ?_⟩
        split
        · rw [ht]
          exact ⟨rfl, hidps.deleteWhere _⟩
        · exact ⟨ht, hidps⟩
      case deleteIdp o x =>
        have hsome := isSome_eq_of_rel (hidps.select (o, x))
        refine ⟨heq_of_eq (congrArg Except.ok hsome), ?_, hidps.delete _⟩
        exact ht ▸ rfl
      all_goals first | exact absurd rfl hspares | cases hc
  | getIdp o x => exact ⟨.ok (h.2.select _), h⟩
  | listIdps o => exact ⟨.ok (h.2.orderBy _ _), h⟩
  | createIdp hij =>
    obtain ⟨hanswer, hst⟩ := Postgres.alike_insertIdp h hij
    exact ⟨heq_of_eq hanswer, hst⟩
  | updateIdp hij =>
    obtain ⟨ht, hidps⟩ := h
    refine ⟨HEq.rfl, ?_, ?_⟩
    · exact ht ▸ rfl
    · simp only [Postgres.exec, ← hij.orgId, ← hij.idpId]
      exact hidps.update _ hij

/-- **Related calls keep the stores alike.** -/
theorem secretPairing_sound :
    (secretPairing like).Sound AnyStore.exec AnyStore.exec (AnyStore.Alike like) := by
  intro c c' s t hst hc
  cases s with
  | redb s =>
    cases t with
    | postgres t => exact hst.elim
    | redb t => exact Redb.alike_call hst hc
  | postgres s =>
    cases t with
    | redb t => exact hst.elim
    | postgres t => exact Postgres.alike_call hst hc

end Backends

/-! ### What the gateways meet -/

section

variable (like : String → String → Prop)

/-- The answers are the same, also if other credentials are given that may stand for the first. -/
structure Internet.Alike (net net' : Internet) : Prop where
  get : ∀ url, net (.get url) = net' (.get url)
  getBearer : ∀ url bearer, net (.getBearer url bearer) = net' (.getBearer url bearer)
  postForm : ∀ url user p p' form, like p p' →
    net (.postForm url user p form) = net' (.postForm url user p' form)

/-- All is the same but for the identity providers, and these answer alike. -/
def Surroundings.Alike (env env' : Surroundings) : Prop :=
  env' = { env with net := env'.net } ∧ Internet.Alike like env.net env'.net

end

/-- The client secret that a request brings with it. -/
def ApiRequest.newSecret (req : ApiRequest) : Option String :=
  match (route req.path).map req.extract with
  | some (.ok (.createIdp _ _ _ clientSecret)) => some clientSecret
  | _ => none

section

variable (like : String → String → Prop)

/-- The requests are the same, but for the client secret of a provider that is to be created. -/
inductive ApiRequest.Alike : ApiRequest → ApiRequest → Prop
  | same {req : ApiRequest} (h : req.newSecret = none) : Alike req req
  | secret {req : ApiRequest} {o issuerUrl clientId p p' : String} {v v' : Json}
    {fault : Category} (hroute : route req.path = some (.idps o)) (hmethod : req.method = .post)
    (hv : readCreateIdp v = some (issuerUrl, clientId, p))
    (hv' : readCreateIdp v' = some (issuerUrl, clientId, p')) (hp : like p p') :
    Alike { req with body := .json v fault } { req with body := .json v' fault }

/-- Moves that differ in secrets only. -/
inductive Move.Alike : Move → Move → Prop
  | request {env env' : Surroundings} {req req' : ApiRequest} (henv : env.Alike like env')
    (hreq : req.Alike like req') : Alike (.request env req) (.request env' req')
  | step (i : ℕ) : Alike (.step i) (.step i)

end

/-! ### Programs -/

/-- The calls that carry no provider. -/
def plainSpec : Spec Storage := ⟨fun c => StorageCall.carriesIdp c = false, fun _ _ => True⟩

section Programs

variable {like : String → String → Prop} {α : Type}

/-- A program that has nothing to do with providers goes on in lockstep with itself. -/
theorem paired_of_plain {p : StoreProg α} {Q : α → Prop} (hp : p.Meets plainSpec Q) :
    p.Paired (secretPairing like) Eq Eq p := by
  apply hp.paired.weaken
  rintro c c' ⟨rfl, hc⟩
  refine ⟨.same c hc, fun r r' h => ⟨?_, fun _ _ => trivial⟩⟩
  cases c <;> first | exact h | cases hc

theorem reply_paired_of_plain {ρ : Type} {x : Reply Storage Error ρ α}
    (hx : Reply.Meets plainSpec x fun _ => True) :
    Reply.Paired (secretPairing like) Eq Eq x x :=
  (paired_of_plain (Reply.meets_run hx)).mono fun _ _ h => outcomes_eq_iff.mpr h

/-- An operation on providers. -/
def ManagerOp.carriesIdp : ManagerOp → Bool
  | .createIdp .. | .getIdp .. | .listIdps .. | .toggleIdp .. => true
  | _ => false

/-- **The other operations have nothing to do with providers.** -/
theorem ManagerOp.meets_plain {G : Type} (mgr : TenantManager G) (op : ManagerOp)
    (hop : op.carriesIdp = false) : (op.prog mgr).Meets plainSpec fun _ => True := by
  apply ManagerOp.meets_of_needs
  cases op
  case createIdp | getIdp | listIdps | toggleIdp => cases hop
  all_goals simp [Needs, Spec.Finds, plainSpec, StorageCall.carriesIdp]

/-- Secrets that may stand for each other are blank together. -/
def BlankAlike (like : String → String → Prop) : Prop :=
  ∀ p p', like p p' → ((Text.trim p).toList = [] ↔ (Text.trim p').toList = [])

theorem validateNonEmpty_of_like (hlike : BlankAlike like) {p p' : String} (hp : like p p')
    (field : String) : validateNonEmpty p field = validateNonEmpty p' field := by
  unfold validateNonEmpty
  simp only [List.isEmpty_iff, hlike p p' hp]

theorem paired_store {c c' : StorageCall} (hc : c.Alike like c') {V : c.Res → c'.Res → Prop}
    (h : ∀ r r', AnswerAlike like c c' r r' → Outcomes Eq V r r') :
    Prog.Paired (secretPairing like) Eq V (store c) (store c') :=
  Prog.Paired.perform (Φ := secretPairing like) hc h

theorem paired_getOrg (orgId : String) :
    (TenantManager.getOrg orgId).Paired (secretPairing like) Eq Eq (TenantManager.getOrg orgId) :=
  paired_of_plain (Q := fun _ => True) (by
    simp [TenantManager.getOrg, plainSpec, StorageCall.carriesIdp])

theorem paired_createIdp (hlike : BlankAlike like) {p p' : String} (hp : like p p')
    (draw : Vector UInt8 8) (now : UInt64) (orgId issuerUrl clientId : String) :
    (TenantManager.createIdp draw now orgId issuerUrl clientId p).Paired (secretPairing like) Eq
      (IdpConfig.Alike like) (TenantManager.createIdp draw now orgId issuerUrl clientId p') := by
  unfold TenantManager.createIdp
  refine (Prog.paired_ofExcept (outcomes_eq_iff.mpr rfl)).bind fun _ _ _ => ?_
  refine (Prog.paired_ofExcept (outcomes_eq_iff.mpr rfl)).bind fun _ _ _ => ?_
  rw [validateNonEmpty_of_like hlike hp]
  refine (Prog.paired_ofExcept (outcomes_eq_iff.mpr rfl)).bind fun _ _ _ => ?_
  refine (paired_getOrg orgId).bind fun _ _ _ => ?_
  have hij : IdpConfig.Alike like
      ⟨Wire.hexEncode draw.toList, orgId, issuerUrl, clientId, p, true, now⟩
      ⟨Wire.hexEncode draw.toList, orgId, issuerUrl, clientId, p', true, now⟩ := ⟨rfl, hp⟩
  refine Prog.Paired.bind (V := Eq) (paired_store (.createIdp hij) ?_) fun _ _ _ => .ok hij
  intro r r' h
  exact outcomes_eq_iff.mpr (eq_of_heq h)

theorem paired_getIdp (orgId idpId : String) :
    (TenantManager.getIdp orgId idpId).Paired (secretPairing like) Eq (IdpConfig.Alike like)
      (TenantManager.getIdp orgId idpId) := by
  refine Prog.Paired.bind (V := Option.Rel (IdpConfig.Alike like))
    (paired_store (.getIdp orgId idpId) fun _ _ h => h) ?_
  intro o o' h
  exact Prog.paired_okOrElse rfl h

theorem paired_listIdps (orgId : String) :
    (TenantManager.listIdps orgId).Paired (secretPairing like) Eq
      (List.Forall₂ (IdpConfig.Alike like)) (TenantManager.listIdps orgId) := by
  refine (paired_getOrg orgId).bind fun _ _ _ => ?_
  exact paired_store (.listIdps orgId) fun _ _ h => h

theorem paired_toggleIdp (orgId idpId : String) (enabled : Bool) :
    (TenantManager.toggleIdp orgId idpId enabled).Paired (secretPairing like) Eq
      (IdpConfig.Alike like) (TenantManager.toggleIdp orgId idpId enabled) := by
  refine (paired_getIdp orgId idpId).bind fun i j h => ?_
  have hij : IdpConfig.Alike like { i with enabled } { j with enabled } := by
    refine ⟨?_, h.2⟩
    have hshown := h.1
    simp only [IdpConfigResponse.ofConfig, IdpConfigResponse.mk.injEq] at hshown ⊢
    simp [hshown]
  refine Prog.Paired.bind (V := Eq) (paired_store (.updateIdp hij) ?_) fun _ _ _ => .ok hij
  intro r r' h
  exact outcomes_eq_iff.mpr (eq_of_heq h)

end Programs

/-! ### Handlers -/

section Handlers

variable {like : String → String → Prop} {G : Type} (gw : Gateway G)

theorem paired_reply {α : Type} {V : α → α → Prop} {p p' : StoreProg α}
    (hp : p.Paired (secretPairing like) Eq V p') (failure success : HttpStatus)
    {payload : α → Payload} (hV : ∀ a a', V a a' → payload a = payload a') :
    Reply.Paired (secretPairing like) Eq Eq (reply p failure success payload)
      (reply p' failure success payload) := by
  refine (Reply.paired_orElse hp).bind fun a a' h => ?_
  rw [hV a a' h]
  exact Reply.paired_pure rfl

/-- The handlers of the admin routes do not ask identity providers. -/
theorem answer_withNet (env : Surroundings) (net : Internet) (r : AdminRequest) :
    answer gw { env with net } r = answer gw env r := by
  cases r <;> rfl

/-- **A handler shows the same, whatever the secrets of the providers.** -/
theorem paired_answer (env : Surroundings) {r : AdminRequest}
    (hr : ∀ orgId issuerUrl clientId p, r ≠ .createIdp orgId issuerUrl clientId p) :
    Reply.Paired (secretPairing like) Eq Eq (answer gw env r) (answer gw env r) := by
  have hshown : ∀ i j : IdpConfig, i.Alike like j →
      Payload.json (IdpConfigResponse.ofConfig i).write =
        .json (IdpConfigResponse.ofConfig j).write := fun i j h => by rw [h.1]
  by_cases hplain : ∀ op ∈ r.ops env, op.carriesIdp = false
  · exact reply_paired_of_plain (meets_answer fun op hop => op.meets_plain gw.mgr (hplain op hop))
  · cases r
    case createIdp => exact absurd rfl (hr _ _ _ _)
    case getIdp o x => exact paired_reply (paired_getIdp o x) _ _ hshown
    case toggleIdp o x enabled => exact paired_reply (paired_toggleIdp o x enabled) _ _ hshown
    case listIdps o =>
      refine paired_reply (paired_listIdps o) _ _ fun l l' h => ?_
      exact congrArg (fun l => Payload.json (.array l)) (map_eq_of_forall₂ h fun i j h => by
        rw [h.1])
    all_goals exact absurd (by simp [AdminRequest.ops, ManagerOp.carriesIdp]) hplain

theorem paired_answer_createIdp (hlike : BlankAlike like) (env : Surroundings) {p p' : String}
    (hp : like p p') (orgId issuerUrl clientId : String) :
    Reply.Paired (secretPairing like) Eq Eq
      (answer gw env (.createIdp orgId issuerUrl clientId p))
      (answer gw env (.createIdp orgId issuerUrl clientId p')) :=
  paired_reply (paired_createIdp hlike hp _ _ orgId issuerUrl clientId) _ _ fun i j h => by
    rw [h.1]

/-- Providers that answer alike say the same of a bearer. -/
theorem introspectOidcToken_alike {net net' : Internet} (hnet : Internet.Alike like net net')
    {p p' : String} (hp : like p p') (issuerUrl clientId bearer : String) :
    introspectOidcToken net issuerUrl clientId p bearer =
      introspectOidcToken net' issuerUrl clientId p' bearer := by
  simp only [introspectOidcToken, introspectAt, userinfoAt, hnet.get, hnet.getBearer,
    hnet.postForm _ clientId p p' _ hp]

theorem paired_decideByIdp {net net' : Internet} (hnet : Internet.Alike like net net')
    (orgId bearer : String) :
    Reply.Paired (secretPairing like) Eq Eq (decideByIdp net orgId bearer)
      (decideByIdp net' orgId bearer) := by
  unfold decideByIdp
  refine (Reply.paired_orElse (paired_listIdps orgId)).bind fun l l' hl => ?_
  have hfind := rel_find? hl fun i j (h : i.Alike like j) => h.enabled
  refine (Reply.paired_okOrElse hfind).bind fun i j hij => ?_
  obtain ⟨hshown, hsecret⟩ := hij
  simp only [IdpConfigResponse.ofConfig, IdpConfigResponse.mk.injEq] at hshown
  obtain ⟨hid, -, hissuer, hclient, -⟩ := hshown
  rw [hid, hissuer, hclient, introspectOidcToken_alike hnet hsecret]
  refine (Reply.paired_ofExcept (outcomes_eq_iff.mpr rfl)).bind ?_
  rintro claims _ rfl
  refine (reply_paired_of_plain ?_).bind ?_
  · exact Reply.meets_orElse_of_map ((ManagerOp.listPolicyRules orgId).meets_plain seedManager rfl)
  · rintro rules _ rfl
    exact Reply.paired_pure rfl

theorem paired_decideEnrollment {net net' : Internet} (hnet : Internet.Alike like net net')
    (now : UInt64) (orgId appId : String) (headers : HeaderMap) (body : Option EnrollRequest)
    (policy : EnrollmentPolicy) :
    Reply.Paired (secretPairing like) Eq Eq
      (decideEnrollment net now orgId appId headers body policy)
      (decideEnrollment net' now orgId appId headers body policy) := by
  cases policy with
  | strict => exact Reply.paired_refuse _
  | «open» => exact Reply.paired_pure rfl
  | controlled =>
    unfold decideEnrollment
    refine (reply_paired_of_plain (by simp)).bind ?_
    rintro bearer _ rfl
    split
    · apply reply_paired_of_plain
      have htoken := (ManagerOp.validateAndConsumeToken now orgId appId bearer).meets_plain
        seedManager rfl
      simp only [decideByToken, Reply.meets_bind]
      refine Reply.meets_outcome (((Prog.meets_map _ _ _).mp htoken).mono ?_) ?_
      · simp
      · simp
    · exact paired_decideByIdp hnet orgId bearer

/-- **An enrollment ends the same, if the providers answer alike.** -/
theorem paired_enroll {net net' : Internet} (hnet : Internet.Alike like net net')
    (d : EnrollDraw) (orgId appId : String) (headers : HeaderMap) (body : Option EnrollRequest) :
    Reply.Paired (secretPairing like) Eq Eq (enroll gw.mgr net d orgId appId headers body)
      (enroll gw.mgr net' d orgId appId headers body) := by
  have hplain : ∀ {α β : Type} {p : StoreProg α} {f : α → β} {g : Error → ApiError},
      (p.map f).Meets plainSpec (fun _ => True) →
        Reply.Paired (secretPairing like) Eq Eq (Reply.orElse p g) (Reply.orElse p g) :=
    fun hp => reply_paired_of_plain (Reply.meets_orElse_of_map hp)
  unfold enroll
  refine (hplain ((ManagerOp.getOrg orgId).meets_plain gw.mgr rfl)).bind ?_
  rintro org _ rfl
  refine (hplain ((ManagerOp.getFormation orgId appId).meets_plain gw.mgr rfl)).bind ?_
  rintro formation _ rfl
  refine (reply_paired_of_plain (by simp)).bind fun _ _ _ => ?_
  refine (hplain ((ManagerOp.countRecentEnrollments orgId (oneHourBefore d.rateNow)).meets_plain
    gw.mgr rfl)).bind ?_
  rintro recent _ rfl
  refine (reply_paired_of_plain (by simp)).bind fun _ _ _ => ?_
  refine (paired_decideEnrollment hnet d.tokenNow orgId appId headers body
    formation.enrollmentPolicy).bind ?_
  rintro v _ rfl
  have haudit := (ManagerOp.appendAudit (buildAudit d orgId appId v)).meets_plain gw.mgr rfl
  refine (reply_paired_of_plain (Reply.meets_outcome
    (((Prog.meets_map _ _ _).mp haudit).mono fun _ _ => trivial) fun _ => trivial)).bind
    fun _ _ _ => ?_
  split
  · exact Reply.paired_refuse _
  · have hload := (ManagerOp.loadGenesis d.genesis orgId appId).meets_plain gw.mgr rfl
    refine (reply_paired_of_plain (Reply.meets_of_run (meets_tryIssueCertificate gw.mgr
      ((Prog.meets_map _ _ _).mp hload) v.decision body))).bind ?_
    rintro c _ rfl
    exact Reply.paired_pure rfl

/-! ### Requests -/

theorem paired_respond {x x' : HttpReply ApiResponse}
    (hx : Reply.Paired (secretPairing like) Eq Eq x x') :
    (respond x).Paired (secretPairing like) Eq Eq (respond x') := by
  refine Prog.Paired.map hx fun r r' h => ?_
  rw [outcomes_eq_iff.mp h]

/-- A request without a secret, on a route that needs the admin token. -/
theorem paired_serveAdmin {env env' : Surroundings} (henv : env.Alike like env')
    {req : ApiRequest} {e : Endpoint} (hroute : route req.path = some e)
    (hnew : req.newSecret = none) :
    (serveAdmin gw env req e).Paired (secretPairing like) Eq Eq (serveAdmin gw env' req e) := by
  unfold serveAdmin
  split
  · exact .ok rfl
  · split
    · exact .ok rfl
    · next r hr =>
      apply paired_respond
      rw [henv.1, answer_withNet]
      apply paired_answer
      rintro orgId issuerUrl clientId p rfl
      rw [ApiRequest.newSecret, hroute, Option.map_some, hr] at hnew
      cases hnew

/-- A request that brings a secret. -/
theorem paired_serveAdmin_secret (hlike : BlankAlike like) {env env' : Surroundings}
    (henv : env.Alike like env') {req : ApiRequest} {o issuerUrl clientId p p' : String}
    {v v' : Json} (fault : Category) (hmethod : req.method = .post)
    (hv : readCreateIdp v = some (issuerUrl, clientId, p))
    (hv' : readCreateIdp v' = some (issuerUrl, clientId, p')) (hp : like p p') :
    (serveAdmin gw env { req with body := .json v fault } (.idps o)).Paired (secretPairing like)
      Eq Eq (serveAdmin gw env' { req with body := .json v' fault } (.idps o)) := by
  unfold serveAdmin
  dsimp only
  split
  · exact .ok rfl
  · simp only [ApiRequest.extract, hmethod, Body.extract, hv, hv']
    cases pathParam o with
    | error status => exact .ok rfl
    | ok orgId =>
      apply paired_respond
      rw [henv.1, answer_withNet]
      exact paired_answer_createIdp gw hlike env hp orgId issuerUrl clientId

theorem paired_answerEnroll {env env' : Surroundings} (henv : env.Alike like env')
    (orgId appId : String) (req : ApiRequest) :
    (answerEnroll gw env orgId appId req).Paired (secretPairing like) Eq Eq
      (answerEnroll gw env' orgId appId req) := by
  rw [henv.1]
  refine Prog.Paired.map (paired_enroll gw henv.2 env.enroll orgId appId req.headers
    (optionalBody req.body)) fun r r' h => ?_
  rw [outcomes_eq_iff.mp h]

theorem paired_dispatch (hlike : BlankAlike like) {env env' : Surroundings}
    (henv : env.Alike like env') {req req' : ApiRequest} (hreq : req.Alike like req') :
    (dispatch gw env req).Paired (secretPairing like) Eq Eq (dispatch gw env' req') := by
  cases hreq with
  | secret hroute hmethod hv hv' hp =>
    simp only [dispatch, hroute]
    exact paired_serveAdmin_secret gw hlike henv _ hmethod hv hv' hp
  | same hnew =>
    unfold dispatch
    split
    · exact .ok rfl
    · unfold onlyGet
      split <;> exact .ok rfl
    · rw [henv.1]
      unfold onlyGet
      split <;> exact .ok rfl
    · split
      · split
        · exact paired_answerEnroll gw henv _ _ _
        · exact .ok rfl
      · exact .ok rfl
    · next e _ _ _ hroute => exact paired_serveAdmin gw henv hroute hnew

/-- **Requests that differ in secrets go on in lockstep.** -/
theorem paired_serve (hlike : BlankAlike like) {env env' : Surroundings}
    (henv : env.Alike like env') {req req' : ApiRequest} (hreq : req.Alike like req') :
    (serve gw env req).Paired (secretPairing like) Eq Eq (serve gw env' req') := by
  have hmethod : req.method = req'.method := by
    cases hreq <;> rfl
  refine Prog.Paired.map (paired_dispatch gw hlike henv hreq) ?_
  rintro r _ rfl
  rw [hmethod]

/-- The schedules go on in lockstep, and every request is seen. -/
theorem schedules_alike (hlike : BlankAlike like) {l l' : List Move}
    (hl : List.Forall₂ (Move.Alike like) l l') (n : ℕ) :
    Pool.Schedules (secretPairing like) .nothing Eq Eq (fun _ => true) n (l.map (Move.act gw))
      (l'.map (Move.act gw)) := by
  induction hl generalizing n with
  | nil => trivial
  | cons h _ ih =>
    cases h with
    | request henv hreq => exact ⟨paired_serve gw hlike henv hreq, ih _⟩
    | step i => exact ⟨rfl, ih _⟩

/-- **Responses do not depend on client secrets.**  Two gateways over stores that differ in the
secrets of identity providers, with requests that arrive and move in the same order and differ
in the secrets they bring, give the same responses, and their stores go on differing in secrets
only. -/
theorem secrets_unseen (hlike : BlankAlike like) {s t : AnyStore} (hst : s.Alike like t)
    {l l' : List Move} (hl : List.Forall₂ (Move.Alike like) l l') :
    (served gw AnyStore.exec s l).store.Alike like (served gw AnyStore.exec t l').store ∧
      ∀ i, responseTo gw AnyStore.exec s l i = responseTo gw AnyStore.exec t l' i := by
  have hrun := Pool.acts_paired secretPairing_sound (Spec.unseen_nothing _ _)
    (Pool.lockstep_nil hst) (schedules_alike gw hlike hl 0)
  exact ⟨hrun.store, fun i => eq_of_rel_outcomes (hrun.returned rfl)⟩

end Handlers

/-! ### Two secrets -/

/-- A provider that takes one secret for one client, and calls every bearer active. -/
def takesSecret (secret : String) : Internet
  | .get _ => .ok ⟨200, "200 OK", .ok (.object [("introspection_endpoint", .string "i")])⟩
  | .postForm _ _ p _ =>
    if p = secret then .ok ⟨200, "200 OK", .ok (.object [("active", .bool true)])⟩
    else .ok ⟨401, "401 Unauthorized", .ok .null⟩
  | .getBearer _ _ => .error "connection refused"

/-- An organization with a provider, a formation, and a device that enrolls. -/
def secretMoves (secret : String) : List Move :=
  let env := { quietSurroundings with net := takesSecret secret }
  let post path fields := .request env ⟨.post, path, [], adminHeaders, .json (.object fields) .data⟩
  [post ["orgs"] [("org_id", .string "a"), ("display_name", .string "A")], .step 0, .step 0,
    post ["orgs", "a", "idps"] [("issuer_url", .string "https://idp"),
      ("client_id", .string "c"), ("client_secret", .string secret)], .step 1, .step 1,
    post ["orgs", "a", "formations"] [("app_id", .string "f")], .step 2, .step 2, .step 2, .step 2,
    .step 2,
    .request env ⟨.post, ["orgs", "a", "formations", "f", "enroll"], [],
      [("authorization", Text.utf8 "Bearer b")], .notJson⟩,
    .step 3, .step 3, .step 3, .step 3, .step 3, .step 3, .step 3, .step 3]

/-- Which of two secrets it is shows nowhere. -/
theorem secrets_unseen_two :
    (responseTo seedGateway AnyStore.exec (.redb .empty) (secretMoves "alpha") 3).isSome = true ∧
    ∀ i, responseTo seedGateway AnyStore.exec (.redb .empty) (secretMoves "alpha") i =
      responseTo seedGateway AnyStore.exec (.redb .empty) (secretMoves "beta") i := by
  let like : String → String → Prop := fun p p' => p = "alpha" ∧ p' = "beta"
  have hlike : BlankAlike like := by
    rintro _ _ ⟨rfl, rfl⟩
    decide +kernel
  have hnet : Internet.Alike like (takesSecret "alpha") (takesSecret "beta") := by
    refine ⟨fun _ => rfl, fun _ _ => rfl, ?_⟩
    rintro _ _ _ _ _ ⟨rfl, rfl⟩
    rfl
  have henv : Surroundings.Alike like { quietSurroundings with net := takesSecret "alpha" }
      { quietSurroundings with net := takesSecret "beta" } := ⟨rfl, hnet⟩
  have hst : (AnyStore.redb .empty).Alike like (.redb .empty) := ⟨rfl, Table.alikeOn_empty _ _⟩
  have hmoves : List.Forall₂ (Move.Alike like) (secretMoves "alpha") (secretMoves "beta") := by
    have hsame : ∀ req : ApiRequest, req.newSecret = none → Move.Alike like
        (.request { quietSurroundings with net := takesSecret "alpha" } req)
        (.request { quietSurroundings with net := takesSecret "beta" } req) :=
      fun req h => .request henv (.same h)
    simp only [secretMoves, List.forall₂_cons, List.forall₂_nil_left_iff, Move.Alike.step, true_and,
      and_true]
    refine ⟨hsame _ (by decide +kernel), .request henv ?_, hsame _ (by decide +kernel),
      hsame _ (by decide +kernel)⟩
    exact @ApiRequest.Alike.secret like ⟨.post, ["orgs", "a", "idps"], [], adminHeaders, .notJson⟩
      "a" "https://idp" "c" _ _ _ _ .data rfl rfl (by decide +kernel) (by decide +kernel) ⟨rfl, rfl⟩
  exact ⟨by decide +kernel, (secrets_unseen seedGateway hlike hst hmoves).2⟩

end PeatGateway
