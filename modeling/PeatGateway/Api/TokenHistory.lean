import PeatGateway.Api.Audited
import PeatGateway.Tenant.Refusal

/-!
# What a token has been issued for

A token names its formation.  Deleting the formation leaves the token behind, and it is good
for whatever formation gets the name next; deleting the organization does not.

## Main definitions

* `Event`, `runAll` — the operations and requests of a serial run.
* `Throughout` — a property holds in every state of a run.
* `Deleted` — in the course of a run a formation is deleted.
* `Issued` — a token was issued in the course of a run, and what has held since.

## Main results

* `Event.step` — what an event does to organizations, formations and tokens.
* `issued_of_stored` — every stored token was issued.
* `token_formation` — **a token that is accepted was issued for the formation, and the
  formation has existed ever since, unless it was deleted**.
-/

namespace PeatGateway

open Effect Text Wire

/-! ### Serial runs -/

/-- An operation or an enrollment request. -/
inductive Event (G : Type)
  | operation (mgr : TenantManager G) (op : ManagerOp)
  | request (mgr : TenantManager G) (r : Enrollment)

section Runs

variable {G : Type}

/-- The store an event leaves. -/
def Event.run (s : Redb) : Event G → Redb
  | .operation mgr op => ((op.prog mgr).run Redb.exec s).2
  | .request mgr r =>
    ((enroll mgr r.net r.draw r.orgId r.appId r.headers r.body).run.run Redb.exec s).2

/-- The store the events leave, one after the other. -/
def runAll (es : List (Event G)) (s : Redb) : Redb := es.foldl (fun s e => e.run s) s

/-- In every state of the run, the first and the last included. -/
def Throughout (Q : Redb → Prop) : List (Event G) → Redb → Prop
  | [], s => Q s
  | e :: es, s => Q s ∧ Throughout Q es (e.run s)

/-- In the course of the run `delete_formation` returns `Ok` for the formation. -/
def Deleted (orgId appId : String) : List (Event G) → Redb → Prop
  | [], _ => False
  | e :: es, s =>
    (∃ mgr, e = .operation mgr (.deleteFormation orgId appId) ∧
      (((ManagerOp.deleteFormation orgId appId).prog mgr).run Redb.exec s).1 = .ok .unit) ∨
    Deleted orgId appId es (e.run s)

theorem runAll_append (es es' : List (Event G)) (s : Redb) :
    runAll (es ++ es') s = runAll es' (runAll es s) := List.foldl_append

theorem runAll_append_singleton (es : List (Event G)) (e : Event G) (s : Redb) :
    runAll (es ++ [e]) s = e.run (runAll es s) := runAll_append es [e] s

theorem throughout_append_singleton {Q : Redb → Prop} {es : List (Event G)} {e : Event G}
    {s : Redb} :
    Throughout Q (es ++ [e]) s ↔ Throughout Q es s ∧ Q (e.run (runAll es s)) := by
  induction es generalizing s with
  | nil => exact Iff.rfl
  | cons e' es ih => simp only [List.cons_append, Throughout, ih, and_assoc]; rfl

theorem Throughout.last {Q : Redb → Prop} {es : List (Event G)} {s : Redb}
    (h : Throughout Q es s) : Q (runAll es s) := by
  induction es generalizing s with
  | nil => exact h
  | cons e es ih => exact ih h.2

theorem deleted_append_singleton {orgId appId : String} {es : List (Event G)} {e : Event G}
    {s : Redb} :
    Deleted orgId appId (es ++ [e]) s ↔ Deleted orgId appId es s ∨
      ∃ mgr, e = .operation mgr (.deleteFormation orgId appId) ∧
        (((ManagerOp.deleteFormation orgId appId).prog mgr).run Redb.exec (runAll es s)).1 =
          .ok .unit := by
  induction es generalizing s with
  | nil => simp [Deleted, runAll]
  | cons e' es ih => simp only [List.cons_append, Deleted, ih, or_assoc]; rfl

/-- Along a serial run records lie under their own keys. -/
theorem Event.keyed (e : Event G) {s : Redb} (hs : s.Keyed) : (e.run s).Keyed := by
  cases e with
  | operation mgr op =>
    exact (Prog.run_meets (callSpec_sound fun _ => True) (op.meets mgr fun _ _ _ _ => trivial) hs).1
  | request mgr r =>
    have hscope : InScope (fun _ => True) r.orgId := fun _ _ => trivial
    have hmeets := meets_enroll mgr hscope r.net r.draw r.appId r.headers r.body
    exact (Prog.run_meets (callSpec_sound fun _ => True) (Reply.meets_run hmeets) hs).1

theorem keyed_runAll (es : List (Event G)) {s : Redb} (hs : s.Keyed) : (runAll es s).Keyed := by
  induction es generalizing s with
  | nil => exact hs
  | cons e es ih => exact ih (e.keyed hs)

end Runs

/-! ### What an event does to organizations, formations and tokens -/

/-- From `s₀` to `s` no organization and no formation is lost, and no token is added or changes
its formation. -/
structure Redb.Traces (s₀ s : Redb) : Prop where
  orgs : ∀ k, s₀.uses k .orgs = true → s.uses k .orgs = true
  formations : ∀ k, s₀.uses k .formations = true → s.uses k .formations = true
  tokens : ∀ k t, s.tokens[k]? = some t → k = tokenKey t.orgId t.tokenId ∧
    ∃ t₀, s₀.tokens[k]? = some t₀ ∧ t₀.appId = t.appId

/-- The token is one of the store, for the same formation. -/
def Redb.Knows (s₀ : Redb) (t : EnrollmentToken) : Prop :=
  ∃ t₀, s₀.tokens[tokenKey t.orgId t.tokenId]? = some t₀ ∧ t₀.appId = t.appId

/-- The calls that delete no organization and no formation, add no token, and write back only
tokens of the store. -/
def tracePre (s₀ : Redb) : StorageCall → Prop
  | .deleteOrg _ | .deleteFormation _ _ | .createToken _ => False
  | .updateToken t => s₀.Knows t
  | _ => True

/-- A token that is read is one of the store. -/
def tracePost (s₀ : Redb) : (c : StorageCall) → c.Res → Prop
  | .getToken _ _, r => ∀ t, r = some t → s₀.Knows t
  | _, _ => True

/-- The specification of programs that lose no organization and no formation. -/
def traceSpec (s₀ : Redb) : Spec Storage := ⟨tracePre s₀, tracePost s₀⟩

theorem Redb.Keyed.traces {s : Redb} (hs : s.Keyed) : s.Traces s where
  orgs _ h := h
  formations _ h := h
  tokens k t ht := ⟨(hs.tokens k t ht).2, t, ht, rfl⟩

section Sound

variable {s₀ s : Redb}

theorem Redb.Traces.exec (h : s₀.Traces s) {c : StorageCall} (hc : tracePre s₀ c) :
    s₀.Traces (Redb.exec c s).2 := by
  have hinsert : ∀ {V : Type} (t : Table String V) (k k' : String) (v : V),
      t[k']?.isSome = true → (t.insert k v)[k']?.isSome = true :=
    fun t k k' v hu => isSome_insert.mpr (Or.inr hu)
  cases c with
  | deleteOrg | deleteFormation | createToken => exact hc.elim
  | createOrg | updateOrg =>
    exact { h with orgs := fun k hk => hinsert _ _ _ _ (h.orgs k hk) }
  | createFormation =>
    exact { h with formations := fun k hk => hinsert _ _ _ _ (h.formations k hk) }
  | updateToken t =>
    -- The record that is put back is known by the precondition, all others by the hypothesis.
    refine { h with tokens := ?_ }
    intro k t' ht'
    change (s.tokens.insert (tokenKey t.orgId t.tokenId) t)[k]? = some t' at ht'
    rw [Table.get_insert] at ht'
    split at ht'
    · next heq =>
      obtain rfl := Option.some.inj ht'
      exact ⟨heq.symm, heq ▸ hc⟩
    · exact h.tokens k t' ht'
  | deleteToken o x =>
    refine { h with tokens := fun k t' ht' => h.tokens k t' ?_ }
    change (s.tokens.erase (tokenKey o x))[k]? = some t' at ht'
    rw [Table.get_erase] at ht'
    split at ht'
    · cases ht'
    · exact ht'
  | _ => exact { h with }

theorem traceSpec_sound : (traceSpec s₀).Sound Redb.exec (Redb.Traces s₀) := by
  intro c s hs hc
  refine ⟨hs.exec hc, ?_⟩
  intro x hx
  cases c
  case getToken o id =>
    rintro t rfl
    have hget : s.tokens[tokenKey o id]? = some t := Except.ok.inj hx
    obtain ⟨hkey, hknows⟩ := hs.tokens _ _ hget
    rw [hkey] at hknows
    exact hknows
  all_goals trivial

end Sound

/-- **Most operations lose no organization and no formation, and add no token.** -/
theorem ManagerOp.meets_trace {G : Type} (mgr : TenantManager G) (s₀ : Redb) {op : ManagerOp}
    (horg : ∀ o, op ≠ .deleteOrg o) (hform : ∀ o a, op ≠ .deleteFormation o a)
    (htoken : ∀ draw now o a label maxUses expiresAt,
      op ≠ .createToken draw now o a label maxUses expiresAt) :
    (op.prog mgr).Meets (traceSpec s₀) fun _ => True := by
  cases op
  case deleteOrg => exact absurd rfl (horg _)
  case deleteFormation => exact absurd rfl (hform _ _)
  case createToken => exact absurd rfl (htoken _ _ _ _ _ _ _)
  -- The two that write a token back write the one they have read.
  case validateAndConsumeToken | revokeToken =>
    exact ManagerOp.meets_of_needs mgr ⟨trivial, fun t ht => ht t rfl⟩
  all_goals
    apply ManagerOp.meets_of_needs
    simp [Needs, Spec.Finds, traceSpec, tracePre, tracePost]

/-- What an event does. -/
inductive Event.Does {G : Type} (s : Redb) : Event G → Redb → Prop
  | traced {e : Event G} {s' : Redb} (h : s.Traces s') : Does s e s'
  | issued {mgr : TenantManager G} {draw : Vector UInt8 16} {now : UInt64} {o a label : String}
      {maxUses : Option UInt32} {expiresAt : Option UInt64} {t : EnrollmentToken}
      (hok : (((ManagerOp.createToken draw now o a label maxUses expiresAt).prog mgr).run
        Redb.exec s).1 = .ok (.token t))
      (horg : s.uses o .orgs = true) (hform : s.uses (formationKey o a) .formations = true)
      (htorg : t.orgId = o) (htapp : t.appId = a)
      (htid : t.tokenId = "peat_" ++ hexEncode draw.toList) :
      Does s (.operation mgr (.createToken draw now o a label maxUses expiresAt))
        { s with tokens := s.tokens.insert (tokenKey t.orgId t.tokenId) t }
  | orgDeleted (mgr : TenantManager G) (o : String) :
      Does s (.operation mgr (.deleteOrg o)) (s.deleteOrg o)
  | formationDeleted {mgr : TenantManager G} {o a : String}
      (hok : (((ManagerOp.deleteFormation o a).prog mgr).run Redb.exec s).1 = .ok .unit) :
      Does s (.operation mgr (.deleteFormation o a))
        { s with
          formations := s.formations.erase (formationKey o a)
          genesis := s.genesis.erase (formationKey o a) }

section Cases

variable {G : Type} (mgr : TenantManager G) (s : Redb)

/-- A formation is deleted, with its genesis, or the operation is refused. -/
theorem deleteFormation_cases (o a : String) :
    ((((ManagerOp.deleteFormation o a).prog mgr).run Redb.exec s).1 = .ok .unit ∧
      (((ManagerOp.deleteFormation o a).prog mgr).run Redb.exec s).2 =
        { s with
          formations := s.formations.erase (formationKey o a)
          genesis := s.genesis.erase (formationKey o a) }) ∨
    (((ManagerOp.deleteFormation o a).prog mgr).run Redb.exec s).2 = s := by
  have hwp : ((ManagerOp.deleteFormation o a).prog mgr).Wp Redb.exec s
      (fun out s' => out = .unit ∧ s' = { s with
        formations := s.formations.erase (formationKey o a)
        genesis := s.genesis.erase (formationKey o a) }) fun _ => True := by
    simp [ManagerOp.prog, TenantManager.deleteFormation, Redb.exec]
  cases hr : (((ManagerOp.deleteFormation o a).prog mgr).run Redb.exec s).1 with
  | error e =>
    have hop : ∀ o', ManagerOp.deleteFormation o a ≠ .deleteOrg o' := by simp
    exact Or.inr ((wp_refusal mgr hop s).of_error hr)
  | ok out =>
    obtain ⟨rfl, hstore⟩ := hwp.of_ok hr
    exact Or.inl ⟨rfl, hstore⟩

/-- A token is issued for a formation that is there, or the operation is refused. -/
theorem createToken_cases (draw : Vector UInt8 16) (now : UInt64) (o a label : String)
    (maxUses : Option UInt32) (expiresAt : Option UInt64) :
    (∃ t, (((ManagerOp.createToken draw now o a label maxUses expiresAt).prog mgr).run
        Redb.exec s).1 = .ok (.token t) ∧
      (((ManagerOp.createToken draw now o a label maxUses expiresAt).prog mgr).run
        Redb.exec s).2 =
          { s with tokens := s.tokens.insert (tokenKey t.orgId t.tokenId) t } ∧
      s.uses o .orgs = true ∧ s.uses (formationKey o a) .formations = true ∧ t.orgId = o ∧
      t.appId = a ∧ t.tokenId = "peat_" ++ hexEncode draw.toList) ∨
    (((ManagerOp.createToken draw now o a label maxUses expiresAt).prog mgr).run
      Redb.exec s).2 = s := by
  have hwp : ((ManagerOp.createToken draw now o a label maxUses expiresAt).prog mgr).Wp Redb.exec s
      (fun out s' => ∃ t, out = .token t ∧
        s' = { s with tokens := s.tokens.insert (tokenKey t.orgId t.tokenId) t } ∧
        s.uses o .orgs = true ∧ s.uses (formationKey o a) .formations = true ∧ t.orgId = o ∧
        t.appId = a ∧ t.tokenId = "peat_" ++ hexEncode draw.toList) fun s' => s' = s := by
    simp only [ManagerOp.prog, TenantManager.createToken, TenantManager.getOrg,
      TenantManager.getFormation, Prog.wp_map, Prog.wp_bind, Prog.wp_ofExcept, wp_store, Redb.exec,
      Prog.post_ok, Prog.wp_okOrElse, Prog.wp_pure, implies_true, and_true]
    -- Both reads have found something; nothing moves in between.
    intro _ _ org horg formation hform
    exact ⟨_, rfl, rfl, Option.isSome_of_eq_some horg, Option.isSome_of_eq_some hform, rfl, rfl,
      rfl⟩
  cases hr : (((ManagerOp.createToken draw now o a label maxUses expiresAt).prog mgr).run
      Redb.exec s).1 with
  | error e => exact Or.inr (hwp.of_error hr)
  | ok out =>
    obtain ⟨t, rfl, hrest⟩ := hwp.of_ok hr
    exact Or.inl ⟨t, rfl, hrest⟩

end Cases

/-- **What an event does to organizations, formations and tokens.** -/
theorem Event.does {G : Type} (e : Event G) {s : Redb} (hs : s.Keyed) : e.Does s (e.run s) := by
  cases e with
  | request mgr r =>
    refine .traced ?_
    have hop : ∀ op : ManagerOp, op.InEnroll r.orgId r.appId →
        (op.prog mgr).Meets (traceSpec s) fun _ => True := by
      intro op hop
      apply op.meets_trace mgr s
      all_goals
        intros
        rintro rfl
        exact hop
    have hmeets := meets_enroll_of mgr (P := True) hop
      ((Prog.meets_map _ _ _).mp (hop (.getOrg r.orgId) rfl)) r.net r.draw (fun _ _ => trivial)
      r.headers r.body
    exact (Prog.run_meets traceSpec_sound (Reply.meets_run hmeets) hs.traces).1
  | operation mgr op =>
    -- The three operations that do more than `traceSpec` allows have a case each.
    by_cases horg : ∃ o, op = .deleteOrg o
    · obtain ⟨o, rfl⟩ := horg
      have hrun : Event.run s (.operation mgr (.deleteOrg o)) = s.deleteOrg o := by
        rw [Event.run, run_deleteOrg]
      rw [hrun]
      exact .orgDeleted mgr o
    by_cases hform : ∃ o a, op = .deleteFormation o a
    · obtain ⟨o, a, rfl⟩ := hform
      rcases deleteFormation_cases mgr s o a with ⟨hok, hrun⟩ | hrun
      · rw [Event.run, hrun]
        exact .formationDeleted hok
      · rw [Event.run, hrun]
        exact .traced hs.traces
    by_cases htoken : ∃ draw now o a label maxUses expiresAt,
        op = .createToken draw now o a label maxUses expiresAt
    · obtain ⟨draw, now, o, a, label, maxUses, expiresAt, rfl⟩ := htoken
      rcases createToken_cases mgr s draw now o a label maxUses expiresAt with
        ⟨t, hok, hrun, horg, hform, htorg, htapp, htid⟩ | hrun
      · rw [Event.run, hrun]
        exact .issued hok horg hform htorg htapp htid
      · rw [Event.run, hrun]
        exact .traced hs.traces
    · refine .traced ?_
      have hmeets := ManagerOp.meets_trace mgr s (fun o ho => horg ⟨o, ho⟩)
        (fun o a ho => hform ⟨o, a, ho⟩) fun draw now o a label maxUses expiresAt ho =>
          htoken ⟨draw, now, o, a, label, maxUses, expiresAt, ho⟩
      exact (Prog.run_meets traceSpec_sound hmeets hs.traces).1

/-! ### History -/

/-- The event is a `create_token` for the formation that returns `Ok` with the token. -/
def Event.Issues {G : Type} (c : Event G) (s : Redb) (o a tokenId : String) : Prop :=
  ∃ mgr draw now label maxUses expiresAt t,
    c = .operation mgr (.createToken draw now o a label maxUses expiresAt) ∧
    (((ManagerOp.createToken draw now o a label maxUses expiresAt).prog mgr).run Redb.exec s).1 =
      .ok (.token t) ∧ t.tokenId = tokenId

/-- All along the run the organization is there, and the formation too, unless it is deleted. -/
def Stays {G : Type} (o a : String) (es : List (Event G)) (s : Redb) : Prop :=
  Throughout (fun s => s.uses o .orgs = true) es s ∧
  (¬ Deleted o a es s → Throughout (fun s => s.uses (formationKey o a) .formations = true) es s)

/-- In the course of the events, run from the empty store, the token was issued for the
formation; and what has held since. -/
def Issued {G : Type} (es : List (Event G)) (o a tokenId : String) : Prop :=
  ∃ es₁ c es₂, es = es₁ ++ c :: es₂ ∧ c.Issues (runAll es₁ .empty) o a tokenId ∧
    Stays o a es₂ (runAll (es₁ ++ [c]) .empty)

theorem isSome_erase_of_ne {V : Type} {t : Table String V} {k k' : String} (hne : k ≠ k')
    (h : t[k']?.isSome = true) : (t.erase k)[k']?.isSome = true := by
  rw [Table.get_erase, if_neg hne]
  exact h

section History

variable {G : Type} {es : List (Event G)} {e : Event G} {o a x : String}

/-- A token has just been issued. -/
theorem Issued.of_issues {s s' : Redb} (hs : runAll es .empty = s) (hs' : e.run s = s')
    (h : e.Issues s o a x) (horg : s'.uses o .orgs = true)
    (hform : s'.uses (formationKey o a) .formations = true) : Issued (es ++ [e]) o a x := by
  have hrun : runAll (es ++ [e]) .empty = s' := by
    rw [runAll_append_singleton, hs, hs']
  refine ⟨es, e, [], rfl, ?_, ?_, ?_⟩
  · rw [hs]
    exact h
  · rw [hrun]
    exact horg
  · intro _
    rw [hrun]
    exact hform

/-- One event more. -/
theorem Issued.extend (h : Issued es o a x) {s s' : Redb} (hs : runAll es .empty = s)
    (hs' : e.run s = s') (horg : s.uses o .orgs = true → s'.uses o .orgs = true)
    (hform : s.uses (formationKey o a) .formations = true →
      (¬ ∃ mgr, e = .operation mgr (.deleteFormation o a) ∧
        (((ManagerOp.deleteFormation o a).prog mgr).run Redb.exec s).1 = .ok .unit) →
      s'.uses (formationKey o a) .formations = true) :
    Issued (es ++ [e]) o a x := by
  obtain ⟨es₁, c, es₂, rfl, hissues, horgs, hforms⟩ := h
  have hrun : runAll es₂ (runAll (es₁ ++ [c]) .empty) = s := by
    rw [← hs, ← runAll_append, List.append_assoc, List.singleton_append]
  refine ⟨es₁, c, es₂ ++ [e], by simp, hissues, ?_, ?_⟩
  · have hlast := horgs.last
    rw [hrun] at hlast
    rw [throughout_append_singleton, hrun, hs']
    exact ⟨horgs, horg hlast⟩
  · intro hdel
    rw [deleted_append_singleton, not_or, hrun] at hdel
    have hthrough := hforms hdel.1
    have hlast := hthrough.last
    rw [hrun] at hlast
    rw [throughout_append_singleton, hrun, hs']
    exact ⟨hthrough, hform hlast hdel.2⟩

/-- A formation that is there has a name, and lies under the key of no other. -/
theorem Redb.Keyed.of_formationKey {s : Redb} (hs : s.Keyed) (ho : IsIdentifier o)
    (hform : s.uses (formationKey o a) .formations = true) {o' y : String}
    (h : formationKey o a = nulKey o' y) : o' = o ∧ y = a := by
  obtain ⟨f, hf⟩ := Option.isSome_iff_exists.mp hform
  obtain ⟨happ, orgId, hid, hkey⟩ := hs.formations _ _ hf
  obtain ⟨rfl, rfl⟩ := nulKey_inj ho hid hkey
  obtain ⟨hoo, hay⟩ := glue_inj_of_free ho.nulFree happ.nulFree h
  exact ⟨hoo.symm, hay.symm⟩

/-- **Every stored token was issued.** -/
theorem issued_of_stored {k : String} {t : EnrollmentToken}
    (ht : (runAll es .empty).tokens[k]? = some t) : Issued es t.orgId t.appId t.tokenId := by
  induction es using List.reverseRecOn generalizing k t with
  | nil => simp [runAll, Redb.empty] at ht
  | append_singleton es e ih =>
    rw [runAll_append_singleton] at ht
    have hs : (runAll es .empty).Keyed := keyed_runAll es Redb.keyed_empty
    obtain ⟨hid, hkey⟩ := (e.keyed hs).tokens k t ht
    have hdoes := e.does hs
    generalize hbefore : runAll es .empty = s at ht hs hdoes ih
    generalize hafter : e.run s = s' at ht hdoes
    cases hdoes with
    | traced h =>
      obtain ⟨-, t₀, ht₀, happ⟩ := h.tokens k t ht
      obtain ⟨hid₀, hkey₀⟩ := hs.tokens k t₀ ht₀
      obtain ⟨horg, htok⟩ := nulKey_inj hid₀ hid (hkey₀.symm.trans hkey)
      have hissued := ih ht₀
      rw [horg, happ, htok] at hissued
      exact hissued.extend hbefore hafter (h.orgs _) fun hf _ => h.formations _ hf
    | @issued mgr draw now o a label maxUses expiresAt t' hok horg hform htorg htapp htid =>
      rw [Table.get_insert] at ht
      split at ht
      · -- this token
        obtain rfl := Option.some.inj ht
        rw [htorg, htapp]
        refine Issued.of_issues hbefore hafter ?_ horg hform
        exact ⟨mgr, draw, now, label, maxUses, expiresAt, _, rfl, hok, rfl⟩
      · exact (ih ht).extend hbefore hafter (fun h => h) fun hf _ => hf
    | orgDeleted mgr o' =>
      -- the token is still there, so another organization has been deleted
      have hkept : (s.tokens.removeAll (belongsTo o'))[k]? = some t := ht
      rw [Table.get_removeAll] at hkept
      split at hkept
      · cases hkept
      next hb =>
        have hne : o' ≠ t.orgId := by
          rintro rfl
          rw [hkey] at hb
          exact hb (belongsTo_nulKey _ _)
        apply (ih hkept).extend hbefore hafter (isSome_erase_of_ne hne)
        intro hf _
        refine isSome_removeAll.mpr ⟨Bool.eq_false_iff.mpr ?_, hf⟩
        intro hb'
        obtain ⟨y, hy⟩ := belongsTo_iff.mp hb'
        exact hne (hs.of_formationKey hid hf hy).1
    | @formationDeleted mgr o a hok =>
      refine (ih ht).extend hbefore hafter (fun h => h) ?_
      intro hf hnot
      refine isSome_erase_of_ne ?_ hf
      intro hsame
      obtain ⟨rfl, rfl⟩ := hs.of_formationKey hid hf hsame.symm
      exact hnot ⟨mgr, rfl, hok⟩

end History

/-! ### Tokens that are accepted -/

/-- In the course of the request `validate_and_consume_token` is called, with the bearer, and
returns `Ok`. -/
def Enrollment.Consumes (r : Enrollment) (s : Redb) (tokenId : String) : Prop :=
  ∃ org formation t, s.orgs[r.orgId]? = some org ∧
    s.formations[formationKey r.orgId r.appId]? = some formation ∧ r.Admitted s org ∧
    formation.enrollmentPolicy = .controlled ∧
    extractBearer r.headers r.body = some tokenId ∧ startsWith tokenId "peat_" = true ∧
    ((TenantManager.validateAndConsumeToken r.draw.tokenNow r.orgId r.appId tokenId).run Redb.exec
      s).1 = .ok t

/-- A request that consumes a token is answered with 200. -/
theorem Enrollment.Consumes.answers {G : Type} (mgr : TenantManager G) {r : Enrollment} {s : Redb}
    {tokenId : String} (h : r.Consumes s tokenId) :
    ∃ resp, ((enroll mgr r.net r.draw r.orgId r.appId r.headers r.body).run.run Redb.exec s).1 =
      .ok (.ok resp) := by
  obtain ⟨org, formation, t, horg, hform, hadm, hpolicy, hbearer, hpeat, hok⟩ := h
  have hacc := ((Enrollment.wp_validateAndConsumeToken tokenId).of_ok hok).2
  have hd : r.Decided s formation.enrollmentPolicy := by
    rw [hpolicy]
    exact .token hbearer hpeat hacc
  obtain ⟨res, hres, hend⟩ := (ends_enroll mgr r s).run
  rw [hres]
  generalize ((enroll mgr r.net r.draw r.orgId r.appId r.headers r.body).run.run Redb.exec s).2 =
    s' at hend
  -- Every ending but the approval contradicts that the request is admitted and decided.
  cases hend with
  | refused h he hs' => exact absurd hd (h org formation horg hform hadm).1
  | limited horg' hlimit hbody he =>
    obtain rfl := Option.some.inj (horg.symm.trans horg')
    exact absurd hadm hlimit
  | denied horg' hform' hadm' ht he hs' =>
    obtain rfl := Option.some.inj (hform.symm.trans hform')
    exact absurd hd ht.not_decided
  | approved => exact ⟨_, rfl⟩

/-- **A token admits to the formation it was issued for.**  Whenever a request consumes a
token, it is answered with 200, and the token was issued for the formation earlier in the run;
since then the organization has been there all the time, and the formation too, unless it was
deleted. -/
theorem token_formation {G : Type} (mgr : TenantManager G) {es : List (Event G)} {r : Enrollment}
    {tokenId : String} (h : r.Consumes (runAll es .empty) tokenId) :
    Issued es r.orgId r.appId tokenId ∧
    ∃ resp, ((enroll mgr r.net r.draw r.orgId r.appId r.headers r.body).run.run Redb.exec
      (runAll es .empty)).1 = .ok (.ok resp) := by
  refine ⟨?_, h.answers mgr⟩
  obtain ⟨org, formation, t, horg, hform, hadm, hpolicy, hbearer, hpeat, hok⟩ := h
  have hs : (runAll es .empty).Keyed := keyed_runAll es Redb.keyed_empty
  obtain ⟨-, t₀, ht₀, happ, -⟩ := (Enrollment.wp_validateAndConsumeToken tokenId).of_ok hok
  obtain ⟨horg₀, hid₀⟩ := hs.token_ids (hs.orgs _ _ horg).1.nulFree ht₀
  have hissued := issued_of_stored ht₀
  rwa [horg₀, happ, hid₀] at hissued

/-- A controlled formation is made. -/
def formationEvents (draw : Bytes) : List (Event Bytes) :=
  [.operation seedManager (.createFormation ⟨draw, (sampleDraws 0).envelope⟩ "a" "x" .controlled)]

/-- A token for the formation is issued. -/
def tokenEvent : Event Bytes :=
  .operation seedManager (.createToken (Vector.replicate 16 0) 0 "a" "x" "label" none none)

/-- A token is issued and used. -/
theorem token_formation_used :
    let es : List (Event Bytes) :=
      .operation seedManager (.createOrg 0 "a" "A") :: formationEvents [42] ++ [tokenEvent]
    tokenRequest.Consumes (runAll es .empty) "peat_00000000000000000000000000000000" ∧
    Issued es "a" "x" "peat_00000000000000000000000000000000" := by
  intro es
  have hconsumes : tokenRequest.Consumes (runAll es .empty)
      "peat_00000000000000000000000000000000" := by
    refine ⟨⟨"a", "A", .default, 0⟩, ⟨"x", "2a", .controlled⟩,
      ⟨"peat_00000000000000000000000000000000", "a", "x", "label", none, 1, none, 0, false⟩,
      by decide +kernel, by decide +kernel, ⟨rfl, by decide +kernel⟩, rfl, rfl, by decide +kernel,
      by decide +kernel⟩
  exact ⟨hconsumes, (token_formation seedManager hconsumes).1⟩

/-- **A token outlives its formation, and admits to the next one of that name.** -/
theorem token_outlives_formation :
    ¬ ∀ (es₁ : List (Event Bytes)) (c : Event Bytes) (es₂ : List (Event Bytes)) (r : Enrollment)
      (tokenId : String), c.Issues (runAll es₁ .empty) r.orgId r.appId tokenId →
      r.Consumes (runAll (es₁ ++ c :: es₂) .empty) tokenId →
      Throughout (fun s => s.uses (formationKey r.orgId r.appId) .formations = true) es₂
        (runAll (es₁ ++ [c]) .empty) := by
  intro h
  have hthrough := h (.operation seedManager (.createOrg 0 "a" "A") :: formationEvents [42])
    tokenEvent (.operation seedManager (.deleteFormation "a" "x") :: formationEvents [43])
    tokenRequest "peat_00000000000000000000000000000000" ?_ ?_
  · have hgone := hthrough.2.1
    revert hgone
    decide +kernel
  · exact ⟨seedManager, Vector.replicate 16 0, 0, "label", none, none,
      ⟨"peat_00000000000000000000000000000000", "a", "x", "label", none, 0, none, 0, false⟩, rfl,
      by decide +kernel, rfl⟩
  · refine ⟨⟨"a", "A", .default, 0⟩, ⟨"x", "2b", .controlled⟩,
      ⟨"peat_00000000000000000000000000000000", "a", "x", "label", none, 1, none, 0, false⟩,
      by decide +kernel, by decide +kernel, ⟨rfl, by decide +kernel⟩, rfl, rfl, by decide +kernel,
      by decide +kernel⟩

end PeatGateway
