import Mathlib.Data.Finset.Max
import Mathlib.Data.String.Basic
import Mathlib.Logic.Equiv.Basic
import PeatGateway.Api.Precedence
import PeatGateway.Storage.Interchange
import PeatGateway.Tenant.Keyed

/-!
# Rule ids decide between equal priorities

The id of a rule is drawn at random when the rule is made.  Rules are listed in the order of
their ids, and among matching rules of one priority the first in the list decides.  So the
tier a bearer is granted depends on what was drawn, as soon as two matching rules of the
lowest priority number grant different things.

## Main definitions

* `RuleCall`, `runRules` — creations and deletions of rules, and the store they lead to.
* `liveRules` — the rules that are left, in the order of their creation.
* `decision` — what is granted for some claims.
* `SameTier` — the decision does not depend on the ids.
* `Tied` — two rules that could decide grant different things.

## Main results

* `sameTier_iff` — **the ids do not matter exactly if there is no tie**.
* `sameTier_broken` — two rules with the default priority.
-/

namespace PeatGateway

open Effect Wire

/-! ### Calls -/

/-- What a rule is made of, apart from its ids. -/
structure RuleSpec where
  claimKey : String
  claimValue : String
  tier : MeshTier
  permissions : UInt32
  priority : UInt32
  deriving DecidableEq

/-- The priority of a rule that was made without one. -/
def defaultPriority : UInt32 := 100

/-- A call on the rules of an organization.  A deletion names a rule by its position in the
order of creation. -/
inductive RuleCall
  | create (spec : RuleSpec)
  | delete (position : ℕ)

/-- What is drawn for each rule. -/
abbrev RuleDraws : Type := ℕ → Vector UInt8 8

/-- The id of a rule. -/
def RuleDraws.ruleId (draws : RuleDraws) (i : ℕ) : String := hexEncode (draws i).toList

/-- The record of a rule. -/
def RuleDraws.rule (draws : RuleDraws) (orgId : String) (i : ℕ) (spec : RuleSpec) : PolicyRule :=
  ⟨draws.ruleId i, orgId, spec.claimKey, spec.claimValue, spec.tier, spec.permissions,
    spec.priority⟩

/-- The number of rules the calls make. -/
def created (calls : List RuleCall) : ℕ :=
  calls.countP fun
    | .create _ => true
    | .delete _ => false

/-- The ids of the rules the calls make are distinct. -/
def RuleDraws.Distinct (draws : RuleDraws) (calls : List RuleCall) : Prop :=
  ∀ i j, i < created calls → j < created calls → draws.ruleId i = draws.ruleId j → i = j

/-- A call, when `n` rules have been made. -/
def RuleCall.prog (orgId : String) (draws : RuleDraws) (n : ℕ) : RuleCall → StoreProg Unit
  | create spec => do
    let _ ← TenantManager.createPolicyRule (draws n) orgId spec.claimKey spec.claimValue spec.tier
      spec.permissions spec.priority
    return ()
  | delete i =>
    if i < n then TenantManager.deletePolicyRule orgId (draws.ruleId i) else pure ()

/-- The store after the calls, when `n` rules have been made before. -/
def runRules (orgId : String) (draws : RuleDraws) : List RuleCall → ℕ → Redb → Redb
  | [], _, s => s
  | c :: calls, n, s =>
    runRules orgId draws calls (n + created [c]) ((c.prog orgId draws n).run Redb.exec s).2

/-- What is granted for the claims after the calls. -/
def decision (s : Redb) (orgId : String) (calls : List RuleCall) (claims : JsonMap)
    (draws : RuleDraws) : Except Error EnrollmentDecision :=
  (((TenantManager.listPolicyRules orgId).run Redb.exec (runRules orgId draws calls 0 s)).1).map
    fun rules => evaluatePolicy rules claims

/-- The decision is the same whatever distinct ids are drawn. -/
def SameTier (s : Redb) (orgId : String) (calls : List RuleCall) (claims : JsonMap) : Prop :=
  ∀ draws draws' : RuleDraws, draws.Distinct calls → draws'.Distinct calls →
    decision s orgId calls claims draws = decision s orgId calls claims draws'

/-! ### The rules that are left -/

/-- The rules that are left, with their positions, when `n` rules have been made before and
`live` are left of them. -/
def liveRules : List RuleCall → ℕ → List (ℕ × RuleSpec) → List (ℕ × RuleSpec)
  | [], _, live => live
  | .create spec :: calls, n, live => liveRules calls (n + 1) (live ++ [(n, spec)])
  | .delete i :: calls, n, live => liveRules calls n (live.filter fun x => x.1 ≠ i)

/-- The rule matches the claims. -/
def RuleSpec.Applies (claims : JsonMap) (spec : RuleSpec) : Prop :=
  ∃ v, claims.get spec.claimKey = some v ∧ ClaimFits spec.claimValue v

/-- The rule matches, and none that is left and matches has a lower priority number. -/
def CouldDecide (claims : JsonMap) (live : List (ℕ × RuleSpec)) (spec : RuleSpec) : Prop :=
  spec.Applies claims ∧ ∀ x ∈ live, x.2.Applies claims → spec.priority ≤ x.2.priority

/-- Two rules that could decide grant different things. -/
def Tied (claims : JsonMap) (live : List (ℕ × RuleSpec)) : Prop :=
  ∃ x ∈ live, ∃ y ∈ live, CouldDecide claims live x.2 ∧ CouldDecide claims live y.2 ∧
    (x.2.tier, x.2.permissions) ≠ (y.2.tier, y.2.permissions)

/-! ### What a run leaves -/

/-- The organization is there, and its rules are the live ones under their ids. -/
structure HoldsRules (orgId : String) (draws : RuleDraws) (live : List (ℕ × RuleSpec))
    (s : Redb) : Prop where
  org : (s.orgs[orgId]?).isSome = true
  rules : ∀ key, belongsTo orgId key = true → ∀ r, s.policyRules[key]? = some r ↔
    ∃ x ∈ live, key = policyRuleKey orgId (draws.ruleId x.1) ∧ r = draws.rule orgId x.1 x.2

section Run

variable {orgId : String} {draws : RuleDraws} {live : List (ℕ × RuleSpec)} {s : Redb}

/-- What a creation does. -/
theorem run_create (h : (s.orgs[orgId]?).isSome = true) (spec : RuleSpec) (n : ℕ) :
    ((RuleCall.create spec).prog orgId draws n).run Redb.exec s =
      (.ok (), { s with
        policyRules := s.policyRules.insert (policyRuleKey orgId (draws.ruleId n))
          (draws.rule orgId n spec) }) := by
  obtain ⟨org, horg⟩ := Option.isSome_iff_exists.mp h
  simp only [RuleCall.prog, TenantManager.createPolicyRule, TenantManager.getOrg, Prog.bind_assoc,
    run_store_bind, Redb.exec, Prog.next_ok, Prog.run_okOrElse_bind, horg, Option.elim_some]
  rfl

/-- What a deletion does, whether or not the rule is there. -/
theorem run_delete (i n : ℕ) :
    (((RuleCall.delete i).prog orgId draws n).run Redb.exec s).2 =
      if i < n then
        { s with policyRules := s.policyRules.erase (policyRuleKey orgId (draws.ruleId i)) }
      else s := by
  rw [RuleCall.prog]
  split
  · simp only [TenantManager.deletePolicyRule, run_store_bind, Redb.exec, Prog.next_ok,
      Prog.ensure]
    split <;> rfl
  · rfl

/-- A rule is made. -/
theorem HoldsRules.create (h : HoldsRules orgId draws live s) (spec : RuleSpec) {n : ℕ}
    (hnew : ∀ x ∈ live, draws.ruleId x.1 ≠ draws.ruleId n) :
    HoldsRules orgId draws (live ++ [(n, spec)])
      (((RuleCall.create spec).prog orgId draws n).run Redb.exec s).2 := by
  rw [run_create h.org]
  refine ⟨h.org, ?_⟩
  intro key hkey r
  change (s.policyRules.insert _ _)[key]? = some r ↔ _
  rw [Table.get_insert]
  split
  · next heq =>
    subst heq
    constructor
    · intro hr
      exact ⟨(n, spec), by simp, rfl, (Option.some.inj hr).symm⟩
    · rintro ⟨x, hx, hkey, rfl⟩
      rcases List.mem_append.mp hx with hx | hx
      · exact absurd (Text.glue_cancel hkey).symm (hnew x hx)
      · rw [List.mem_singleton.mp hx]
  · next hne =>
    rw [h.rules key hkey]
    constructor
    · rintro ⟨x, hx, hkey, hr⟩
      exact ⟨x, List.mem_append_left _ hx, hkey, hr⟩
    · rintro ⟨x, hx, rfl, hr⟩
      rcases List.mem_append.mp hx with hx | hx
      · exact ⟨x, hx, rfl, hr⟩
      · rw [List.mem_singleton.mp hx] at hne
        exact absurd rfl hne

/-- A rule is deleted. -/
theorem HoldsRules.delete (h : HoldsRules orgId draws live s) {i n : ℕ}
    (hlive : ∀ x ∈ live, x.1 < n)
    (hdis : ∀ x ∈ live, i < n → draws.ruleId x.1 = draws.ruleId i → x.1 = i) :
    HoldsRules orgId draws (live.filter fun x => x.1 ≠ i)
      (((RuleCall.delete i).prog orgId draws n).run Redb.exec s).2 := by
  rw [run_delete]
  split
  · next hi =>
    refine ⟨h.org, ?_⟩
    intro key hkey r
    change (s.policyRules.erase _)[key]? = some r ↔ _
    rw [Table.get_erase]
    split
    · next heq =>
      subst heq
      refine iff_of_false nofun ?_
      rintro ⟨x, hx, hkey, -⟩
      obtain ⟨hx, hne⟩ := List.mem_filter.mp hx
      exact of_decide_eq_true hne (hdis x hx hi (Text.glue_cancel hkey).symm)
    · next hne =>
      rw [h.rules key hkey]
      constructor
      · rintro ⟨x, hx, rfl, hr⟩
        refine ⟨x, List.mem_filter.mpr ⟨hx, decide_eq_true ?_⟩, rfl, hr⟩
        rintro rfl
        exact hne rfl
      · rintro ⟨x, hx, hkey, hr⟩
        exact ⟨x, (List.mem_filter.mp hx).1, hkey, hr⟩
  · next hi =>
    -- no rule has been made at this position
    have hall : live.filter (fun x => x.1 ≠ i) = live := by
      refine List.filter_eq_self.mpr fun x hx => decide_eq_true ?_
      rintro rfl
      exact hi (hlive x hx)
    rwa [hall]

/-- **The calls leave the live rules**, under the ids that were drawn. -/
theorem HoldsRules.run {calls : List RuleCall} {n : ℕ} (h : HoldsRules orgId draws live s)
    (hlive : ∀ x ∈ live, x.1 < n)
    (hdis : ∀ i j, i < n + created calls → j < n + created calls →
      draws.ruleId i = draws.ruleId j → i = j) :
    HoldsRules orgId draws (liveRules calls n live) (runRules orgId draws calls n s) ∧
      ∀ x ∈ liveRules calls n live, x.1 < n + created calls := by
  induction calls generalizing n live s with
  | nil => exact ⟨h, hlive⟩
  | cons c calls ih =>
    cases c with
    | create spec =>
      have hcount : n + created (.create spec :: calls) = n + 1 + created calls := by
        rw [created, List.countP_cons_of_pos (by rfl), ← created]
        omega
      rw [hcount] at hdis ⊢
      refine ih (h.create spec ?_) ?_ hdis
      · intro x hx heq
        have hlt := hlive x hx
        exact absurd (hdis _ _ (by omega) (by omega) heq) (Nat.ne_of_lt hlt)
      · intro x hx
        rcases List.mem_append.mp hx with hx | hx
        · exact Nat.lt_succ_of_lt (hlive x hx)
        · rw [List.mem_singleton.mp hx]
          exact Nat.lt_succ_self n
    | delete i =>
      have hcount : n + created (.delete i :: calls) = n + created calls := by
        rw [created, List.countP_cons_of_neg (by simp), ← created]
      rw [hcount] at hdis ⊢
      refine ih (h.delete hlive ?_) ?_ hdis
      · intro x hx hi heq
        have hlt := hlive x hx
        exact hdis _ _ (by omega) (by omega) heq
      · intro x hx
        exact hlive x (List.mem_filter.mp hx).1

end Run

/-! ### What the rules grant -/

section Grant

variable {orgId : String} {draws : RuleDraws} {live : List (ℕ × RuleSpec)} {claims : JsonMap}
  {rules : List PolicyRule} {s : Redb} {calls : List RuleCall}

/-- The tier and permissions of a rule. -/
def PolicyRule.grant (rule : PolicyRule) : MeshTier × UInt32 := (rule.tier, rule.permissions)

/-- What the rule that decides grants. -/
def grantOf (claims : JsonMap) (rules : List PolicyRule) : Option (MeshTier × UInt32) :=
  (First.first PolicyRule.before (PolicyRule.matchesClaims claims) rules).map PolicyRule.grant

theorem evaluatePolicy_eq_grantOf (rules : List PolicyRule) (claims : JsonMap) :
    evaluatePolicy rules claims =
      (grantOf claims rules).elim (.approved .endpoint 0) fun g => .approved g.1 g.2 := by
  rw [evaluatePolicy_eq_first, grantOf]
  cases First.first PolicyRule.before (PolicyRule.matchesClaims claims) rules with
  | none => rfl
  | some rule => rfl

theorem RuleSpec.applies_iff {i : ℕ} {spec : RuleSpec} :
    spec.Applies claims ↔ (draws.rule orgId i spec).matchesClaims claims = true :=
  have h : (draws.rule orgId i spec).matchesClaims claims = true ↔ _ :=
    PolicyRule.matchesClaims_iff
  h.symm

/-- The rules that are listed are the live ones. -/
theorem HoldsRules.mem_scan (h : HoldsRules orgId draws live s) {r : PolicyRule} :
    r ∈ s.policyRules.scan (belongsTo orgId) ↔ ∃ x ∈ live, draws.rule orgId x.1 x.2 = r := by
  rw [Table.mem_scan]
  constructor
  · rintro ⟨key, hkey, hr⟩
    obtain ⟨x, hx, -, rfl⟩ := (h.rules key hkey r).mp hr
    exact ⟨x, hx, rfl⟩
  · rintro ⟨x, hx, rfl⟩
    have hkey : belongsTo orgId (policyRuleKey orgId (draws.ruleId x.1)) = true :=
      belongsTo_nulKey _ _
    exact ⟨_, hkey, (h.rules _ hkey _).mpr ⟨x, hx, rfl, rfl⟩⟩

/-- Without a tie, the order of the listing does not matter. -/
theorem HoldsRules.grantOf_eq (h : HoldsRules orgId draws live s) (htied : ¬ Tied claims live) :
    grantOf claims (s.policyRules.scan (belongsTo orgId)) =
      grantOf claims (live.map fun x => draws.rule orgId x.1 x.2) := by
  refine First.map_first_congr (fun r => by rw [h.mem_scan, List.mem_map]) ?_
  intro a ha b hb hpa hpb hab hba hleast
  obtain ⟨x, hx, rfl⟩ := h.mem_scan.mp ha
  obtain ⟨y, hy, rfl⟩ := h.mem_scan.mp hb
  have hx' : CouldDecide claims live x.2 := by
    refine ⟨RuleSpec.applies_iff.mpr hpa, ?_⟩
    intro z hz happ
    exact hleast _ (h.mem_scan.mpr ⟨z, hz, rfl⟩) (RuleSpec.applies_iff.mp happ)
  have hy' : CouldDecide claims live y.2 :=
    ⟨RuleSpec.applies_iff.mpr hpb, fun z hz happ => UInt32.le_trans hba (hx'.2 z hz happ)⟩
  by_contra hne
  exact htied ⟨x, hx, y, hy, hx', hy', hne⟩

/-- What the live rules grant, in the order of their creation, says nothing about ids. -/
theorem grantOf_map_rule (draws draws' : RuleDraws) :
    grantOf claims (live.map fun x => draws.rule orgId x.1 x.2) =
      grantOf claims (live.map fun x => draws'.rule orgId x.1 x.2) := by
  rw [grantOf, grantOf, First.first_map, First.first_map, Option.map_map, Option.map_map]
  rfl

/-- A rule that could decide does so if its id is the least. -/
theorem HoldsRules.grantOf_least (h : HoldsRules orgId draws live s) {x : ℕ × RuleSpec}
    (hx : x ∈ live) (hdecide : CouldDecide claims live x.2)
    (hleast : ∀ y ∈ live, y.1 ≠ x.1 → draws.ruleId x.1 < draws.ruleId y.1) :
    grantOf claims (s.policyRules.scan (belongsTo orgId)) = some (x.2.tier, x.2.permissions) := by
  have hkey : belongsTo orgId (policyRuleKey orgId (draws.ruleId x.1)) = true :=
    belongsTo_nulKey _ _
  have hhead : (s.policyRules.scan (belongsTo orgId))[0]? = some (draws.rule orgId x.1 x.2) := by
    refine Table.scan_getElem?_zero hkey ((h.rules _ hkey _).mpr ⟨x, hx, rfl, rfl⟩) ?_
    intro key r hkey' hr hne
    obtain ⟨y, hy, rfl, rfl⟩ := (h.rules key hkey' r).mp hr
    have hxy : y.1 ≠ x.1 := fun heq => hne (by rw [heq])
    rw [compare_string]
    exact if_pos (Text.glue_lt_glue.mpr (hleast y hy hxy))
  rw [grantOf, First.first_head (RuleSpec.applies_iff.mp hdecide.1) ?_ hhead]
  · rfl
  · intro b hb hpb
    obtain ⟨y, hy, rfl⟩ := h.mem_scan.mp hb
    exact hdecide.2 y hy (RuleSpec.applies_iff.mpr hpb)

end Grant

/-! ### Two runs -/

section Draws

variable {s : Redb} {orgId : String} {calls : List RuleCall} {claims : JsonMap}
  {draws : RuleDraws}

/-- What the calls lead to. -/
theorem decision_eq (claims : JsonMap) (horg : (s.orgs[orgId]?).isSome = true)
    (hnone : ∀ key, belongsTo orgId key = true → s.policyRules[key]? = none)
    (hd : draws.Distinct calls) :
    ∃ t, HoldsRules orgId draws (liveRules calls 0 []) t ∧
      (∀ x ∈ liveRules calls 0 [], x.1 < created calls) ∧
      decision s orgId calls claims draws =
        .ok (evaluatePolicy (t.policyRules.scan (belongsTo orgId)) claims) := by
  have hempty : HoldsRules orgId draws [] s := by
    refine ⟨horg, ?_⟩
    intro key hkey r
    rw [hnone key hkey]
    simp
  have hdis : ∀ i j, i < 0 + created calls → j < 0 + created calls →
      draws.ruleId i = draws.ruleId j → i = j := by
    rw [Nat.zero_add]
    exact hd
  obtain ⟨hrun, hlive⟩ := hempty.run (by simp) hdis
  rw [Nat.zero_add] at hlive
  refine ⟨_, hrun, hlive, ?_⟩
  obtain ⟨org, horg⟩ := Option.isSome_iff_exists.mp hrun.org
  simp only [decision, TenantManager.listPolicyRules, TenantManager.getOrg, Prog.bind_assoc,
    run_store_bind, Redb.exec, Prog.next_ok, Prog.run_okOrElse_bind, horg, Option.elim_some]
  rfl

/-- Any rule may get the least id. -/
theorem RuleDraws.Distinct.exists_least (hd : draws.Distinct calls) {i : ℕ}
    (hi : i < created calls) :
    ∃ draws' : RuleDraws, draws'.Distinct calls ∧
      ∀ j, j < created calls → j ≠ i → draws'.ruleId i < draws'.ruleId j := by
  obtain ⟨m, hm, hleast⟩ := Finset.exists_min_image (Finset.range (created calls)) draws.ruleId
    ⟨i, Finset.mem_range.mpr hi⟩
  -- the rule and the one with the least id change places
  have hswap : ∀ j, j < created calls → Equiv.swap i m j < created calls := by
    intro j hj
    rw [Equiv.swap_apply_def]
    split
    · exact Finset.mem_range.mp hm
    · split
      · exact hi
      · exact hj
  have hdis : RuleDraws.Distinct (draws ∘ Equiv.swap i m) calls := fun j k hj hk heq =>
    (Equiv.swap i m).injective (hd _ _ (hswap j hj) (hswap k hk) heq)
  refine ⟨draws ∘ Equiv.swap i m, hdis, ?_⟩
  intro j hj hne
  refine lt_of_le_of_ne ?_ fun heq => hne (hdis i j hi hj heq).symm
  change draws.ruleId (Equiv.swap i m i) ≤ draws.ruleId (Equiv.swap i m j)
  rw [Equiv.swap_apply_left]
  exact hleast _ (Finset.mem_range.mpr (hswap j hj))

/-- **The ids do not matter exactly if there is no tie.** -/
theorem sameTier_iff (horg : (s.orgs[orgId]?).isSome = true)
    (hnone : ∀ key, belongsTo orgId key = true → s.policyRules[key]? = none)
    (hd : draws.Distinct calls) :
    SameTier s orgId calls claims ↔ ¬ Tied claims (liveRules calls 0 []) := by
  constructor
  · rintro hsame ⟨x, hx, y, hy, hdx, hdy, hne⟩
    -- whichever of the two gets the least id decides
    have hgrant : ∀ z ∈ liveRules calls 0 [], CouldDecide claims (liveRules calls 0 []) z.2 →
        ∃ draws' : RuleDraws, draws'.Distinct calls ∧
          decision s orgId calls claims draws' =
            .ok (.approved z.2.tier z.2.permissions) := by
      intro z hz hdz
      obtain ⟨t, -, hlive, -⟩ := decision_eq claims horg hnone hd
      obtain ⟨draws', hd', hleast⟩ := hd.exists_least (hlive z hz)
      obtain ⟨t, hholds, -, heq⟩ := decision_eq claims horg hnone hd'
      refine ⟨draws', hd', ?_⟩
      rw [heq, evaluatePolicy_eq_grantOf,
        hholds.grantOf_least hz hdz fun w hw hwz => hleast w.1 (hlive w hw) hwz]
      rfl
    obtain ⟨dx, hdx', hx'⟩ := hgrant x hx hdx
    obtain ⟨dy, hdy', hy'⟩ := hgrant y hy hdy
    have heq := hsame dx dy hdx' hdy'
    rw [hx', hy', Except.ok.injEq, EnrollmentDecision.approved.injEq] at heq
    exact hne (Prod.ext heq.1 heq.2)
  · intro htied draws₁ draws₂ h₁ h₂
    obtain ⟨t₁, hholds₁, -, heq₁⟩ := decision_eq claims horg hnone h₁
    obtain ⟨t₂, hholds₂, -, heq₂⟩ := decision_eq claims horg hnone h₂
    rw [heq₁, heq₂, evaluatePolicy_eq_grantOf, evaluatePolicy_eq_grantOf,
      hholds₁.grantOf_eq htied, hholds₂.grantOf_eq htied, grantOf_map_rule draws₁ draws₂]

end Draws

/-! ### Two rules for the staff -/

/-- An organization without rules. -/
def acmeStore : Redb := ((TenantManager.createOrg 0 "acme" "Acme").run Redb.exec .empty).2

/-- A rule for the staff. -/
def staffRule (tier : MeshTier) (priority : UInt32) : RuleCall :=
  .create ⟨"role", "staff", tier, 0, priority⟩

/-- The claims of a member of the staff. -/
def staffClaims : JsonMap := [("role", .string "staff")]

/-- Ids that start with the given bytes. -/
def bytesDrawn (a b : UInt8) : RuleDraws := fun i =>
  Vector.replicate 8 (if i = 0 then a else b)

theorem bytesDrawn_distinct {a b : UInt8}
    (h : hexEncode (Vector.replicate 8 a).toList ≠ hexEncode (Vector.replicate 8 b).toList)
    {calls : List RuleCall} (hcalls : created calls = 2) : (bytesDrawn a b).Distinct calls := by
  intro i j hi hj heq
  rw [hcalls] at hi hj
  have hi' : i = 0 ∨ i = 1 := by omega
  have hj' : j = 0 ∨ j = 1 := by omega
  rcases hi' with rfl | rfl <;> rcases hj' with rfl | rfl
  · rfl
  · exact absurd heq h
  · exact absurd heq.symm h
  · rfl

/-- Of two rules for the staff with the default priority, the one with the lower id decides. -/
theorem sameTier_broken :
    decision acmeStore "acme"
        [staffRule .authority defaultPriority, staffRule .endpoint defaultPriority] staffClaims
        (bytesDrawn 1 2) = .ok (.approved .authority 0) ∧
      decision acmeStore "acme"
        [staffRule .authority defaultPriority, staffRule .endpoint defaultPriority] staffClaims
        (bytesDrawn 2 1) = .ok (.approved .endpoint 0) ∧
      ¬ SameTier acmeStore "acme"
        [staffRule .authority defaultPriority, staffRule .endpoint defaultPriority]
        staffClaims := by
  have hfirst : decision acmeStore "acme"
      [staffRule .authority defaultPriority, staffRule .endpoint defaultPriority] staffClaims
      (bytesDrawn 1 2) = .ok (.approved .authority 0) := by decide +kernel
  have hsecond : decision acmeStore "acme"
      [staffRule .authority defaultPriority, staffRule .endpoint defaultPriority] staffClaims
      (bytesDrawn 2 1) = .ok (.approved .endpoint 0) := by decide +kernel
  refine ⟨hfirst, hsecond, ?_⟩
  intro hsame
  have heq := hsame (bytesDrawn 1 2) (bytesDrawn 2 1)
    (bytesDrawn_distinct (by decide +kernel) rfl) (bytesDrawn_distinct (by decide +kernel) rfl)
  rw [hfirst, hsecond] at heq
  cases heq

/-- With a priority of its own the first rule decides, whatever the ids are. -/
theorem sameTier_ranked :
    SameTier acmeStore "acme" [staffRule .authority 1, staffRule .endpoint defaultPriority]
      staffClaims := by
  have hnone : ∀ key, belongsTo "acme" key = true → acmeStore.policyRules[key]? = none := by
    have hrules : acmeStore.policyRules = ∅ := rfl
    intro key _
    rw [hrules]
    simp
  have hd : (bytesDrawn 1 2).Distinct
      [staffRule .authority 1, staffRule .endpoint defaultPriority] :=
    bytesDrawn_distinct (by decide +kernel) rfl
  apply (sameTier_iff (by decide +kernel) hnone hd).mpr
  have hfits : RuleSpec.Applies staffClaims ⟨"role", "staff", .authority, 0, 1⟩ :=
    ⟨_, by rfl, .string⟩
  -- only the first rule could decide
  have honly : ∀ x ∈ liveRules [staffRule .authority 1, staffRule .endpoint defaultPriority] 0 [],
      CouldDecide staffClaims
        (liveRules [staffRule .authority 1, staffRule .endpoint defaultPriority] 0 []) x.2 →
      x = (0, ⟨"role", "staff", .authority, 0, 1⟩) := by
    intro x hx hdecide
    rcases List.mem_pair.mp hx with rfl | rfl
    · rfl
    · exact absurd (hdecide.2 _ List.mem_cons_self hfits) (by decide)
  rintro ⟨x, hx, y, hy, hdx, hdy, hne⟩
  rw [honly x hx hdx, honly y hy hdy] at hne
  exact hne rfl

end PeatGateway
