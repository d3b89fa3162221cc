import PeatGateway.Api.Policy

/-!
# Which rule decides

Of the rules that match the claims, the first by priority and by position in the list
decides; every other rule could as well not be there.

## Main definitions

* `ClaimFits` — a claim has the value a rule asks for, kind by kind.
* `PolicyRule.Applies` — the rule matches the claims.
* `PolicyRule.Wins` — the rule is the first that matches.

## Main results

* `evaluatePolicy_spec` — **the decision is that of the first matching rule**; rules that do
  not match or come after it do not matter, and neither does the order of rules of different
  priorities.
-/

namespace PeatGateway

/-- A claim has the value a rule asks for. -/
inductive ClaimFits (claimValue : String) : Json → Prop
  /-- The same text. -/
  | string : ClaimFits claimValue (.string claimValue)
  /-- A truth value that is spelled so. -/
  | bool {b : Bool} (h : claimValue = if b then "true" else "false") :
    ClaimFits claimValue (.bool b)
  /-- A list with the text among its elements. -/
  | array {vs : List Json} (h : .string claimValue ∈ vs) : ClaimFits claimValue (.array vs)
  /-- A number that is displayed so. -/
  | number : ClaimFits claimValue (.number claimValue)

/-- The rule matches: its claim is there, and has the value the rule asks for. -/
def PolicyRule.Applies (claims : JsonMap) (rule : PolicyRule) : Prop :=
  ∃ v, claims.get rule.claimKey = some v ∧ ClaimFits rule.claimValue v

/-- The rule matches, and is the first to do so by priority and position. -/
def PolicyRule.Wins (claims : JsonMap) (rules : List PolicyRule) (rule : PolicyRule) : Prop :=
  ∃ i : ℕ, rules[i]? = some rule ∧ rule.Applies claims ∧
    ∀ (j : ℕ) (rule' : PolicyRule), rules[j]? = some rule' → rule'.Applies claims →
      rule.priority < rule'.priority ∨ rule.priority = rule'.priority ∧ i ≤ j

/-! ### Matching -/

theorem claimMatches_iff {claimValue : String} {v : Json} :
    claimMatches claimValue v = true ↔ ClaimFits claimValue v := by
  constructor
  · intro h
    cases v with
    | null => cases h
    | object fields => cases h
    | string s =>
      obtain rfl : s = claimValue := by simpa [claimMatches] using h
      exact .string
    | number n =>
      obtain rfl : n = claimValue := by simpa [claimMatches] using h
      exact .number
    | bool b =>
      refine .bool ?_
      cases b <;> simpa [claimMatches] using h
    | array vs =>
      obtain ⟨v, hv, hs⟩ := List.any_eq_true.mp h
      obtain ⟨s, hstr, heq⟩ := (Option.any_eq_true _ _).mp hs
      obtain rfl : s = claimValue := by simpa using heq
      cases v <;> cases hstr
      exact .array hv
  · rintro (_ | h | h | _)
    · simp [claimMatches]
    · subst h
      split <;> simp [claimMatches, *]
    · exact List.any_eq_true.mpr ⟨_, h, by simp [Json.asStr]⟩
    · simp [claimMatches]

theorem PolicyRule.matchesClaims_iff {claims : JsonMap} {rule : PolicyRule} :
    rule.matchesClaims claims = true ↔ rule.Applies claims := by
  rw [PolicyRule.matchesClaims, Option.any_eq_true]
  exact exists_congr fun v => and_congr_right fun _ => claimMatches_iff

instance (claims : JsonMap) (rule : PolicyRule) : Decidable (rule.Applies claims) :=
  decidable_of_iff _ PolicyRule.matchesClaims_iff

theorem PolicyRule.decide_applies (claims : JsonMap) (rule : PolicyRule) :
    decide (rule.Applies claims) = rule.matchesClaims claims := by
  rw [Bool.eq_iff_iff, decide_eq_true_eq, matchesClaims_iff]

/-- Coming first by priority and position. -/
theorem before_and_iff {a b : PolicyRule} {i j : ℕ} :
    a.before b ∧ (b.before a → i ≤ j) ↔
      a.priority < b.priority ∨ a.priority = b.priority ∧ i ≤ j := by
  simp only [PolicyRule.before, UInt32.le_iff_toNat_le, UInt32.lt_iff_toNat_lt,
    ← UInt32.toNat_inj]
  omega

theorem PolicyRule.wins_iff {claims : JsonMap} {rules : List PolicyRule} {rule : PolicyRule} :
    rule.Wins claims rules ↔
      First.IsFirst PolicyRule.before (PolicyRule.matchesClaims claims) rules rule := by
  simp only [PolicyRule.Wins, First.IsFirst, matchesClaims_iff, before_and_iff]

/-! ### The decision -/

section Decision

variable {claims : JsonMap} {rules rules' : List PolicyRule}

/-- The rule that wins is the one that is found. -/
theorem PolicyRule.Wins.first {rule : PolicyRule} (h : rule.Wins claims rules) :
    First.first PolicyRule.before (PolicyRule.matchesClaims claims) rules = some rule :=
  First.first_eq_some_iff.mpr (PolicyRule.wins_iff.mp h)

theorem evaluatePolicy_of_wins {rule : PolicyRule} (h : rule.Wins claims rules) :
    evaluatePolicy rules claims = .approved rule.tier rule.permissions := by
  rw [evaluatePolicy_eq_first, h.first]
  rfl

theorem evaluatePolicy_of_none (h : ∀ rule ∈ rules, ¬ rule.Applies claims) :
    evaluatePolicy rules claims = .approved .endpoint 0 := by
  have hnone : First.first PolicyRule.before (PolicyRule.matchesClaims claims) rules = none :=
    First.first_eq_none_iff.mpr fun rule hmem =>
      Bool.eq_false_iff.mpr fun hm => h rule hmem (PolicyRule.matchesClaims_iff.mp hm)
  rw [evaluatePolicy_eq_first, hnone]
  rfl

/-- A rule wins, unless none matches. -/
theorem exists_wins (h : ¬ ∀ rule ∈ rules, ¬ rule.Applies claims) :
    ∃ rule : PolicyRule, rule.Wins claims rules := by
  cases hfirst : First.first PolicyRule.before (PolicyRule.matchesClaims claims) rules with
  | some rule => exact ⟨rule, PolicyRule.wins_iff.mpr (First.isFirst_of_first hfirst)⟩
  | none =>
    refine absurd ?_ h
    intro rule hmem happ
    have hno := First.first_eq_none_iff.mp hfirst rule hmem
    rw [PolicyRule.matchesClaims_iff.mpr happ] at hno
    cases hno

/-- Rules that do not match do not matter. -/
theorem evaluatePolicy_congr_matching
    (h : rules'.filter (PolicyRule.Applies claims) = rules.filter (PolicyRule.Applies claims)) :
    evaluatePolicy rules' claims = evaluatePolicy rules claims := by
  simp only [PolicyRule.decide_applies] at h
  rw [evaluatePolicy_eq_first, evaluatePolicy_eq_first,
    ← First.first_filter_self rules', h, First.first_filter_self]

/-- Rules that do not match, and rules of a higher priority number than the winner, do not
matter. -/
theorem evaluatePolicy_congr_winner {rule : PolicyRule} (hwins : rule.Wins claims rules)
    (h : (rules'.filter fun x => x.Applies claims ∧ x.priority ≤ rule.priority) =
      rules.filter fun x => x.Applies claims ∧ x.priority ≤ rule.priority) :
    evaluatePolicy rules' claims = evaluatePolicy rules claims := by
  simp only [Bool.decide_and, PolicyRule.decide_applies] at h
  rw [evaluatePolicy_eq_first, evaluatePolicy_eq_first, hwins.first,
    First.first_congr hwins.first h]

/-- If no two matching rules have one priority, the order of the rules does not matter. -/
theorem evaluatePolicy_perm (hperm : rules.Perm rules')
    (h : ((rules.filter (PolicyRule.Applies claims)).map PolicyRule.priority).Nodup) :
    evaluatePolicy rules' claims = evaluatePolicy rules claims := by
  simp only [PolicyRule.decide_applies] at h
  have hsame := First.map_first_congr (r := PolicyRule.before)
    (p := PolicyRule.matchesClaims claims) (g := id) (fun _ => hperm.mem_iff)
    fun a ha b hb hpa hpb hab hba _ => by
      refine List.inj_on_of_nodup_map h (List.mem_filter.mpr ⟨ha, hpa⟩)
        (List.mem_filter.mpr ⟨hb, hpb⟩) (UInt32.le_antisymm hab hba)
  rw [Option.map_id, id, id] at hsame
  rw [evaluatePolicy_eq_first, evaluatePolicy_eq_first, hsame]

end Decision

/-- **The decision is that of the first matching rule** by priority and position, or the lowest
tier without permissions if none matches.  It stays the same when rules that do not match are
put in or taken out anywhere, when matching rules of a higher priority number than the winner
are, and, if no two matching rules have one priority, under every permutation. -/
theorem evaluatePolicy_spec (rules : List PolicyRule) (claims : JsonMap) :
    (∀ rule : PolicyRule, rule.Wins claims rules →
      evaluatePolicy rules claims = .approved rule.tier rule.permissions) ∧
    ((∀ rule ∈ rules, ¬ rule.Applies claims) →
      evaluatePolicy rules claims = .approved .endpoint 0) ∧
    ((∃ rule : PolicyRule, rule.Wins claims rules) ∨ ∀ rule ∈ rules, ¬ rule.Applies claims) ∧
    (∀ rules', rules'.filter (PolicyRule.Applies claims) =
        rules.filter (PolicyRule.Applies claims) →
      evaluatePolicy rules' claims = evaluatePolicy rules claims) ∧
    (∀ (rule : PolicyRule) (rules' : List PolicyRule), rule.Wins claims rules →
      (rules'.filter fun x => x.Applies claims ∧ x.priority ≤ rule.priority) =
        (rules.filter fun x => x.Applies claims ∧ x.priority ≤ rule.priority) →
      evaluatePolicy rules' claims = evaluatePolicy rules claims) ∧
    ∀ rules', rules.Perm rules' →
      ((rules.filter (PolicyRule.Applies claims)).map PolicyRule.priority).Nodup →
      evaluatePolicy rules' claims = evaluatePolicy rules claims := by
  refine ⟨fun rule h => evaluatePolicy_of_wins h, evaluatePolicy_of_none, ?_,
    fun rules' h => evaluatePolicy_congr_matching h,
    fun rule rules' hwins h => evaluatePolicy_congr_winner hwins h,
    fun rules' hperm h => evaluatePolicy_perm hperm h⟩
  by_cases h : ∀ rule ∈ rules, ¬ rule.Applies claims
  · exact Or.inr h
  · exact Or.inl (exists_wins h)

/-- Of two matching rules of one priority, the one that is listed first decides. -/
theorem evaluatePolicy_tie :
    evaluatePolicy
        [⟨"r1", "acme", "level", "3", .endpoint, 0, 200⟩,
          ⟨"r2", "acme", "groups", "admins", .authority, 7, 100⟩,
          ⟨"r3", "acme", "level", "3", .infrastructure, 1, 100⟩]
        [("groups", .array [.null, .string "admins"]), ("level", .number "3")] =
      .approved .authority 7 := by
  refine (evaluatePolicy_spec _ _).1 ⟨"r2", "acme", "groups", "admins", .authority, 7, 100⟩
    ⟨1, rfl, ⟨_, by rfl, .array (by simp)⟩, ?_⟩
  intro j rule' hj _
  match j with
  | 0 =>
    obtain rfl := Option.some.inj hj
    exact Or.inl (by decide)
  | 1 =>
    obtain rfl := Option.some.inj hj
    exact Or.inr ⟨rfl, le_refl 1⟩
  | 2 =>
    obtain rfl := Option.some.inj hj
    exact Or.inr ⟨rfl, by omega⟩
  | j + 3 => cases hj

end PeatGateway
