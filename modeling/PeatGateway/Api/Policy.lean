import PeatGateway.Lib.First
import PeatGateway.Lib.Json
import PeatGateway.Models

/-!
# Identity claims and policy rules

What an identity provider says about a bearer is a JSON object.  The rules of an
organization map single claims to a tier and permissions; of the rules that match, one with
the lowest priority number decides.

## Main definitions

* `PolicyRule.matchesClaims` — the test of one rule.
* `evaluatePolicy` — the loop over the rules, sorted by priority.
* `PolicyRule.before` — the order of priorities.

## Main results

* `evaluatePolicy_eq_first` — the rule that decides is the first by priority and position.
* `evaluatePolicy_eq` — **the decision**: of a matching rule of lowest priority, or of none.
-/

namespace PeatGateway

/-- A claim has the value a rule asks for: as a text, as a truth value, as an element of a
list, or as a number. -/
def claimMatches (claimValue : String) : Json → Bool
  | .string s => s == claimValue
  | .bool b => (claimValue == "true" && b) || (claimValue == "false" && !b)
  | .array vs => vs.any fun v => v.asStr.any (· == claimValue)
  | .number n => n == claimValue
  | _ => false

/-- The rule matches: its claim is there and has its value. -/
def PolicyRule.matchesClaims (claims : JsonMap) (rule : PolicyRule) : Bool :=
  (claims.get rule.claimKey).any (claimMatches rule.claimValue)

/-- The first matching rule, in the stable order of priorities, decides; without one the
bearer is let in with the lowest tier and no permissions. -/
def evaluatePolicy (rules : List PolicyRule) (claims : JsonMap) : EnrollmentDecision :=
  match (rules.insertionSort fun r r' => r.priority ≤ r'.priority).find?
      (PolicyRule.matchesClaims claims) with
  | some rule => .approved rule.tier rule.permissions
  | none => .approved .endpoint 0

/-- What the rules grant for the claims: the tier and permissions of a matching rule of
lowest priority number, or the lowest tier if none matches. -/
def Grants (rules : List PolicyRule) (claims : JsonMap) (tier : MeshTier) (permissions : UInt32) :
    Prop :=
  (∃ rule ∈ rules, rule.matchesClaims claims = true ∧ rule.tier = tier ∧
    rule.permissions = permissions ∧
    ∀ rule' ∈ rules, rule'.matchesClaims claims = true → rule.priority ≤ rule'.priority) ∨
  (∀ rule ∈ rules, rule.matchesClaims claims = false) ∧ tier = .endpoint ∧ permissions = 0

/-! ### The rule that decides -/

/-- The order of priorities. -/
def PolicyRule.before (rule rule' : PolicyRule) : Prop := rule.priority ≤ rule'.priority

instance : DecidableRel PolicyRule.before := fun rule rule' =>
  inferInstanceAs (Decidable (rule.priority ≤ rule'.priority))

instance : Std.Total PolicyRule.before := ⟨fun a b => UInt32.le_total a.priority b.priority⟩

instance : IsTrans PolicyRule PolicyRule.before := ⟨fun _ _ _ => UInt32.le_trans⟩

/-- The rule that decides is the first by priority and position that matches. -/
theorem evaluatePolicy_eq_first (rules : List PolicyRule) (claims : JsonMap) :
    evaluatePolicy rules claims =
      (First.first PolicyRule.before (PolicyRule.matchesClaims claims) rules).elim
        (.approved .endpoint 0) fun rule => .approved rule.tier rule.permissions := by
  rw [← First.find?_insertionSort]
  unfold evaluatePolicy
  change (match (rules.insertionSort PolicyRule.before).find? _ with | some _ => _ | none => _) = _
  split <;> simp [*]

/-- **The decision is an approval**, with what the rules grant. -/
theorem evaluatePolicy_eq (rules : List PolicyRule) (claims : JsonMap) :
    ∃ tier permissions, evaluatePolicy rules claims = .approved tier permissions ∧
      Grants rules claims tier permissions := by
  rw [evaluatePolicy_eq_first]
  cases hfirst : First.first PolicyRule.before (PolicyRule.matchesClaims claims) rules with
  | none => exact ⟨_, _, rfl, Or.inr ⟨First.first_eq_none_iff.mp hfirst, rfl, rfl⟩⟩
  | some rule =>
    obtain ⟨hmem, hmatch, hleast⟩ := (First.isFirst_of_first hfirst).least
    exact ⟨_, _, rfl, Or.inl ⟨rule, hmem, hmatch, rfl, rfl, hleast⟩⟩

end PeatGateway
