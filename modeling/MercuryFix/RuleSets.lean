import MercuryFix.RuleTermination
import Mathlib.Data.List.Sort

/-!
# Sets of rules

`sort_rule_set` puts the less important rules first, and
`evaluate_incident_with_rules` returns the first rule that matches.  So a matching
rule of the lowest priority wins.
-/

namespace MercuryFix

section Model

/-- A rule without its action, which nothing here reads. -/
structure Rule where
  negate : Int
  priority : UInt32
  expression : List UInt8
  id : Option (List UInt8)
  deriving DecidableEq

def lruleIsLessImportantThanRrule (lRule rRule : Rule) : Bool := lRule.priority < rRule.priority

/-- What `std::sort` may make of a rule set in `sort_rule_set`. -/
def SortRuleSet (rules sorted : List Rule) : Prop :=
  sorted.Perm rules ∧
    sorted.Pairwise fun earlier later =>
      lruleIsLessImportantThanRrule later earlier = false

variable (context : RuleContext)

/-- `evaluate_incident_with_rules`, with so many rounds for each expression. -/
def evaluateIncidentWithRules (fuel : Nat) :
    List Rule → Except RuleFault (Option (List UInt8))
  | [] => .ok none
  | rule :: rules => do
      let result ← evaluateExpression context fuel rule.expression
      let retv := if rule.negate ≠ 0 then !result.1 else result.1
      if retv then .ok rule.id else evaluateIncidentWithRules fuel rules

end Model

section Scan

variable (context : RuleContext)

/-- The expression of a rule has a value, which is this one after the negation. -/
def Rule.Decides (rule : Rule) (retv : Bool) : Prop :=
  ∃ fuel value, evaluateExpression context fuel rule.expression = .ok (value, []) ∧
    retv = if rule.negate ≠ 0 then !value else value

def Rule.Matches (rule : Rule) : Prop := rule.Decides context true

variable {context}

theorem evaluateExpression_ok {fuel : Nat} {expression : List UInt8} {result : Bool × List UInt8}
    (returns : evaluateExpression context fuel expression = .ok result) :
    result = (result.1, []) := by
  have runs := run_of_evaluateExpression returns
  rw [evaluateExpression, evaluateLoop_eq, runs] at returns
  exact (Except.ok.inj returns).symm

theorem evaluateExpression_mono {fuel more : Nat} (le : fuel ≤ more)
    {expression : List UInt8} {value : Bool}
    (returns : evaluateExpression context fuel expression = .ok (value, [])) :
    evaluateExpression context more expression = .ok (value, []) := by
  have runs := FuelledLoop.run_mono le (run_of_evaluateExpression returns)
  rw [evaluateExpression, evaluateLoop_eq, runs]
  rfl

theorem Rule.Decides.unique {rule : Rule} {retv other : Bool}
    (decides : rule.Decides context retv) (again : rule.Decides context other) :
    retv = other := by
  obtain ⟨fuel, value, returns, rfl⟩ := decides
  obtain ⟨fuel', value', returns', rfl⟩ := again
  have same := evaluateExpression_mono (le_max_left fuel fuel') returns
  rw [evaluateExpression_mono (le_max_right fuel fuel') returns'] at same
  cases same
  rfl

theorem evaluateIncidentWithRules_cons {fuel : Nat} {rule : Rule} {value : Bool}
    (returns : evaluateExpression context fuel rule.expression = .ok (value, []))
    (rules : List Rule) :
    evaluateIncidentWithRules context fuel (rule :: rules) =
      if (if rule.negate ≠ 0 then !value else value) = true then .ok rule.id
      else evaluateIncidentWithRules context fuel rules := by
  rw [evaluateIncidentWithRules, returns]
  rfl

/-- The scan: the first rule that matches, behind rules that do not. -/
inductive Scans (context : RuleContext) :
    List Rule → Option (List UInt8) → Prop
  | done : Scans context [] none
  | found {rule : Rule} (matching : rule.Decides context true)
      (rules : List Rule) : Scans context (rule :: rules) rule.id
  | passed {rule : Rule} (missing : rule.Decides context false)
      {rules : List Rule} {result : Option (List UInt8)}
      (scans : Scans context rules result) : Scans context (rule :: rules) result

theorem Scans.evaluates {rules : List Rule} {result : Option (List UInt8)}
    (scans : Scans context rules result) :
    ∃ enough, ∀ fuel ≥ enough, evaluateIncidentWithRules context fuel rules = .ok result := by
  induction scans with
  | done => exact ⟨0, fun fuel _ => rfl⟩
  | found matching rules =>
    obtain ⟨enough, value, returns, negated⟩ := matching
    refine ⟨enough, fun fuel le => ?_⟩
    rw [evaluateIncidentWithRules_cons (evaluateExpression_mono le returns), ← negated, if_pos rfl]
  | passed missing scans induction =>
    obtain ⟨enough, value, returns, negated⟩ := missing
    obtain ⟨later, evaluates⟩ := induction
    refine ⟨max enough later, fun fuel le => ?_⟩
    have returns := evaluateExpression_mono ((le_max_left _ _).trans le) returns
    rw [evaluateIncidentWithRules_cons returns, ← negated, if_neg Bool.false_ne_true]
    exact evaluates fuel ((le_max_right _ _).trans le)

theorem scans_of_evaluates {fuel : Nat} {rules : List Rule} {result : Option (List UInt8)}
    (evaluates : evaluateIncidentWithRules context fuel rules = .ok result) :
    Scans context rules result := by
  induction rules with
  | nil =>
    cases evaluates
    exact .done
  | cons rule rules induction =>
    cases returns : evaluateExpression context fuel rule.expression with
    | error fault =>
      rw [evaluateIncidentWithRules, returns] at evaluates
      cases evaluates
    | ok value =>
      rw [evaluateExpression_ok returns] at returns
      rw [evaluateIncidentWithRules_cons returns] at evaluates
      by_cases matching : (if rule.negate ≠ 0 then !value.1 else value.1) = true
      · rw [if_pos matching] at evaluates
        cases evaluates
        exact .found ⟨fuel, value.1, returns, matching.symm⟩ rules
      · rw [if_neg matching] at evaluates
        refine .passed ⟨fuel, value.1, returns, ?_⟩ (induction evaluates)
        exact (Bool.eq_false_of_not_eq_true matching).symm

theorem Scans.of_append {front rules : List Rule} {result : Option (List UInt8)}
    (scans : Scans context (front ++ rules) result)
    (missing : ∀ rule ∈ front, ¬ rule.Matches context) :
    Scans context rules result := by
  induction front with
  | nil => exact scans
  | cons rule front induction =>
    cases scans with
    | found matching => exact absurd matching (missing rule (List.mem_cons_self ..))
    | passed _ scans =>
      exact induction scans fun rule member =>
        missing rule (List.mem_cons_of_mem _ member)

end Scan

section Priorities

variable (context : RuleContext) (rules : List Rule)

def HighestMatch (high : Rule) : Prop :=
  high ∈ rules ∧ high.Matches context ∧
    ∀ other ∈ rules, other.Matches context → other.priority ≤ high.priority

def LowestMatch (low : Rule) : Prop :=
  low ∈ rules ∧ low.Matches context ∧
    ∀ other ∈ rules, other.Matches context → low.priority ≤ other.priority

/-- The result is the ID of a matching rule of the greatest priority, or NULL if no
rule matches. -/
def MostImportant (result : Option (List UInt8)) : Prop :=
  (∃ high, HighestMatch context rules high ∧ result = high.id) ∨
    (∀ rule ∈ rules, ¬ rule.Matches context) ∧ result = none

/-- The rule returns, or a less important rule matches. -/
def Reachable (rule : Rule) : Prop :=
  (∃ retv, rule.Decides context retv) ∨
    ∃ other ∈ rules, other.Matches context ∧ other.priority < rule.priority

variable {context rules}

theorem lruleIsLessImportantThanRrule_eq_false_iff (lRule rRule : Rule) :
    lruleIsLessImportantThanRrule lRule rRule = false ↔ rRule.priority ≤ lRule.priority := by
  rw [lruleIsLessImportantThanRrule, decide_eq_false_iff_not, UInt32.not_lt]

theorem pairwise_mergeSort_priority (part : List Rule) :
    (part.mergeSort fun left right => left.priority ≤ right.priority).Pairwise
      fun earlier later => lruleIsLessImportantThanRrule later earlier = false := by
  refine (List.pairwise_mergeSort ?_ ?_ part).imp ?_
  · intro first second third
    simp only [decide_eq_true_eq]
    exact UInt32.le_trans
  · intro first second
    simpa using UInt32.le_total first.priority second.priority
  · intro earlier later le
    exact (lruleIsLessImportantThanRrule_eq_false_iff _ _).mpr (of_decide_eq_true le)

theorem exists_sortRuleSet {rule : Rule} (member : rule ∈ rules) :
    ∃ front back, SortRuleSet rules (front ++ rule :: back) ∧
      ∀ other ∈ front, other.priority < rule.priority := by
  let less (other : Rule) : Bool := other.priority < rule.priority
  let le (left right : Rule) : Bool := left.priority ≤ right.priority
  have inFront (other : Rule) (inFront : other ∈ ((rules.erase rule).filter less).mergeSort le) :
      other.priority < rule.priority := by
    rw [List.mem_mergeSort, List.mem_filter] at inFront
    exact of_decide_eq_true inFront.2
  have inBack (other : Rule) (inBack : other ∈ ((rules.erase rule).filter (!less ·)).mergeSort le) :
      rule.priority ≤ other.priority := by
    rw [List.mem_mergeSort, List.mem_filter] at inBack
    simpa [less] using inBack.2
  refine ⟨((rules.erase rule).filter less).mergeSort le,
    ((rules.erase rule).filter (!less ·)).mergeSort le, ⟨?_, ?_⟩, inFront⟩
  · refine List.perm_middle.trans (List.Perm.trans (.cons rule ?_)
      (List.perm_cons_erase member).symm)
    exact ((List.mergeSort_perm _ _).append (List.mergeSort_perm _ _)).trans
      (List.filter_append_perm less _)
  · simp only [List.pairwise_append, List.pairwise_cons, List.forall_mem_cons,
      lruleIsLessImportantThanRrule_eq_false_iff]
    refine ⟨?_, ⟨inBack, ?_⟩, fun other before => ⟨?_, fun later behind => ?_⟩⟩
    · simpa only [lruleIsLessImportantThanRrule_eq_false_iff] using pairwise_mergeSort_priority _
    · simpa only [lruleIsLessImportantThanRrule_eq_false_iff] using pairwise_mergeSort_priority _
    · exact UInt32.le_of_lt (inFront other before)
    · exact UInt32.le_trans (UInt32.le_of_lt (inFront other before)) (inBack later behind)

theorem scans_sorted {sorted : List Rule} (pairwise : sorted.Pairwise fun earlier later =>
      lruleIsLessImportantThanRrule later earlier = false)
    (reachable : ∀ rule ∈ sorted, Reachable context sorted rule) :
    ∃ result, Scans context sorted result ∧
      ((∃ low, LowestMatch context sorted low ∧ result = low.id) ∨
        (∀ rule ∈ sorted, ¬ rule.Matches context) ∧ result = none) := by
  induction sorted with
  | nil => exact ⟨none, .done, .inr ⟨nofun, rfl⟩⟩
  | cons rule sorted induction =>
    rw [List.pairwise_cons] at pairwise
    have first : ∀ other ∈ sorted, rule.priority ≤ other.priority := fun other member =>
        (lruleIsLessImportantThanRrule_eq_false_iff _ _).mp (pairwise.1 other member)
    rcases reachable rule (List.mem_cons_self ..) with
      ⟨retv, decides⟩ | ⟨other, member, -, lower⟩
    · cases retv with
      | true =>
        refine ⟨rule.id, .found decides sorted, .inl ⟨rule, ⟨?_, decides, ?_⟩, rfl⟩⟩
        · exact List.mem_cons_self ..
        · rw [List.forall_mem_cons]
          exact ⟨fun _ => UInt32.le_refl _, fun other member _ =>
            first other member⟩
      | false =>
        have missing : ¬ rule.Matches context := fun matching =>
          Bool.false_ne_true (decides.unique matching)
        have later (other : Rule) (member : other ∈ sorted) : Reachable context sorted other := by
          refine (reachable other (List.mem_cons_of_mem _ member)).imp_right ?_
          rintro ⟨lower, member, matching, less⟩
          rcases List.mem_cons.mp member with rfl | member
          · exact absurd matching missing
          · exact ⟨lower, member, matching, less⟩
        obtain ⟨result, scans, returns⟩ := induction pairwise.2 later
        refine ⟨result, .passed decides scans, returns.imp ?_ ?_⟩
        · rintro ⟨low, ⟨member, matching, lowest⟩, same⟩
          refine ⟨low, ⟨List.mem_cons_of_mem _ member, matching, ?_⟩, same⟩
          rw [List.forall_mem_cons]
          exact ⟨fun matching => absurd matching missing, lowest⟩
        · rintro ⟨none, same⟩
          exact ⟨List.forall_mem_cons.mpr ⟨missing, none⟩, same⟩
    · rcases List.mem_cons.mp member with rfl | member
      · exact absurd lower (UInt32.lt_irrefl _)
      · exact absurd lower (UInt32.not_lt.mpr (first other member))

theorem mem_sortRuleSet {sorted : List Rule} (sorts : SortRuleSet rules sorted)
    (rule : Rule) : rule ∈ sorted ↔ rule ∈ rules :=
  sorts.1.mem_iff

theorem scans_of_sortRuleSet {rule : Rule} (member : rule ∈ rules)
    (wins : ∀ sorted, SortRuleSet rules sorted → ∃ fuel result,
      evaluateIncidentWithRules context fuel sorted = .ok result ∧
        MostImportant context rules result)
    (lowest : ∀ other ∈ rules, other.Matches context → rule.priority ≤ other.priority) :
    ∃ back result, Scans context (rule :: back) result ∧ MostImportant context rules result := by
  obtain ⟨front, back, sorts, lower⟩ := exists_sortRuleSet member
  obtain ⟨fuel, result, evaluates, important⟩ := wins _ sorts
  refine ⟨back, result, (scans_of_evaluates evaluates).of_append ?_, important⟩
  intro other before matching
  have present : other ∈ rules := (mem_sortRuleSet sorts other).mp (List.mem_append_left _ before)
  exact absurd (lower other before) (UInt32.not_lt.mpr (lowest other present matching))

end Priorities

/-- The most important rule wins in all ways to sort a set exactly when each rule
that does not return has a less important one that matches, and the matching rules
of the lowest priority have the ID of one of the greatest. -/
theorem most_important_wins_iff (context : RuleContext) (rules : List Rule) :
    (∀ sorted, SortRuleSet rules sorted → ∃ fuel result,
      evaluateIncidentWithRules context fuel sorted = .ok result ∧
        MostImportant context rules result) ↔
    (∀ rule ∈ rules, Reachable context rules rule) ∧
    ∀ low, LowestMatch context rules low →
      ∃ high, HighestMatch context rules high ∧ low.id = high.id := by
  constructor
  · intro wins
    constructor
    · intro rule member
      by_contra unreachable
      obtain ⟨stays, noLower⟩ := not_or.mp unreachable
      obtain ⟨back, result, scans, -⟩ := scans_of_sortRuleSet member wins
        fun other present matching => UInt32.not_lt.mp fun less =>
          noLower ⟨other, present, matching, less⟩
      cases scans with
      | found matching => exact stays ⟨true, matching⟩
      | passed missing => exact stays ⟨false, missing⟩
    · rintro low ⟨member, matching, lowest⟩
      obtain ⟨back, result, scans, important⟩ :=
        scans_of_sortRuleSet member wins lowest
      cases scans with
      | passed missing => exact absurd (missing.unique matching) Bool.false_ne_true
      | found _ =>
        rcases important with highest | ⟨none, -⟩
        · exact highest
        · exact absurd matching (none low member)
  · rintro ⟨reachable, shared⟩ sorted sorts
    have same := mem_sortRuleSet sorts
    have reachable : ∀ rule ∈ sorted, Reachable context sorted rule := by
      simpa only [Reachable, same] using reachable
    obtain ⟨result, scans, returns⟩ := scans_sorted sorts.2 reachable
    obtain ⟨enough, evaluates⟩ := scans.evaluates
    refine ⟨enough, result, evaluates enough le_rfl, ?_⟩
    rcases returns with ⟨low, lowest, rfl⟩ | ⟨none, rfl⟩
    · exact .inl (shared low (by simpa only [LowestMatch, same] using lowest))
    · exact .inr ⟨by simpa only [same] using none, rfl⟩

/-- Two rules with the true expression `1`: the one of priority one wins over the
one of priority two. -/
theorem least_important_wins :
    SortRuleSet
      [⟨0, 1, ascii ['1'], some (ascii ['a'])⟩,
        ⟨0, 2, ascii ['1'], some (ascii ['b'])⟩]
      [⟨0, 1, ascii ['1'], some (ascii ['a'])⟩,
        ⟨0, 2, ascii ['1'], some (ascii ['b'])⟩] ∧
    Rule.Matches (singleContext .true 0x01000000 0 0)
      ⟨0, 2, ascii ['1'], some (ascii ['b'])⟩ ∧
    ∀ fuel, evaluateIncidentWithRules (singleContext .true 0x01000000 0 0) (fuel + 2)
      [⟨0, 1, ascii ['1'], some (ascii ['a'])⟩,
        ⟨0, 2, ascii ['1'], some (ascii ['b'])⟩] = .ok (some (ascii ['a'])) :=
  ⟨⟨.refl _, by decide⟩, ⟨2, true, rfl, rfl⟩, fun _ => rfl⟩

end MercuryFix
