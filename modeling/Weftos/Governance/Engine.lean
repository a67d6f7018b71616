import Weftos.Governance.Rules

/-! The evaluation loop of the governance engine. It is a fold that only ever raises flags, so its verdict
does not depend on the order of the rules. -/

namespace Weftos.Governance.Engine
open Rules

inductive GovernanceDecision where
  | permit
  | permitWithWarning (note : String)
  | escalateToHuman (reason : String)
  | deny (reason : String)
  deriving DecidableEq

/-- Position in the order Permit < PermitWithWarning < EscalateToHuman < Deny. -/
def GovernanceDecision.strength : GovernanceDecision → Nat
  | .permit => 0
  | .permitWithWarning _ => 1
  | .escalateToHuman _ => 2
  | .deny _ => 3

structure GovernanceResult (F : Type) where
  decision : GovernanceDecision
  evaluatedRules : List String
  effect : EffectVector F
  thresholdExceeded : Bool
  principal : Option GatePrincipal

/-- The engine's configuration. `evalAllows` is the answer its rate limiter gives
for a key at this moment. -/
structure GovernanceEngine (F : Type) where
  rules : List GovernanceRule
  riskThreshold : F
  humanApprovalRequired : Bool
  evalAllows : String → Bool
  scorer : Option (EffectVector F → F)

def GovernanceEngine.activeRules {F : Type} (engine : GovernanceEngine F) : List GovernanceRule :=
  engine.rules.filter (·.active)

/-- The local variables of the loop in `evaluate`. -/
structure Tally where
  evaluatedRules : List String := []
  hasWarning : Bool := false
  hasBlocking : Bool := false
  hardDeny : Bool := false
  needsApproval : Bool := false
  otherBlocking : Bool := false
  blockingReason : String := ""
  bindingReasonSet : Bool := false

def noteBlockingReason (slot reason : String) : String := if slot = "" then reason else slot

section
variable {F : Type} [Scalar F]

def generalReason (threshold magnitude : F) (exceeded : Bool) (rule : GovernanceRule)
    (request : GovernanceRequest F) : String :=
  if rule.forceOnMatch && !exceeded then
    s!"rule '{rule.id}': selector force-match on action '{request.action}' / tool"
  else
    s!"rule '{rule.id}': effect magnitude {Scalar.fixed2 magnitude} > threshold {Scalar.fixed2 threshold}"

variable (threshold magnitude : F) (exceeded : Bool) (request : GovernanceRequest F) (t : Tally) (rule : GovernanceRule)

def considerBrowser : Tally :=
  match applyBrowserPolicyRule rule request with
  | none => t
  | some reason =>
    if rule.severity.isBlocking then
      { t with
        hasBlocking := true
        otherBlocking := true
        hardDeny := t.hardDeny || rule.sopCategory = some OVERLAY_DENY_TAG
        blockingReason := noteBlockingReason t.blockingReason reason }
    else { t with hasWarning := true }

def considerBinding : Tally :=
  match applyBindingThreadRule rule request with
  | none => t
  | some reason =>
    match rule.severity with
    | .blocking | .critical =>
      { t with
        hasBlocking := true
        otherBlocking := true
        hardDeny := t.hardDeny || rule.sopCategory = some OVERLAY_DENY_TAG
        blockingReason := if t.bindingReasonSet then t.blockingReason else reason
        bindingReasonSet := true }
    | .warning => { t with hasWarning := true }
    | .advisory => t

def considerGeneral : Tally :=
  if exceeded || rule.forceOnMatch then
    match rule.severity with
    | .blocking | .critical =>
      let t := { t with
        hasBlocking := true
        blockingReason := noteBlockingReason t.blockingReason
          (generalReason threshold magnitude exceeded rule request) }
      if rule.sopCategory = some OVERLAY_DENY_TAG then { t with hardDeny := true }
      else if rule.sopCategory = some OVERLAY_APPROVAL_TAG then { t with needsApproval := true }
      else { t with otherBlocking := true }
    | .warning => { t with hasWarning := true }
    | .advisory => t
  else t

def considerRule : Tally :=
  if rule.selectorsMatch request then
    let t := { t with evaluatedRules := t.evaluatedRules ++ [rule.id] }
    match rule.ruleType with
    | .browserPolicy => considerBrowser request t rule
    | .bindingThread => considerBinding request t rule
    | .general => considerGeneral threshold magnitude exceeded request t rule
  else t

def GovernanceEngine.tally (engine : GovernanceEngine F) (request : GovernanceRequest F) : Tally :=
  let magnitude := request.effect.score engine.scorer
  engine.activeRules.foldl
    (considerRule engine.riskThreshold magnitude (engine.riskThreshold < magnitude) request) {}

def GovernanceEngine.evaluate (engine : GovernanceEngine F) (inst : InstanceProject)
    (request : GovernanceRequest F) : GovernanceResult F :=
  let attributed := request.resolvedPrincipal inst
  if !engine.evalAllows (evalQuotaKey request) then
    { decision := .deny
        s!"rate limited: evaluation quota exceeded for principal '{evalPrincipalKey request}'"
      evaluatedRules := []
      effect := request.effect
      thresholdExceeded := false
      principal := some attributed }
  else
    let magnitude := request.effect.score engine.scorer
    let exceeded : Bool := engine.riskThreshold < magnitude
    let t := engine.tally request
    let decision :=
      if t.hasBlocking then
        if !t.hardDeny && (engine.humanApprovalRequired || (t.needsApproval && !t.otherBlocking)) then
          .escalateToHuman t.blockingReason
        else .deny t.blockingReason
      else if exceeded && t.hasWarning then
        .permitWithWarning
          s!"effect magnitude {Scalar.fixed2 magnitude} approaches threshold {Scalar.fixed2 engine.riskThreshold}"
      else .permit
    { decision
      evaluatedRules := t.evaluatedRules
      effect := request.effect
      thresholdExceeded := exceeded
      principal := some attributed }

end

/-! ### The loop as questions about the rule list -/

structure Flags where
  warning : Bool
  blocking : Bool
  hardDeny : Bool
  approval : Bool
  other : Bool

def Tally.flags (t : Tally) : Flags :=
  ⟨t.hasWarning, t.hasBlocking, t.hardDeny, t.needsApproval, t.otherBlocking⟩

section
variable {F : Type} [Scalar F]

section
variable (exceeded : Bool)

variable (request : GovernanceRequest F)

section
variable (rule : GovernanceRule)

/-- Whether a selected rule takes effect; only general rules look at the threshold. -/
def fires : Bool :=
  match rule.ruleType with
  | .browserPolicy => (applyBrowserPolicyRule rule request).isSome
  | .bindingThread => (applyBindingThreadRule rule request).isSome
  | .general => exceeded || rule.forceOnMatch

def applies : Bool :=
  rule.active && rule.selectorsMatch request && fires exceeded request rule

def blocks : Bool :=
  applies exceeded request rule && rule.severity.isBlocking

/-- A rule that only warns: the browser path counts every other severity. -/
def warns : Bool :=
  applies exceeded request rule &&
    (match rule.ruleType with
      | .browserPolicy => !rule.severity.isBlocking
      | .bindingThread | .general => rule.severity = .warning)

def deniesHard : Bool :=
  blocks exceeded request rule && rule.sopCategory = some OVERLAY_DENY_TAG

def asksApproval : Bool :=
  blocks exceeded request rule && rule.ruleType = .general && rule.sopCategory = some OVERLAY_APPROVAL_TAG

def blocksOtherwise : Bool :=
  blocks exceeded request rule && (rule.ruleType ≠ .general ||
    (rule.sopCategory ≠ some OVERLAY_DENY_TAG && rule.sopCategory ≠ some OVERLAY_APPROVAL_TAG))

end

def flagsOf (rules : List GovernanceRule) : Flags :=
  ⟨rules.any (warns exceeded request), rules.any (blocks exceeded request),
    rules.any (deniesHard exceeded request), rules.any (asksApproval exceeded request),
    rules.any (blocksOtherwise exceeded request)⟩

end

def Flags.clear : Flags := ⟨false, false, false, false, false⟩

def Flags.or (first second : Flags) : Flags :=
  ⟨first.warning || second.warning, first.blocking || second.blocking, first.hardDeny || second.hardDeny,
    first.approval || second.approval, first.other || second.other⟩

@[simp] theorem Flags.or_clear (flags : Flags) : flags.or .clear = flags := by
  simp [Flags.or, Flags.clear]

theorem Flags.or_assoc (first second third : Flags) :
    (first.or second).or third = first.or (second.or third) := by
  simp [Flags.or, Bool.or_assoc]

def raised (rule : GovernanceRule) : Flags where
  warning := match rule.ruleType with
    | .browserPolicy => !rule.severity.isBlocking
    | .bindingThread | .general => rule.severity = .warning
  blocking := rule.severity.isBlocking
  hardDeny := rule.severity.isBlocking && rule.sopCategory = some OVERLAY_DENY_TAG
  approval := rule.severity.isBlocking && rule.ruleType = .general &&
    rule.sopCategory = some OVERLAY_APPROVAL_TAG
  other := rule.severity.isBlocking && (rule.ruleType ≠ .general ||
    (rule.sopCategory ≠ some OVERLAY_DENY_TAG && rule.sopCategory ≠ some OVERLAY_APPROVAL_TAG))

section
variable (threshold magnitude : F) (exceeded : Bool) (request : GovernanceRequest F) (t : Tally) (rule : GovernanceRule)
  (rules : List GovernanceRule)

theorem flagsOf_singleton :
    flagsOf exceeded request [rule] = if applies exceeded request rule then raised rule else .clear := by
  cases inForce : applies exceeded request rule <;>
    simp [flagsOf, warns, blocks, deniesHard, asksApproval, blocksOtherwise, inForce, raised, Flags.clear]

theorem flagsOf_cons : flagsOf exceeded request (rule :: rules) =
    (flagsOf exceeded request [rule]).or (flagsOf exceeded request rules) := by
  simp [flagsOf, Flags.or]

theorem tags_differ : OVERLAY_DENY_TAG ≠ OVERLAY_APPROVAL_TAG := by decide

omit [Scalar F] in
theorem considerBrowser_flags (kind : rule.ruleType = .browserPolicy) :
    (considerBrowser request t rule).flags =
      t.flags.or (if (applyBrowserPolicyRule rule request).isSome then raised rule else .clear) := by
  cases outcome : applyBrowserPolicyRule rule request with
  | none => simp [considerBrowser, outcome]
  | some reason =>
    cases severity : rule.severity.isBlocking <;>
      simp [considerBrowser, outcome, severity, raised, kind, Flags.or, Tally.flags]

theorem considerBinding_flags (kind : rule.ruleType = .bindingThread) :
    (considerBinding request t rule).flags =
      t.flags.or (if (applyBindingThreadRule rule request).isSome then raised rule else .clear) := by
  cases outcome : applyBindingThreadRule rule request with
  | none => simp [considerBinding, outcome]
  | some reason =>
    cases severity : rule.severity <;>
      simp [considerBinding, outcome, severity, raised, kind, Flags.or, Tally.flags, RuleSeverity.isBlocking]

theorem considerGeneral_flags (kind : rule.ruleType = .general) :
    (considerGeneral threshold magnitude exceeded request t rule).flags =
      t.flags.or (if exceeded || rule.forceOnMatch then raised rule else .clear) := by
  cases effective : exceeded || rule.forceOnMatch with
  | false => simp [considerGeneral, effective]
  | true =>
    -- only a blocking severity looks at the tag
    by_cases denied : rule.sopCategory = some OVERLAY_DENY_TAG
    · cases severity : rule.severity <;>
        simp [considerGeneral, effective, severity, denied, raised, kind, Flags.or, Tally.flags,
          RuleSeverity.isBlocking, tags_differ]
    · by_cases asked : rule.sopCategory = some OVERLAY_APPROVAL_TAG
      · cases severity : rule.severity <;>
          simp [considerGeneral, effective, severity, asked, raised, kind, Flags.or, Tally.flags,
            RuleSeverity.isBlocking, tags_differ.symm]
      · cases severity : rule.severity <;>
          simp [considerGeneral, effective, severity, denied, asked, raised, kind, Flags.or, Tally.flags,
            RuleSeverity.isBlocking]

theorem considerRule_flags (active : rule.active = true) :
    (considerRule threshold magnitude exceeded request t rule).flags =
      t.flags.or (flagsOf exceeded request [rule]) := by
  rw [flagsOf_singleton]
  by_cases selected : rule.selectorsMatch request = true
  · have inForce : applies exceeded request rule = fires exceeded request rule := by
      simp [applies, active, selected]
    rw [inForce]
    unfold considerRule fires
    rw [if_pos selected]
    cases kind : rule.ruleType with
    | general => exact considerGeneral_flags threshold magnitude exceeded request _ rule kind
    | browserPolicy => exact considerBrowser_flags request _ rule kind
    | bindingThread => exact considerBinding_flags request _ rule kind
  · simp [considerRule, selected, applies]

theorem foldl_considerRule_flags (active : ∀ rule ∈ rules, rule.active = true) :
    (rules.foldl (considerRule threshold magnitude exceeded request) t).flags =
      t.flags.or (flagsOf exceeded request rules) := by
  induction rules generalizing t with
  | nil => simp [flagsOf, Flags.or]
  | cons rule rest ih =>
    have restActive : ∀ other ∈ rest, other.active = true :=
      fun other listed => active other (List.mem_cons_of_mem rule listed)
    rw [List.foldl_cons, ih _ restActive,
      considerRule_flags threshold magnitude exceeded request t rule (active rule List.mem_cons_self),
      flagsOf_cons exceeded request rule rest, Flags.or_assoc]

theorem flagsOf_active : flagsOf exceeded request (rules.filter (·.active)) = flagsOf exceeded request rules := by
  induction rules with
  | nil => rfl
  | cons rule rest ih =>
    rw [flagsOf_cons]
    by_cases active : rule.active = true
    · rw [List.filter_cons_of_pos active, flagsOf_cons, ih]
    · rw [List.filter_cons_of_neg active, ih, flagsOf_singleton]
      simp [applies, active, Flags.or, Flags.clear]

end

def GovernanceEngine.exceeds (engine : GovernanceEngine F) (request : GovernanceRequest F) : Bool :=
  engine.riskThreshold < request.effect.score engine.scorer

theorem tally_flags (engine : GovernanceEngine F) (request : GovernanceRequest F) :
    (engine.tally request).flags = flagsOf (engine.exceeds request) request engine.rules := by
  unfold GovernanceEngine.tally GovernanceEngine.activeRules
  rw [foldl_considerRule_flags, flagsOf_active]
  · simp [Flags.or, Tally.flags, GovernanceEngine.exceeds]
  · intro rule listed
    exact (List.mem_filter.mp listed).2

end

def Flags.escalates (human : Bool) (flags : Flags) : Bool :=
  !flags.hardDeny && (human || (flags.approval && !flags.other))

def verdict (human exceeded : Bool) (flags : Flags) : Nat :=
  if flags.blocking then
    if flags.escalates human then 2 else 3
  else if exceeded && flags.warning then 1 else 0

section
variable {F : Type} [Scalar F] {exceeded : Bool} {request : GovernanceRequest F} {rule : GovernanceRule}
  {rules : List GovernanceRule}

theorem blocks_graded (blocking : blocks exceeded request rule = true) :
    deniesHard exceeded request rule = true ∨ asksApproval exceeded request rule = true ∨
      blocksOtherwise exceeded request rule = true := by
  by_cases general : rule.ruleType = .general
  · by_cases denied : rule.sopCategory = some OVERLAY_DENY_TAG
    · exact .inl (by simp [deniesHard, blocking, denied])
    · by_cases asked : rule.sopCategory = some OVERLAY_APPROVAL_TAG
      · exact .inr (.inl (by simp [asksApproval, blocking, general, asked]))
      · exact .inr (.inr (by simp [blocksOtherwise, blocking, denied, asked]))
  · exact .inr (.inr (by simp [blocksOtherwise, blocking, general]))

/-- A block that is neither a hard deny nor escalated is due to a rule that no
approval softens. -/
theorem exists_standing_block (blocked : (flagsOf exceeded request rules).blocking = true)
    (soft : (flagsOf exceeded request rules).hardDeny = false)
    (denied : (flagsOf exceeded request rules).escalates human = false) :
    human = false ∧ ∃ rule ∈ rules, blocksOtherwise exceeded request rule = true := by
  simp only [Flags.escalates, soft, Bool.not_false, Bool.true_and, Bool.or_eq_false_iff,
    Bool.and_eq_false_iff, Bool.not_eq_false'] at denied
  obtain ⟨silent, stands⟩ := denied
  refine ⟨silent, ?_⟩
  obtain ⟨rule, listed, blocking⟩ := List.any_eq_true.mp blocked
  rcases blocks_graded blocking with hard | asked | other
  · rw [flagsOf, List.any_eq_false] at soft
    exact absurd hard (soft rule listed)
  · rcases stands with quiet | other
    · rw [flagsOf, List.any_eq_false] at quiet
      exact absurd asked (quiet rule listed)
    · exact List.any_eq_true.mp other
  · exact ⟨rule, listed, other⟩

end

/-- Between two engines of which the second keeps the first one's blocks and
warnings, only an escalation of a denied request weakens the verdict. -/
theorem verdict_le_iff (blocking : flags.blocking = true → flags'.blocking = true)
    (warning : exceeded = true → flags.warning = true → exceeded' = true ∧ flags'.warning = true) :
    verdict human exceeded flags ≤ verdict human' exceeded' flags' ↔
      ¬ (flags.blocking = true ∧ flags.escalates human = false ∧ flags'.escalates human' = true) := by
  unfold verdict
  by_cases blocked : flags.blocking = true
  · rw [if_pos blocked, if_pos (blocking blocked)]
    cases flags.escalates human <;> cases flags'.escalates human' <;> simp [blocked]
  · rw [if_neg blocked]
    have weak : (if (exceeded && flags.warning) = true then 1 else 0) ≤
        if flags'.blocking = true then (if flags'.escalates human' = true then 2 else 3)
        else if (exceeded' && flags'.warning) = true then 1 else 0 := by
      by_cases warned : exceeded = true ∧ flags.warning = true
      · obtain ⟨above, still⟩ := warning warned.1 warned.2
        simp only [warned.1, warned.2, above, still, Bool.and_self, if_true]
        split_ifs <;> decide
      · have quiet : (exceeded && flags.warning) = false := by
          simpa only [← Bool.and_eq_true, Bool.not_eq_true] using warned
        simp [quiet]
    exact ⟨fun _ cause => blocked cause.1, fun _ => weak⟩

theorem evaluate_strength {F : Type} [Scalar F] (engine : GovernanceEngine F) (inst : InstanceProject)
    (request : GovernanceRequest F) (allowed : engine.evalAllows (evalQuotaKey request) = true) :
    (engine.evaluate inst request).decision.strength =
      verdict engine.humanApprovalRequired (engine.exceeds request)
        (flagsOf (engine.exceeds request) request engine.rules) := by
  rw [← tally_flags]
  simp only [GovernanceEngine.evaluate, allowed, verdict, Flags.escalates, Tally.flags, GovernanceEngine.exceeds,
    Bool.not_true, Bool.false_eq_true, if_false, apply_ite GovernanceDecision.strength]
  rfl

end Weftos.Governance.Engine
