import Weftos.Governance.Engine
import Weftos.Governance.Merge

/-! An overlay against its parent policy: on which requests the merged engine
answers at least as strictly as the parent's own engine. -/

namespace Weftos.Governance.Tighten
open Lib.Outcome Project.Canon
open Rules Engine Policy Merge List

variable {weak strong exceeded : Bool} {rule : GovernanceRule}

section
variable {F : Type} [Scalar F] {request : GovernanceRequest F} {scorer : Option (EffectVector F → F)}

def parentEngine (parent : ParentPolicy F) (allows : String → Bool) (scorer : Option (EffectVector F → F)) :
    GovernanceEngine F :=
  ⟨parent.rules, parentThreshold parent, parent.limits.humanApprovalRequired.getD false, allows, scorer⟩

def childEngine (e : Effective F) (allows : String → Bool) (scorer : Option (EffectVector F → F)) :
    GovernanceEngine F :=
  ⟨e.rules, e.riskThreshold DEFAULT_RISK_THRESHOLD, e.humanApproval false, allows, scorer⟩

/-! ### Rule by rule -/

section
variable (stricter : weak = true → strong = true)
include stricter

theorem applies_mono (inForce : applies weak request rule = true) :
    applies strong request rule = true := by
  simp only [applies, fires, Bool.and_eq_true] at inForce ⊢
  obtain ⟨inScope, effect⟩ := inForce
  refine ⟨inScope, ?_⟩
  cases kind : rule.ruleType with
  | general =>
    simp only [kind, Bool.or_eq_true] at effect ⊢
    exact effect.imp_left stricter
  | browserPolicy | bindingThread => simpa only [kind] using effect

theorem blocks_mono (blocking : blocks weak request rule = true) :
    blocks strong request rule = true := by
  simp only [blocks, Bool.and_eq_true] at blocking ⊢
  exact ⟨applies_mono stricter blocking.1, blocking.2⟩

theorem warns_mono (warning : warns weak request rule = true) :
    warns strong request rule = true := by
  simp only [warns, Bool.and_eq_true] at warning ⊢
  exact ⟨applies_mono stricter warning.1, warning.2⟩

end

section
variable (exceeded : Bool) (request : GovernanceRequest F) (rule : GovernanceRule)

theorem applies_retag : applies exceeded request (retag rule) = applies exceeded request rule := by
  unfold retag
  split_ifs <;> rfl

theorem blocks_retag : blocks exceeded request (retag rule) = blocks exceeded request rule := by
  rw [blocks, applies_retag]
  unfold retag
  split_ifs <;> rfl

theorem warns_retag : warns exceeded request (retag rule) = warns exceeded request rule := by
  rw [warns, applies_retag]
  unfold retag
  split_ifs <;> rfl

end

theorem retag_sopCategory_of_blocking (severity : rule.severity.isBlocking = true)
    (untagged : rule.sopCategory ≠ some OVERLAY_APPROVAL_TAG) : (retag rule).sopCategory = some OVERLAY_DENY_TAG := by
  simp [retag, severity, untagged]

theorem retag_sopCategory_of_approval (tagged : rule.sopCategory = some OVERLAY_APPROVAL_TAG) : retag rule = rule := by
  simp [retag, tagged]

theorem deniesHard_selectorRule (exceeded : Bool) (request : GovernanceRequest F) (id glob reason : String) :
    deniesHard exceeded request (selectorRule id glob reason .blocking OVERLAY_DENY_TAG) =
      selectorMatches glob request.action := by
  simp [deniesHard, blocks, applies, fires, selectorRule, GovernanceRule.selectorsMatch,
    RuleSeverity.isBlocking]

theorem blocks_special (special : rule.ruleType ≠ .general) (weak strong : Bool) (request : GovernanceRequest F) :
    blocks weak request rule = blocks strong request rule := by
  unfold blocks applies fires
  cases kind : rule.ruleType with
  | general => exact absurd kind special
  | browserPolicy => rfl
  | bindingThread => rfl

/-! ### The whole rule list -/

section
variable {parent : ParentPolicy F} {overlay : Overlay F} {e : Effective F} (merged : Tightened parent overlay e)
include merged

theorem kept_any (blind : ∀ rule, asks (retag rule) = asks rule)
    (listed : rule ∈ parent.rules) (asked : asks rule = true) : e.rules.any asks = true := by
  apply any_eq_true.mpr
  rw [merged.rules]
  split_ifs
  · exact ⟨retag rule, mem_append_left _ (mem_map_of_mem listed), by rwa [blind]⟩
  · exact ⟨rule, mem_append_left _ listed, asked⟩

/-- Where the overlay raises the approval flag, the merged engine denies outright on the parent's own untagged
blocks and on the overlay's denied actions. -/
theorem hardDeny_raised (raises : raisesApproval parent e.limits = true) (exceeded : Bool)
    (request : GovernanceRequest F) :
    (flagsOf exceeded request e.rules).hardDeny = true ↔
      (∃ rule ∈ parent.rules, blocks exceeded request rule = true ∧
          rule.sopCategory ≠ some OVERLAY_APPROVAL_TAG) ∨
        ∃ d ∈ overlay.file.deny, ∃ glob ∈ d.actions, selectorMatches glob request.action = true := by
  have rules := merged.rules
  rw [if_pos raises] at rules
  constructor
  · intro denied
    obtain ⟨rule, listed, hard⟩ := any_eq_true.mp denied
    rw [rules, mem_append, mem_append] at listed
    rcases listed with kept | added | added
    · obtain ⟨original, member, rfl⟩ := mem_map.mp kept
      simp only [deniesHard, blocks_retag, Bool.and_eq_true, decide_eq_true_eq] at hard
      refine .inl ⟨original, member, hard.1, fun tagged => ?_⟩
      rw [retag_sopCategory_of_approval tagged, tagged] at hard
      exact tags_differ (Option.some.inj hard.2).symm
    · obtain ⟨d, entry, glob, action, id, reason, rfl⟩ := mem_denyRules added
      rw [deniesHard_selectorRule] at hard
      exact .inr ⟨d, entry, glob, action, hard⟩
    · have tag := mem_approvalRulesFrom added
      simp only [deniesHard, tag, Bool.and_eq_true, decide_eq_true_eq] at hard
      exact absurd (Option.some.inj hard.2).symm tags_differ
  · intro cause
    apply any_eq_true.mpr
    rw [rules]
    rcases cause with ⟨rule, member, blocking, untagged⟩ | ⟨d, entry, glob, action, selected⟩
    · refine ⟨retag rule, mem_append_left _ (mem_map_of_mem member), ?_⟩
      have severity : rule.severity.isBlocking = true := by
        simp only [blocks, Bool.and_eq_true] at blocking
        exact blocking.2
      simp only [deniesHard, blocks_retag, blocking, retag_sopCategory_of_blocking severity untagged,
        decide_true, Bool.and_self]
    · obtain ⟨id, reason, member⟩ := denyRules_covers entry action
      exact ⟨_, mem_append_right _ (mem_append_left _ member), by rwa [deniesHard_selectorRule]⟩

theorem not_hardDeny_raised (raises : raisesApproval parent e.limits = true) (exceeded : Bool)
    (request : GovernanceRequest F) :
    (flagsOf exceeded request e.rules).hardDeny = false ↔
      (∀ rule ∈ parent.rules, blocks exceeded request rule = true →
          rule.sopCategory = some OVERLAY_APPROVAL_TAG) ∧
        ∀ d ∈ overlay.file.deny, ∀ glob ∈ d.actions, selectorMatches glob request.action = false := by
  rw [← Bool.not_eq_true, hardDeny_raised merged raises]
  simp only [not_or, not_exists, not_and, not_not, ne_eq, Bool.not_eq_true]

theorem kept_unraised (unraised : raisesApproval parent e.limits = false) (listed : rule ∈ parent.rules) :
    rule ∈ e.rules := by
  rw [merged.rules, unraised]
  exact mem_append_left _ listed

theorem kept_hardDeny (stricter : weak = true → strong = true)
    (denied : (flagsOf weak request parent.rules).hardDeny = true) :
    (flagsOf strong request e.rules).hardDeny = true := by
  obtain ⟨rule, listed, hard⟩ := any_eq_true.mp denied
  simp only [deniesHard, Bool.and_eq_true, decide_eq_true_eq] at hard
  obtain ⟨blocking, tag⟩ := hard
  cases raised : raisesApproval parent e.limits with
  | true =>
    have untagged : rule.sopCategory ≠ some OVERLAY_APPROVAL_TAG := by
      rw [tag]
      exact fun same => tags_differ (Option.some.inj same)
    exact (hardDeny_raised merged raised strong request).mpr
      (.inl ⟨rule, listed, blocks_mono stricter blocking, untagged⟩)
  | false =>
    refine any_eq_true.mpr ⟨rule, kept_unraised merged raised listed, ?_⟩
    simp [deniesHard, blocks_mono stricter blocking, tag]

end

/-! ### Comparing the two engines -/

section
variable (parent : ParentPolicy F) (overlay : Overlay F) (request : GovernanceRequest F)
  (scorer : Option (EffectVector F → F))

def exceedsLowered : Bool :=
  overlay.file.limits.riskThreshold.getD (parentThreshold parent) < request.effect.score scorer

/-- The overlay raises the approval flag, a browser or binding-thread rule of the parent with the approval tag
blocks the request, and nothing else does. -/
def Softened : Prop :=
  overlay.file.limits.humanApprovalRequired = some true ∧
  parent.limits.humanApprovalRequired ≠ some true ∧
  (∃ rule ∈ parent.rules, rule.ruleType ≠ .general ∧ rule.sopCategory = some OVERLAY_APPROVAL_TAG ∧
    blocks (exceedsLowered parent overlay request scorer) request rule = true) ∧
  (∀ rule ∈ parent.rules, blocks (exceedsLowered parent overlay request scorer) request rule = true →
    rule.sopCategory = some OVERLAY_APPROVAL_TAG) ∧
  ∀ d ∈ overlay.file.deny, ∀ glob ∈ d.actions, selectorMatches glob request.action = false

instance : Decidable (Softened parent overlay request scorer) :=
  inferInstanceAs (Decidable (_ ∧ _ ∧ _ ∧ _ ∧ _))

end

section
variable {parent : ParentPolicy F} {overlay : Overlay F} {e : Effective F}

theorem getD_false_iff (flag : Option Bool) : flag.getD false = true ↔ flag = some true := by
  rcases flag with _ | _ | _ <;> simp

section
variable (merged : Tightened parent overlay e)
include merged

theorem raisesApproval_iff :
    raisesApproval parent e.limits = true ↔
      overlay.file.limits.humanApprovalRequired = some true ∧
        parent.limits.humanApprovalRequired ≠ some true := by
  have human := merged.human
  simp only [raisesApproval, Bool.and_eq_true, decide_eq_true_eq, ← getD_false_iff, ne_eq, human,
    Bool.or_eq_true]
  tauto

variable (allows : String → Bool)

theorem childEngine_exceeds (scorer : Option (EffectVector F → F)) (request : GovernanceRequest F) :
    (childEngine e allows scorer).exceeds request = exceedsLowered parent overlay request scorer := by
  simp [GovernanceEngine.exceeds, childEngine, Effective.riskThreshold, merged.threshold, exceedsLowered]

theorem exceeds_lowered (scorer : Option (EffectVector F → F)) (request : GovernanceRequest F)
    (above : (parentEngine parent allows scorer).exceeds request = true) :
    exceedsLowered parent overlay request scorer = true :=
  decide_eq_true (lt_of_le_of_lt merged.threshold_le (of_decide_eq_true above))

/-- If the merged engine escalates what the parent's denies, the overlay raised the flag
and a rule of the parent stands that no approval of the parent's softens. -/
theorem softened_of_escalated (stricter : weak = true → exceedsLowered parent overlay request scorer = true)
    (blocked : (flagsOf weak request parent.rules).blocking = true)
    (denied : (flagsOf weak request parent.rules).escalates (parent.limits.humanApprovalRequired.getD false) = false)
    (escalated : (flagsOf (exceedsLowered parent overlay request scorer) request e.rules).escalates
      (e.humanApproval false) = true) :
    Softened parent overlay request scorer := by
  simp only [Flags.escalates, Bool.and_eq_true, Bool.not_eq_true', Bool.or_eq_true] at escalated
  obtain ⟨soft, asks⟩ := escalated
  have softParent : (flagsOf weak request parent.rules).hardDeny = false := by
    by_contra hard
    rw [kept_hardDeny merged stricter (Bool.eq_true_of_not_eq_false hard)] at soft
    cases soft
  obtain ⟨parentFlag, rule, listed, standing⟩ := exists_standing_block blocked softParent denied
  simp only [blocksOtherwise, Bool.and_eq_true] at standing
  have blocking := blocks_mono stricter standing.1
  have raised : raisesApproval parent e.limits = true := by
    rcases asks with flag | ⟨_, quiet⟩
    · rw [Effective.humanApproval, merged.human, parentFlag, Bool.false_or] at flag
      refine (raisesApproval_iff merged).mpr ⟨(getD_false_iff _).mp flag, fun asked => ?_⟩
      rw [asked] at parentFlag
      cases parentFlag
    · -- without the flag the standing rule is in the merged list and blocks there too
      by_contra unraised
      have kept := kept_unraised merged (Bool.eq_false_of_not_eq_true unraised) listed
      rw [flagsOf, any_eq_false] at quiet
      exact quiet rule kept (by rw [blocksOtherwise, blocking, standing.2]; rfl)
  obtain ⟨overlayAsks, parentSilent⟩ := (raisesApproval_iff merged).mp raised
  obtain ⟨onlyTagged, noDeny⟩ := (not_hardDeny_raised merged raised _ request).mp soft
  have tagged := onlyTagged rule listed blocking
  refine ⟨overlayAsks, parentSilent, ⟨rule, listed, ?_, tagged, blocking⟩, onlyTagged, noDeny⟩
  simp only [tagged, Bool.or_eq_true, Bool.and_eq_true, decide_eq_true_eq, ne_eq, not_true_eq_false,
    and_false, or_false] at standing
  exact standing.2

theorem escalated_of_softened (softened : Softened parent overlay request scorer) (weak : Bool) :
    (flagsOf weak request parent.rules).blocking = true ∧
      (flagsOf weak request parent.rules).escalates (parent.limits.humanApprovalRequired.getD false) = false ∧
      (flagsOf (exceedsLowered parent overlay request scorer) request e.rules).escalates
        (e.humanApproval false) = true := by
  obtain ⟨overlayAsks, parentSilent, ⟨rule, listed, special, tagged, blocking⟩, onlyTagged, noDeny⟩ := softened
  have raised := (raisesApproval_iff merged).mpr ⟨overlayAsks, parentSilent⟩
  have soft := (not_hardDeny_raised merged raised _ request).mpr ⟨onlyTagged, noDeny⟩
  have blockingWeak : blocks weak request rule = true := by rwa [blocks_special special weak]
  have other : (flagsOf weak request parent.rules).other = true :=
    any_eq_true.mpr ⟨rule, listed, by simp [blocksOtherwise, blockingWeak, special]⟩
  have parentFlag : parent.limits.humanApprovalRequired.getD false = false :=
    Bool.eq_false_of_not_eq_true fun flag => parentSilent ((getD_false_iff _).mp flag)
  have childFlag : e.humanApproval false = true := by
    rw [Effective.humanApproval, merged.human, overlayAsks]
    simp
  refine ⟨any_eq_true.mpr ⟨rule, listed, blockingWeak⟩, ?_, ?_⟩
  · simp [Flags.escalates, other, parentFlag]
  · simp [Flags.escalates, soft, childFlag]

end

end

/-- The merged engine answers at least as strictly as the parent's on every request
except the softened ones, and on those it asks a human where the parent denies. -/
theorem overlay_tightens_iff (host : External) (parent : ParentPolicy F) (overlay : Overlay F) (e : Effective F)
    (accepted : merge host parent overlay = .ok e) (inst : InstanceProject) (scorer : Option (EffectVector F → F))
    (allows allows' : String → Bool) (request : GovernanceRequest F) (allowed : allows (evalQuotaKey request) = true)
    (allowed' : allows' (evalQuotaKey request) = true) :
    ((parentEngine parent allows scorer).evaluate inst request).decision.strength ≤
        ((childEngine e allows' scorer).evaluate inst request).decision.strength ↔
      ¬ Softened parent overlay request scorer := by
  have merged := merge_tightened accepted
  have stricter := exceeds_lowered merged allows scorer request
  rw [evaluate_strength (parentEngine parent allows scorer) inst request allowed,
    evaluate_strength (childEngine e allows' scorer) inst request allowed',
    childEngine_exceeds merged, verdict_le_iff]
  · refine not_congr ⟨?_, fun softened => escalated_of_softened merged softened _⟩
    rintro ⟨blocked, denied, escalated⟩
    exact softened_of_escalated merged stricter blocked denied escalated
  · intro blocked
    obtain ⟨rule, listed, blocking⟩ := any_eq_true.mp blocked
    exact kept_any merged (blocks_retag _ _) listed (blocks_mono stricter blocking)
  · intro above warned
    obtain ⟨rule, listed, warning⟩ := any_eq_true.mp warned
    exact ⟨stricter above, kept_any merged (warns_retag _ _) listed (warns_mono stricter warning)⟩

/-- Past the rate limiter, more active rules never make the decision weaker, and their order does not change its
kind. -/
theorem evaluate_mono (engine : GovernanceEngine F) (inst : InstanceProject) (request : GovernanceRequest F)
    (allowed : engine.evalAllows (evalQuotaKey request) = true) (first second : List GovernanceRule)
    (fewer : (first.filter (·.active)).Subperm (second.filter (·.active))) :
    let strength (rules : List GovernanceRule) :=
      ({ engine with rules := rules }.evaluate inst request).decision.strength
    strength first ≤ strength second ∧
      ((first.filter (·.active)).Perm (second.filter (·.active)) → strength first = strength second) := by
  intro strength
  have scored (rules : List GovernanceRule) : strength rules = verdict engine.humanApprovalRequired
      (engine.exceeds request) (flagsOf (engine.exceeds request) request (rules.filter (·.active))) := by
    rw [flagsOf_active]
    exact evaluate_strength { engine with rules := rules } inst request allowed
  have grows {less more : List GovernanceRule} (subset : less.filter (·.active) ⊆ more.filter (·.active)) :
      strength less ≤ strength more := by
    have raises {asks : GovernanceRule → Bool} (yes : (less.filter (·.active)).any asks = true) :
        (more.filter (·.active)).any asks = true := by
      obtain ⟨rule, listed, asked⟩ := any_eq_true.mp yes
      exact any_eq_true.mpr ⟨rule, subset listed, asked⟩
    rw [scored, scored, verdict_le_iff raises fun above => (⟨above, raises ·⟩)]
    rintro ⟨blocked, denied, escalated⟩
    -- what denies outright with the fewer rules does so with the more
    simp only [Flags.escalates, Bool.and_eq_true, Bool.not_eq_true', Bool.or_eq_true] at escalated
    obtain ⟨soft, asks⟩ := escalated
    have softLess : (flagsOf (engine.exceeds request) request (less.filter (·.active))).hardDeny = false :=
      Bool.eq_false_of_not_eq_true fun hard => absurd (raises hard) (Bool.not_eq_true _ ▸ soft)
    obtain ⟨silent, rule, listed, standing⟩ := exists_standing_block blocked softLess denied
    rcases asks with human | ⟨_, quiet⟩
    · rw [silent] at human
      cases human
    · exact absurd (raises (any_eq_true.mpr ⟨rule, listed, standing⟩)) (Bool.not_eq_true _ ▸ quiet)
  exact ⟨grows fewer.subset, fun perm => le_antisymm (grows perm.subset) (grows perm.symm.subset)⟩

end

/-! ### A browser rule that carries the approval tag -/

def taggedBrowserRule : GovernanceRule where
  id := "BP-001"
  description := "browser nodes stay on public topics"
  branch := .executive
  severity := .blocking
  active := true
  referenceUrl := none
  sopCategory := some OVERLAY_APPROVAL_TAG
  ruleType := .browserPolicy
  actionSelector := none
  toolSelector := none
  forceOnMatch := false

def taggedBrowserPolicy : ParentPolicy ℚ where
  schema := PARENT_SCHEMA
  userKeyId := "user"
  version := 1
  issuedAt := "2026-01-01T00:00:00Z"
  rules := [taggedBrowserRule]
  limits := {}
  ruleHash := ""
  sig := ""

def approvalOverlay : Overlay ℚ :=
  Overlay.fromFile .plain { limits := { humanApprovalRequired := some true } }

def browserPublish : GovernanceRequest ℚ where
  agentId := "tab-1"
  action := "ipc.publish"
  effect := ⟨0, 0, 0, 0, 0⟩
  context := [("platform", "browser"), ("topic", "internal.audit")]
  nodeId := none
  principal := none

def browserReason : String :=
  "browser_policy 'BP-001': browser nodes may only access public topics (got 'internal.audit')"

/-- The flag the overlay raises turns the parent's denial into a question. -/
theorem approval_flag_softens_browser_deny :
    ∃ e, merge .plain taggedBrowserPolicy approvalOverlay = .ok e ∧
      ((parentEngine taggedBrowserPolicy (fun _ => true) none).evaluate none browserPublish).decision =
        .deny browserReason ∧
      ((childEngine e (fun _ => true) none).evaluate none browserPublish).decision =
        .escalateToHuman browserReason := by
  decide +kernel

def untaggedBrowserPolicy : ParentPolicy ℚ :=
  { taggedBrowserPolicy with rules := [{ taggedBrowserRule with sopCategory := none }] }

theorem approval_flag_keeps_untagged_deny :
    ∃ e, merge .plain untaggedBrowserPolicy approvalOverlay = .ok e ∧
      ((parentEngine untaggedBrowserPolicy (fun _ => true) none).evaluate none
          browserPublish).decision.strength ≤
        ((childEngine e (fun _ => true) none).evaluate none browserPublish).decision.strength := by
  have outcome : ∃ e, merge .plain untaggedBrowserPolicy approvalOverlay = .ok e ∧ True := by decide +kernel
  obtain ⟨e, accepted, -⟩ := outcome
  refine ⟨e, accepted, ?_⟩
  exact (overlay_tightens_iff .plain untaggedBrowserPolicy approvalOverlay e accepted none none
    (fun _ => true) (fun _ => true) browserPublish rfl rfl).mpr (by decide +kernel)

def approvalRule : GovernanceRule :=
  { taggedBrowserRule with ruleType := .general, forceOnMatch := true }

theorem evaluate_mono_browser :
    ({ parentEngine taggedBrowserPolicy (fun _ => true) none with rules := [approvalRule] }.evaluate none
        browserPublish).decision.strength ≤
      ({ parentEngine taggedBrowserPolicy (fun _ => true) none with
          rules := [taggedBrowserRule, approvalRule] }.evaluate none browserPublish).decision.strength :=
  (evaluate_mono (parentEngine taggedBrowserPolicy (fun _ => true) none) none browserPublish rfl [approvalRule]
    [taggedBrowserRule, approvalRule] (sublist_cons_self _ _).subperm).1

end Weftos.Governance.Tighten
