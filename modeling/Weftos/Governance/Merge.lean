import Weftos.Governance.Policy

/-! The kernel side of the overlay merge (`governance_overlay.rs`): one effective
rule set from the user's parent policy and the project's overlay. -/

namespace Weftos.Governance.Merge
open Lib.Bytes Lib.Text Lib.Outcome Project.Canon
open Rules Policy List
open Overlay (Limits OverlayFile OverlayDeny OverlayApproval ParentView)

structure Effective (F : Type) where
  rules : List GovernanceRule
  limits : Limits F
  denyActions : List String
  requireApprovalActions : List String
  parentHash : Digest
  overlayHash : Digest
  effectiveHash : Digest
  parentVersion : UInt64

section
variable {F : Type}

def Effective.riskThreshold (e : Effective F) (default : F) : F := e.limits.riskThreshold.getD default

def Effective.humanApproval (e : Effective F) (default : Bool) : Bool :=
  e.limits.humanApprovalRequired.getD default

end

def DEFAULT_RISK_THRESHOLD {F : Type} [Scalar F] : F := Scalar.ofRat (7 / 10)

/-! ### Overlay rules -/

def selectorRule (id glob reason : String) (severity : RuleSeverity) (tag : String) : GovernanceRule where
  id := id
  description := reason
  branch := .judicial
  severity := severity
  active := true
  referenceUrl := none
  sopCategory := some tag
  ruleType := .general
  actionSelector := some glob
  toolSelector := none
  forceOnMatch := true

/-- The rules of one overlay entry from position `n` of its `total` globs on. -/
def expandFrom (base reason tag : String) (total : Nat) : Nat → List String → List GovernanceRule
  | _, [] => []
  | n, glob :: rest =>
    selectorRule (if total = 1 then base else s!"{base}[{n}]") glob reason .blocking tag ::
      expandFrom base reason tag total (n + 1) rest

def expand (base : String) (actions : List String) (reason tag : String) : List GovernanceRule :=
  expandFrom base reason tag actions.length 0 actions

def denyRules (entries : List OverlayDeny) : List GovernanceRule :=
  entries.flatMap fun d =>
    expand d.id d.actions (d.reason.getD "denied by the project overlay") OVERLAY_DENY_TAG

def approvalRulesFrom : Nat → List OverlayApproval → List GovernanceRule
  | _, [] => []
  | n, a :: rest =>
    expand (a.id.getD s!"overlay.approval[{n}]") a.actions
        (a.reason.getD "human approval required by the project overlay") OVERLAY_APPROVAL_TAG ++
      approvalRulesFrom (n + 1) rest

/-! ### What the parent contributes -/

def isActionRule (r : GovernanceRule) : Bool :=
  r.active && r.severity.isBlocking && r.forceOnMatch && r.ruleType = .general && r.toolSelector = none

def parentDenyActions (rules : List GovernanceRule) : List String :=
  (rules.filter fun r => isActionRule r && r.sopCategory ≠ some OVERLAY_APPROVAL_TAG).filterMap
    (·.actionSelector)

def parentApprovalActions (rules : List GovernanceRule) : List String :=
  (rules.filter fun r => isActionRule r && r.sopCategory = some OVERLAY_APPROVAL_TAG).filterMap
    (·.actionSelector)

def parentView {F : Type} (p : ParentPolicy F) : ParentView F where
  ruleIds := p.rules.map (·.id)
  denyActions := parentDenyActions p.rules
  requireApprovalActions := parentApprovalActions p.rules
  limits := p.limits

def globsOverlap (a b : String) : Bool :=
  match stripSuffix a '*', stripSuffix b '*' with
  | some pa, some pb => startsWith pa pb || startsWith pb pa
  | some pa, none => startsWith b pa
  | none, some pb => startsWith a pb
  | none, none => a = b

/-! ### Checks and retagging -/

def checkOverlap (denied : List String) (entry : Nat) : Nat → List String → Except OverlayError Unit
  | _, [] => .ok ()
  | n, glob :: rest =>
    match denied.find? (globsOverlap glob) with
    | some parentGlob =>
      .error (.approvalOverlapsDeny s!"require_approval[{entry}].actions[{n}]" glob parentGlob)
    | none => checkOverlap denied entry (n + 1) rest

def checkOverlaps (denied : List String) : Nat → List OverlayApproval → Except OverlayError Unit
  | _, [] => .ok ()
  | n, a :: rest => do
    checkOverlap denied n 0 a.actions
    checkOverlaps denied (n + 1) rest

/-- A parent's blocking rule becomes a hard deny, an approval rule keeps its tag. -/
def retag (r : GovernanceRule) : GovernanceRule :=
  if r.severity.isBlocking && r.sopCategory ≠ some OVERLAY_APPROVAL_TAG then
    { r with sopCategory := some OVERLAY_DENY_TAG }
  else r

def checkCollisions (parentIds : List String) : List String → List GovernanceRule → Except OverlayError Unit
  | _, [] => .ok ()
  | seen, r :: rest =>
    let n := normId r.id
    if parentIds.contains n || seen.contains n then .error (.idCollision "overlay" r.id)
    else checkCollisions parentIds (n :: seen) rest

section
variable {F : Type} [Scalar F]

/-- The parent's view with the engine default as the ceiling of an absent threshold. -/
def cappedView (parent : ParentPolicy F) : ParentView F :=
  let view := parentView parent
  { view with limits := { view.limits with
      riskThreshold := some (view.limits.riskThreshold.getD DEFAULT_RISK_THRESHOLD) } }

/-- The overlay turns the engine-wide approval flag on where the parent has it off. -/
def raisesApproval (parent : ParentPolicy F) (limits : Limits F) : Bool :=
  limits.humanApprovalRequired = some true && parent.limits.humanApprovalRequired ≠ some true

def effectiveHashOf (host : External) (parentHash overlayHash : Digest) (rules : List GovernanceRule)
    (limits : Limits F) : Digest :=
  sha256Domain host EFFECTIVE_HASH_DOMAIN
    (.obj [("parent_hash", .str parentHash.hex), ("overlay_hash", .str overlayHash.hex),
      ("rules", .arr (sortedRuleValues host rules)), ("limits", limitsValue limits)])

def merge (host : External) (parent : ParentPolicy F) (overlay : Overlay F) :
    Except OverlayError (Effective F) := do
  let view := cappedView parent
  let merged ← (Weftos.Governance.Overlay.merge view overlay.file).mapError .overlay
  ensure (merged.limits.maxProcesses ≠ some 0) (.overlay (.invalidLimit "limits.max_processes"))
  checkOverlaps view.denyActions 0 merged.approvalRules
  let kept := if raisesApproval parent merged.limits then parent.rules.map retag else parent.rules
  let added := denyRules merged.denyRules ++ approvalRulesFrom 0 merged.approvalRules
  checkCollisions (parent.rules.map fun r => normId r.id) [] added
  let rules := kept ++ added
  let parentHash := parentRulesHash host parent.rules parent.limits
  pure {
    rules
    limits := merged.limits
    denyActions := merged.denyActions
    requireApprovalActions := merged.requireApprovalActions
    parentHash
    overlayHash := overlay.hash
    effectiveHash := effectiveHashOf host parentHash overlay.hash rules merged.limits
    parentVersion := parent.version }

/-! ### What an accepted merge contains -/

variable {rule : GovernanceRule} {actions : List String}

theorem mem_expandFrom (listed : rule ∈ expandFrom base reason tag total n actions) :
    ∃ id, ∃ glob ∈ actions, rule = selectorRule id glob reason .blocking tag := by
  induction actions generalizing n with
  | nil => exact absurd listed not_mem_nil
  | cons glob rest ih =>
    rcases mem_cons.mp listed with rfl | later
    · exact ⟨_, glob, mem_cons_self, rfl⟩
    · obtain ⟨id, other, member, same⟩ := ih later
      exact ⟨id, other, mem_cons_of_mem glob member, same⟩

theorem expandFrom_covers (base reason tag : String) (total n : Nat) (listed : glob ∈ actions) :
    ∃ id, selectorRule id glob reason .blocking tag ∈ expandFrom base reason tag total n actions := by
  induction actions generalizing n with
  | nil => exact absurd listed not_mem_nil
  | cons first rest ih =>
    rcases mem_cons.mp listed with rfl | later
    · exact ⟨_, mem_cons_self⟩
    · obtain ⟨id, member⟩ := ih (n + 1) later
      exact ⟨id, mem_cons_of_mem _ member⟩

theorem mem_denyRules (listed : rule ∈ denyRules entries) : ∃ d ∈ entries, ∃ glob ∈ d.actions, ∃ id reason,
      rule = selectorRule id glob reason .blocking OVERLAY_DENY_TAG := by
  obtain ⟨d, entry, inside⟩ := mem_flatMap.mp listed
  obtain ⟨id, glob, action, same⟩ := mem_expandFrom inside
  exact ⟨d, entry, glob, action, id, _, same⟩

theorem denyRules_covers (entry : d ∈ entries) (action : glob ∈ d.actions) :
    ∃ id reason, selectorRule id glob reason .blocking OVERLAY_DENY_TAG ∈ denyRules entries := by
  obtain ⟨id, member⟩ := expandFrom_covers d.id (d.reason.getD "denied by the project overlay")
    OVERLAY_DENY_TAG d.actions.length 0 action
  exact ⟨id, _, mem_flatMap.mpr ⟨d, entry, member⟩⟩

theorem mem_approvalRulesFrom (listed : rule ∈ approvalRulesFrom n entries) :
    rule.sopCategory = some OVERLAY_APPROVAL_TAG := by
  induction entries generalizing n with
  | nil => exact absurd listed not_mem_nil
  | cons entry rest ih =>
    rcases mem_append.mp listed with here | later
    · obtain ⟨id, glob, _, rfl⟩ := mem_expandFrom here
      rfl
    · exact ih later

def parentThreshold (parent : ParentPolicy F) : F :=
  parent.limits.riskThreshold.getD DEFAULT_RISK_THRESHOLD

structure Tightened (parent : ParentPolicy F) (overlay : Overlay F) (e : Effective F) : Prop where
  rules : e.rules = (if raisesApproval parent e.limits then parent.rules.map retag else parent.rules) ++
    (denyRules overlay.file.deny ++ approvalRulesFrom 0 overlay.file.requireApproval)
  threshold : e.limits.riskThreshold = some (overlay.file.limits.riskThreshold.getD (parentThreshold parent))
  threshold_le : overlay.file.limits.riskThreshold.getD (parentThreshold parent) ≤ parentThreshold parent
  human : e.limits.humanApprovalRequired.getD false =
    (parent.limits.humanApprovalRequired.getD false || overlay.file.limits.humanApprovalRequired.getD false)

theorem merge_tightened {e : Effective F}
    (accepted : merge host parent overlay = .ok e) : Tightened parent overlay e := by
  simp only [merge, bind_ok_iff, pure_ok_iff, mapError_ok_iff] at accepted
  obtain ⟨merged, overlayOk, _, _, _, _, _, _, rfl⟩ := accepted
  obtain ⟨denies, approvals, limitsOk⟩ := Weftos.Governance.Overlay.merge_accepted overlayOk
  obtain ⟨risk, below, human⟩ := Weftos.Governance.Overlay.mergeLimits_tightens rfl limitsOk
  exact ⟨by rw [denies, approvals], risk, below, human⟩

end

end Weftos.Governance.Merge
