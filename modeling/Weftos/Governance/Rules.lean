import Weftos.Lib.Text
import Weftos.Lib.Json
import Mathlib.Data.Rat.Sqrt

/-! Governance rules and the three ways a rule can match a request (`clawft-kernel/src/governance.rs`). Scores
are drawn from a totally ordered number type, so a comparison never meets a NaN. -/

namespace Weftos.Governance.Rules
open Lib.Text Lib.Json

/-- What the engine uses of `f64`: its order, the arithmetic of the L2 norm,
decimal constants and the three renderings that reach a message or a hash. -/
class Scalar (F : Type) extends LinearOrder F, Add F, Mul F where
  sqrt : F → F
  ofRat : ℚ → F
  /-- `{:.2}`. -/
  fixed2 : F → String
  /-- `{}`. -/
  display : F → String
  /-- `{:016x}` of `to_bits`. -/
  bitsHex : F → String

instance : Scalar ℚ where
  sqrt := Rat.sqrt
  ofRat := id
  fixed2 := toString
  display := toString
  bitsHex := toString

inductive GovernanceRuleType where
  | general
  | browserPolicy
  | bindingThread
  deriving DecidableEq

inductive GovernanceBranch where
  | legislative
  | executive
  | judicial

inductive RuleSeverity where
  | advisory
  | warning
  | blocking
  | critical
  deriving DecidableEq

def RuleSeverity.isBlocking : RuleSeverity → Bool
  | .blocking | .critical => true
  | .advisory | .warning => false

structure GovernanceRule where
  id : String
  description : String
  branch : GovernanceBranch
  severity : RuleSeverity
  active : Bool
  referenceUrl : Option String
  sopCategory : Option String
  ruleType : GovernanceRuleType
  actionSelector : Option String
  toolSelector : Option String
  forceOnMatch : Bool

def OVERLAY_DENY_TAG : String := "project-overlay:deny"
def OVERLAY_APPROVAL_TAG : String := "project-overlay:approval"
def BINDING_THREAD_RULE_ID : String := "soul.binding_thread_intact"
def BINDING_THREAD_MISMATCH_REASON : String := "binding-thread mismatch"
def QUOTA_KEY_CONTEXT : String := "quota_key"

structure EffectVector (F : Type) where
  risk : F
  fairness : F
  privacy : F
  novelty : F
  security : F

structure GatePrincipal where
  agentId : String
  userId : Option String
  parentAgentId : Option String
  convId : Option String
  projectId : Option String
  instanceId : Option String

structure GovernanceRequest (F : Type) where
  agentId : String
  action : String
  effect : EffectVector F
  context : Map
  nodeId : Option String
  principal : Option GatePrincipal

section
variable {F : Type} [Scalar F]

def EffectVector.magnitude (e : EffectVector F) : F :=
  Scalar.sqrt (e.risk * e.risk + e.fairness * e.fairness + e.privacy * e.privacy +
    e.novelty * e.novelty + e.security * e.security)

/-- The learned scorer when one is installed, the L2 norm otherwise. -/
def EffectVector.score (e : EffectVector F) (model : Option (EffectVector F → F)) : F :=
  match model with
  | some predict => predict e
  | none => e.magnitude

end

/-! ### Principals -/

def GatePrincipal.agent (agentId : String) : GatePrincipal :=
  ⟨agentId, none, none, none, none, none⟩

def GatePrincipal.evalKey (p : GatePrincipal) : String :=
  if p.agentId ≠ "" then p.agentId else p.userId.getD ""

section
variable {F : Type}

def GovernanceRequest.basePrincipal (request : GovernanceRequest F) : GatePrincipal :=
  match request.principal with
  | some p => if p.agentId = "" then { p with agentId := request.agentId } else p
  | none => GatePrincipal.agent request.agentId

abbrev InstanceProject := Option (String × String)

variable (request : GovernanceRequest F)

def GovernanceRequest.resolvedPrincipal (inst : InstanceProject) :
    GatePrincipal :=
  match inst with
  | some (project, node) => { request.basePrincipal with projectId := some project, instanceId := some node }
  | none => request.basePrincipal

def evalPrincipalKey : String :=
  if request.agentId ≠ "" then request.agentId
  else
    match request.principal with
    | some p => if p.evalKey ≠ "" then p.evalKey else request.nodeId.getD ""
    | none => request.nodeId.getD ""

def evalQuotaKey : String :=
  let principal := evalPrincipalKey request
  match request.context.get QUOTA_KEY_CONTEXT with
  | some k => if principal = "0" ∧ startsWith k "0:" then k else principal
  | none => principal

end

/-! ### Matching -/

def selectorMatches (selector candidate : String) : Bool :=
  if selector = "" then true
  else
    match stripSuffix selector '*' with
    | some front => startsWith candidate front
    | none => selector = candidate

section
variable {F : Type}

def GovernanceRule.selectorsMatch (rule : GovernanceRule) (request : GovernanceRequest F) : Bool :=
  (match rule.actionSelector with
    | some sel => selectorMatches sel request.action
    | none => true) &&
  (match rule.toolSelector with
    | some sel =>
      selectorMatches sel (((request.context.get "tool").or (request.context.get "gate_action")).getD "")
    | none => true)

def isPublicTopic (topic : String) : Bool := topic = "public" || startsWith topic "public."

def applyBindingThreadRule [Scalar F] (rule : GovernanceRule) (request : GovernanceRequest F) :
    Option String :=
  if request.action ≠ BINDING_THREAD_RULE_ID ∧ request.action ≠ rule.id then none
  else
    let status := (request.context.get "binding_thread_status").getD ""
    if status = "mismatch" ∨ Scalar.ofRat (99 / 100) ≤ request.effect.security ∨
        (status = "" ∧ Scalar.ofRat (8 / 10) < request.effect.magnitude) then
      some BINDING_THREAD_MISMATCH_REASON
    else none

section
variable (rule : GovernanceRule)

def browserSpawnReason : String :=
  s!"browser_policy '{rule.id}': browser nodes cannot spawn without elevation"

def browserNetworkReason : String :=
  s!"browser_policy '{rule.id}': browser nodes cannot enable network without elevation"

def browserRuleCovers (defaultId word : String) : Bool :=
  rule.id = defaultId || containsText (toLowercase rule.description) word

end

def isTopicAction (action : String) : Bool :=
  startsWith action "ipc.topic" || action = "ipc.subscribe" || action = "ipc.publish" ||
    action = "topic.subscribe" || action = "topic.publish"

def applyBrowserPolicyRule (rule : GovernanceRule) (request : GovernanceRequest F) : Option String :=
  let action := request.action
  if (request.context.get "platform").getD "" ≠ "browser" then none
  else if isTopicAction action then
    let topic := (request.context.get "topic").getD ""
    if isPublicTopic topic then none
    else some s!"browser_policy '{rule.id}': browser nodes may only access public topics (got '{topic}')"
  else if (action = "agent.spawn" || action = "tool.agent_spawn" || startsWith action "agent.spawn") &&
      browserRuleCovers rule "BP-002" "spawn" then
    some (browserSpawnReason rule)
  else if (action = "network.enable" || action = "capability.network") &&
      browserRuleCovers rule "BP-003" "network" then
    some (browserNetworkReason rule)
  else if action = "capability.elevate" then
    if request.context.get "can_spawn" = some "true" && browserRuleCovers rule "BP-002" "spawn" then
      some (browserSpawnReason rule)
    else if request.context.get "can_network" = some "true" && browserRuleCovers rule "BP-003" "network" then
      some (browserNetworkReason rule)
    else none
  else none

end

/-! ### Serialized form -/

def GovernanceRuleType.text : GovernanceRuleType → String
  | .general => "general"
  | .browserPolicy => "browser_policy"
  | .bindingThread => "binding_thread"

def GovernanceBranch.text : GovernanceBranch → String
  | .legislative => "Legislative"
  | .executive => "Executive"
  | .judicial => "Judicial"

def RuleSeverity.text : RuleSeverity → String
  | .advisory => "Advisory"
  | .warning => "Warning"
  | .blocking => "Blocking"
  | .critical => "Critical"

/-- `serde_json::to_value` of a rule: absent options are left out. -/
def GovernanceRule.toValue (rule : GovernanceRule) : Value :=
  .obj ([("id", .str rule.id), ("description", .str rule.description),
      ("branch", .str rule.branch.text), ("severity", .str rule.severity.text),
      ("active", .bool rule.active)] ++
    optionalField "reference_url" (rule.referenceUrl.map .str) ++
    optionalField "sop_category" (rule.sopCategory.map .str) ++
    [("rule_type", .str rule.ruleType.text)] ++
    optionalField "action_selector" (rule.actionSelector.map .str) ++
    optionalField "tool_selector" (rule.toolSelector.map .str) ++
    [("force_on_match", .bool rule.forceOnMatch)])

end Weftos.Governance.Rules
