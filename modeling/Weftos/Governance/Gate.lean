import Weftos.Governance.Engine
import Weftos.Governance.Merge

/-! The governance gate (`clawft-kernel/src/gate.rs`): a request is built, evaluated, possibly granted, and
the outcome is written down as a chain event. -/

namespace Weftos.Governance.Gate
open Lib.Json Lib.Text
open Rules Engine Merge

/-- What the gate takes from `serde_json`: reading an effect, writing a float, and the
text of a value. -/
structure GateHost (F : Type) where
  effectOf : Value → Option (EffectVector F)
  number : F → Value
  render : Value → String

structure GovernanceGate (F : Type) where
  engine : GovernanceEngine F
  exemptActions : List String

inductive GateDecision where
  | permit
  | defer (reason : String)
  | deny (reason : String)

section
variable {F : Type} [Scalar F]

def GovernanceGate.ofEffective (e : Effective F) : GovernanceGate F where
  engine :=
    { rules := e.rules
      riskThreshold := e.riskThreshold DEFAULT_RISK_THRESHOLD
      humanApprovalRequired := e.humanApproval false
      evalAllows := fun _ => true
      scorer := none }
  exemptActions := []

/-- Takes over exemptions, rate limit and scorer; rules, threshold and flag stay. -/
def GovernanceGate.inheritConfig (gate old : GovernanceGate F) : GovernanceGate F where
  engine := { gate.engine with evalAllows := old.engine.evalAllows, scorer := old.engine.scorer }
  exemptActions := old.exemptActions

/-! ### The request -/

def RESERVED_CONTEXT_KEYS : List String := ["project_id", "instance_id"]

def extractEffect (host : GateHost F) (context : Value) : EffectVector F :=
  ((context.get "effect").bind host.effectOf).getD
    ⟨Scalar.ofRat 0, Scalar.ofRat 0, Scalar.ofRat 0, Scalar.ofRat 0, Scalar.ofRat 0⟩

def extractContext (host : GateHost F) (context : Value) : Map :=
  match context with
  | .obj fields =>
    fields.foldl (fun entries field =>
      if field.1 = "effect" then entries
      else Map.insert entries field.1 ((field.2.asStr).getD (host.render field.2))) []
  | _ => []

def GovernanceRequest.attributed (request : GovernanceRequest F) (inst : InstanceProject) : GovernanceRequest F :=
  let context := RESERVED_CONTEXT_KEYS.foldl Map.remove request.context
  let principal := { request.basePrincipal with projectId := none, instanceId := none }
  match inst with
  | none => { request with context := context, principal := some principal }
  | some (project, node) =>
    { request with
      context := Map.insert (Map.insert context "project_id" project) "instance_id" node
      principal := some { principal with projectId := some project, instanceId := some node } }

def gateRequest (host : GateHost F) (inst : InstanceProject) (agentId action : String) (context : Value) :
    GovernanceRequest F :=
  let entries := extractContext host context
  let entries :=
    match Map.get entries "tool", stripPrefix action "tool." with
    | none, some tool => Map.insert entries "tool" tool
    | _, _ => entries
  let principal : GatePrincipal :=
    { GatePrincipal.agent agentId with
      userId := Map.get entries "user_id"
      parentAgentId := (Map.get entries "parent_agent_id").or (Map.get entries "parent_agent")
      convId := (Map.get entries "conv_id").or (Map.get entries "conversation_id") }
  GovernanceRequest.attributed
    { agentId, action, effect := extractEffect host context, context := entries, nodeId := none
      principal := some principal } inst

/-! ### The outcome and its record -/

def GovernanceDecision.blocksAction : GovernanceDecision → Bool
  | .deny _ | .escalateToHuman _ => true
  | .permit | .permitWithWarning _ => false

def GovernanceGate.grants (gate : GovernanceGate F) (action : String) (result : GovernanceResult F) : Bool :=
  gate.exemptActions.contains action && GovernanceDecision.blocksAction result.decision

def GovernanceGate.decision (gate : GovernanceGate F) (action : String) (result : GovernanceResult F) :
    GateDecision :=
  if gate.grants action result then .permit
  else
    match result.decision with
    | .permit | .permitWithWarning _ => .permit
    | .escalateToHuman reason => .defer reason
    | .deny reason => .deny reason

def principalValue (p : GatePrincipal) : Value :=
  .obj ([("agent_id", .str p.agentId)] ++ optionalField "user_id" (p.userId.map .str) ++
    optionalField "parent_agent_id" (p.parentAgentId.map .str) ++ optionalField "conv_id" (p.convId.map .str) ++
    optionalField "project_id" (p.projectId.map .str) ++ optionalField "instance_id" (p.instanceId.map .str))

def GovernanceGate.verdictFields (gate : GovernanceGate F) (action : String) (result : GovernanceResult F) :
    String × List (String × Value) :=
  if gate.grants action result then
    ("governance.grant", [("granted_action", .str action), ("overridden_reason", .str
      (match result.decision with
        | .deny reason | .escalateToHuman reason => reason
        | .permit | .permitWithWarning _ => ""))])
  else
    match result.decision with
    | .permit => ("governance.permit", [])
    | .permitWithWarning note => ("governance.warn", [("warning", .str note)])
    | .escalateToHuman reason => ("governance.defer", [("reason", .str reason)])
    | .deny reason => ("governance.deny", [("reason", .str reason)])

def GovernanceGate.eventPayload (host : GateHost F) (gate : GovernanceGate F) (request : GovernanceRequest F)
    (result : GovernanceResult F) : Value :=
  let effect := request.effect
  .obj ([("agent_id", .str request.agentId), ("action", .str request.action),
    ("effect", .obj [("risk", host.number effect.risk), ("fairness", host.number effect.fairness),
      ("privacy", host.number effect.privacy), ("novelty", host.number effect.novelty),
      ("security", host.number effect.security)]),
    ("threshold_exceeded", .bool result.thresholdExceeded),
    ("evaluated_rules", .arr (result.evaluatedRules.map .str))] ++
    optionalField "principal" (result.principal.map principalValue) ++
    (gate.verdictFields request.action result).2)

end

end Weftos.Governance.Gate
