import Weftos.Lib.Table
import Weftos.Resource.Delegation

/-! The permission checker (`exo-resource-tree/src/permission.rs`) with the consent layer it
falls back to (`consent.rs`) and the identifiers it is keyed by (`did.rs`). A hash map is the
list of its entries, with distinct keys. -/

namespace Weftos.Resource.Permission
open Lib Lib.Bytes Lib.Text Chain.Event
open Resource.Path Delegation

/-! ### Principals -/

/-- A `Did` that was deserialised can hold any text. -/
structure Did where
  text : String
  deriving DecidableEq

inductive DidError where
  | empty
  | malformed (why : String)

def Did.new (id : String) : Except DidError Did :=
  let trimmed := trim id
  if trimmed = "" then .error .empty else .ok ⟨trimmed⟩

structure Principal where
  did : Did
  deriving DecidableEq

def Principal.new (id : String) : Principal :=
  match Did.new id with
  | .ok did => ⟨did⟩
  | .error _ => ⟨⟨"anonymous"⟩⟩

def Principal.asStr (principal : Principal) : String := principal.did.text

/-! ### Consent -/

inductive Effect where
  | allow
  | deny

inductive ConsentDecision where
  | allow
  | deny (reason : String)
  | defer (reason : String)

structure RiskScore where
  score : UInt8
  confidenceBps : UInt16

def RiskScore.NEUTRAL : RiskScore := ⟨50, 5000⟩

structure ConsentPolicy where
  principal : Option Did
  action : Action
  effect : Effect
  reason : Option String

def ConsentPolicy.matches (policy : ConsentPolicy) (principal : Did) (action : Action) : Bool :=
  policy.action = action && policy.principal.all (· = principal)

/-- The loop over the policies; `firstAllow` is set once an allow has matched. -/
def consentLoop (principal : Did) (action : Action) : List ConsentPolicy → (firstAllow : Bool) → ConsentDecision
  | [], firstAllow => if firstAllow then .allow else .deny "no matching consent allow policy"
  | policy :: rest, firstAllow =>
    if policy.matches principal action then
      match policy.effect with
      | .deny => .deny (policy.reason.getD "consent policy deny")
      | .allow => consentLoop principal action rest true
    else consentLoop principal action rest firstAllow

def evaluateConsent (policies : List ConsentPolicy) (principal : Did) (action : Action) (risk : RiskScore)
    (riskDenyThreshold riskDeferThreshold : UInt8) : ConsentDecision :=
  if riskDenyThreshold ≤ risk.score then
    .deny s!"risk score {risk.score} >= deny threshold {riskDenyThreshold}"
  else if riskDeferThreshold ≤ risk.score then
    .defer s!"risk score {risk.score} >= defer threshold {riskDeferThreshold}"
  else consentLoop principal action policies false

/-! ### Policies and the decision cache -/

inductive Decision where
  | allow
  | deny
  | delegate
  deriving DecidableEq

structure AclPolicy where
  principal : Option Principal
  role : Option Role
  action : Action
  effect : Effect

def AclPolicy.allow (principal : Principal) (action : Action) : AclPolicy := ⟨some principal, none, action, .allow⟩

def AclPolicy.deny (principal : Principal) (action : Action) : AclPolicy := ⟨some principal, none, action, .deny⟩

def AclPolicy.matches (policy : AclPolicy) (principal : Principal) (role : Role) (action : Action) : Bool :=
  policy.action = action && policy.principal.all (· = principal) && policy.role.all (· = role)

structure CacheKey where
  principal : Principal
  resource : ResourceId
  action : Action
  deriving DecidableEq

structure EffectiveAclCache where
  entries : List (CacheKey × Decision)
  maxSize : Nat

namespace EffectiveAclCache

def new (maxSize : Nat) : EffectiveAclCache := ⟨[], max maxSize 1⟩

variable (cache : EffectiveAclCache)

def get (key : CacheKey) : Option Decision := cache.entries.lookup key

def put (key : CacheKey) (decision : Decision) : EffectiveAclCache :=
  let entries := if cache.maxSize ≤ cache.entries.length then [] else cache.entries
  { cache with entries := Table.insert entries key decision }

def invalidateResource (resource : ResourceId) : EffectiveAclCache :=
  { cache with entries := cache.entries.filter fun entry => entry.1.resource ≠ resource }

def invalidatePrincipal (principal : Principal) : EffectiveAclCache :=
  { cache with entries := cache.entries.filter fun entry => entry.1.principal ≠ principal }

def clear : EffectiveAclCache := { cache with entries := [] }

end EffectiveAclCache

/-! ### The checker -/

structure CapabilityChecker where
  policies : List (ResourceId × List AclPolicy)
  delegations : List (ResourceId × List DelegationCert)
  consentPolicies : List ConsentPolicy
  riskScores : List (String × RiskScore)
  riskDenyThreshold : UInt8
  riskDeferThreshold : UInt8
  consentEnabled : Bool
  cache : EffectiveAclCache

namespace CapabilityChecker

def new : CapabilityChecker where
  policies := []
  delegations := []
  consentPolicies := []
  riskScores := []
  riskDenyThreshold := 90
  riskDeferThreshold := 70
  consentEnabled := false
  cache := .new 1024

/-- `entry(resource).or_default().push(item)`. -/
def pushAt {α : Type} (table : List (ResourceId × List α)) (resource : ResourceId) (item : α) :
    List (ResourceId × List α) :=
  Table.insert table resource ((table.lookup resource).getD [] ++ [item])

section
variable (c : CapabilityChecker)

variable (resource : ResourceId)

def addPolicy (policy : AclPolicy) : CapabilityChecker :=
  { c with policies := pushAt c.policies resource policy, cache := c.cache.invalidateResource resource }

def grant (principal : Principal) (action : Action) :
    CapabilityChecker := c.addPolicy resource (.allow principal action)

def deny (principal : Principal) (action : Action) :
    CapabilityChecker := c.addPolicy resource (.deny principal action)

def addDelegation (cert : DelegationCert) : CapabilityChecker :=
  { c with
    delegations := pushAt c.delegations resource cert
    cache := (c.cache.invalidatePrincipal (.new cert.grantee)).invalidateResource resource }

def revokeOn (grantee : Principal) :
    List (ResourceId × List DelegationCert) × Nat :=
  match c.delegations.lookup resource with
  | some certs =>
    let kept := certs.filter fun cert => cert.grantee ≠ grantee.asStr
    (Table.insert c.delegations resource kept, certs.length - kept.length)
  | none => (c.delegations, 0)

def revokeDelegation (grantee : Principal) : CapabilityChecker × Nat :=
  let (delegations, removed) := c.revokeOn resource grantee
  let cache :=
    if 0 < removed then (c.cache.invalidatePrincipal grantee).invalidateResource resource else c.cache
  ({ c with delegations, cache }, removed)

end

/-- Whether `revoke_delegation_everywhere` turns this certificate's status bit. -/
def turns (grantee : Principal) (cert : DelegationCert) : Bool := cert.grantee = grantee.asStr && !cert.revoked

def revokeDelegationEverywhere (c : CapabilityChecker) (grantee : Principal) : CapabilityChecker × Nat :=
  let removed := (c.delegations.flatMap (·.2)).countP (turns grantee)
  let delegations := c.delegations.map fun entry =>
    (entry.1, entry.2.map fun cert => if turns grantee cert then cert.revoke else cert)
  let cache := if 0 < removed then (c.cache.invalidatePrincipal grantee).clear else c.cache
  ({ c with delegations, cache }, removed)

def lasts (now : Timestamp) (cert : DelegationCert) : Bool := !cert.revoked && !cert.expired now

section
variable (c : CapabilityChecker)

def pruneDelegations (now : Timestamp) : CapabilityChecker × Nat :=
  let pruned := (c.delegations.flatMap (·.2)).countP fun cert => !lasts now cert
  let delegations := c.delegations.map fun entry => (entry.1, entry.2.filter (lasts now))
  let cache := if 0 < pruned then c.cache.clear else c.cache
  ({ c with delegations, cache }, pruned)

def addConsentPolicy (policy : ConsentPolicy) : CapabilityChecker :=
  { c with consentPolicies := c.consentPolicies ++ [policy], cache := c.cache.clear }

def setRiskScore (principal : Principal) (risk : RiskScore) : CapabilityChecker :=
  { c with
    riskScores := Table.insert c.riskScores principal.asStr risk
    cache := c.cache.invalidatePrincipal principal }

end

/-! ### Checks -/

section
variable (host : Host) (c : CapabilityChecker)

section
variable (principal : Principal)

/-- A certificate on the walk from `resource` to the root shows that `principal` is the
grantee, covers `resource` and validates. -/
def delegated (resource : ResourceId) (now : Timestamp) : Bool :=
  resource.toRoot.any fun rid =>
    ((c.delegations.lookup rid).getD []).any fun cert =>
      cert.grantee = principal.asStr && resourceInScope resource cert.resource && (cert.validate host now).isOk

def ruled (role : Role) (action : Action) (resource : ResourceId) : Option Effect :=
  resource.toRoot.findSome? fun rid =>
    (((c.policies.lookup rid).getD []).find? fun policy => policy.matches principal role action).map AclPolicy.effect

def consented (action : Action) : ConsentDecision :=
  evaluateConsent c.consentPolicies principal.did action ((c.riskScores.lookup principal.asStr).getD .NEUTRAL)
    c.riskDenyThreshold c.riskDeferThreshold

variable (role : Role) (action : Action) (resource : ResourceId) (now : Timestamp)

def evaluateUncached : Decision :=
  if c.delegated host principal resource now then .delegate
  else
    match c.ruled principal role action resource with
    | some .allow => .allow
    | some .deny => .deny
    | none =>
      if c.consentEnabled then
        match c.consented principal action with
        | .allow => .allow
        | .deny _ | .defer _ => .deny
      else .deny

def checkPermission : Decision × CapabilityChecker :=
  match c.cache.get ⟨principal, resource, action⟩ with
  | some decision => (decision, c)
  | none =>
    let decision := c.evaluateUncached host principal role action resource now
    (decision, { c with cache := c.cache.put ⟨principal, resource, action⟩ decision })

def checkPermissionAt : Decision := c.evaluateUncached host principal role action resource now

end

def leafCovers (chain : List DelegationCert) (principal : Principal) (resource : ResourceId) : Bool :=
  match chain.getLast? with
  | some leaf => leaf.grantee = principal.asStr && resourceInScope resource leaf.resource
  | none => false

def checkWithDelegationChain (principal : Principal) (role : Role) (action : Action) (resource : ResourceId)
    (chain : List DelegationCert) (trustAnchor : Octets) (now : Timestamp) : Except DelegationError Decision := do
  validateChain host chain trustAnchor now
  if leafCovers chain principal resource then .ok .delegate
  else .ok (c.checkPermissionAt host principal role action resource now)

end

end CapabilityChecker

end Weftos.Resource.Permission
