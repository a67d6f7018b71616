import Weftos.Governance.Overlay
import Weftos.Project.Canon

/-! The signed parent policy, the loaded overlay, the three rule-set hashes and the
refusals both share (`clawft-kernel/src/parent_policy.rs`, `governance_overlay.rs`). -/

namespace Weftos.Governance.Policy
open Lib.Bytes Lib.Json Lib.Text Project.Canon
open Rules Governance.Overlay

def PARENT_POLICY_DOMAIN : String := "weftos-parent-policy-v1\n"
def PARENT_RULES_DOMAIN : String := "weftos-parent-rules-v1\n"
def OVERLAY_HASH_DOMAIN : String := "weftos-overlay-v1\n"
def EFFECTIVE_HASH_DOMAIN : String := "weftos-effective-rules-v1\n"
def PARENT_SCHEMA : UInt32 := 1
def MAX_FILE_BYTES : Nat := 1024 * 1024
def VERSION_PIN_FILE : String := "parent-policy.version"

structure ParentPolicy (F : Type) where
  schema : UInt32
  userKeyId : String
  version : UInt64
  issuedAt : String
  rules : List GovernanceRule
  limits : Limits F
  ruleHash : String
  sig : String

inductive ParentPolicyError where
  | schema (found : UInt32)
  | userKey
  | issuedAt
  | ruleId (index : Nat)
  | limit (name : String)
  | ruleHash
  | sigFormat
  | badSignature
  | file (message : String)
  | rollback (offered pinned : UInt64)

inductive OverlayError where
  | io (path reason : String)
  | tooLarge (path : String) (bytes : Nat)
  | overlay (cause : Overlay.OverlayError)
  | parent (cause : ParentPolicyError)
  | idCollision (key id : String)
  | notAChild
  | cert (message : String)
  | approvalOverlapsDeny (key glob parentGlob : String)
  | overlayMissing
  | pinCorrupt (path reason : String)
  | pinMissing
  | revoked (path : String)

/-! ### Offending keys and messages -/

def ParentPolicyError.key : ParentPolicyError → String
  | .schema _ => "parent-policy.schema"
  | .userKey => "parent-policy.user_key_id"
  | .issuedAt => "parent-policy.issued_at"
  | .ruleId i => s!"parent-policy.rules[{i}].id"
  | .limit k => s!"parent-policy.limits.{k}"
  | .ruleHash => "parent-policy.rule_hash"
  | .sigFormat | .badSignature => "parent-policy.sig"
  | .file _ => "parent-policy.json"
  | .rollback _ _ => "parent-policy.version"

def ParentPolicyError.message : ParentPolicyError → String
  | .schema found => s!"`schema` is {found}, expected {PARENT_SCHEMA}"
  | .userKey => "`user_key_id` does not match the trusted user key"
  | .issuedAt => "`issued_at` is not a canonical UTC timestamp"
  | .ruleId i => s!"`rules[{i}].id` is malformed"
  | .limit name => s!"`limits.{name}` is invalid"
  | .ruleHash => "`rule_hash` does not match the rules and limits"
  | .sigFormat => "`sig` is malformed"
  | .badSignature => "`sig` does not verify"
  | .file message => message
  | .rollback offered pinned =>
    "`version` " ++ toString offered ++ s!" is older than the accepted version {pinned}"

def overlayKey : Overlay.OverlayError → String
  | .parse _ => "overlay.toml"
  | .schema _ => "schema"
  | .forbidden k | .unknownKey k => k
  | .malformedId key _ | .duplicateId key _ | .shadowsParent key _ | .emptyActions key
  | .malformedGlob key _ | .invalidLimit key | .relaxes key _ _ => key

def overlayMessage (host : External) : Overlay.OverlayError → String
  | .parse message => s!"overlay does not parse: {message}"
  | .schema found => s!"overlay `schema` is {found}, expected {OVERLAY_SCHEMA}"
  | .forbidden key => s!"overlay key `{key}` is not allowed: an overlay can only tighten"
  | .unknownKey key => s!"overlay has unknown key `{key}`"
  | .malformedId key id => s!"`{key}`: malformed rule id " ++ host.debug id
  | .duplicateId key id => s!"`{key}`: duplicate rule id " ++ host.debug id
  | .shadowsParent key id => s!"`{key}`: rule id " ++ host.debug id ++ " shadows a parent rule"
  | .emptyActions key => s!"`{key}`: no actions"
  | .malformedGlob key pattern => s!"`{key}`: malformed action glob " ++ host.debug pattern
  | .invalidLimit key => s!"`{key}`: invalid value"
  | .relaxes key parent overlay =>
    s!"`{key}`: {overlay} relaxes the parent value {parent}; set it to {parent} or lower in overlay.toml"

def OverlayError.key : OverlayError → String
  | .io path _ | .tooLarge path _ => path
  | .overlay cause => overlayKey cause
  | .parent cause => cause.key
  | .idCollision key _ => key
  | .notAChild => "kernel.profile"
  | .cert _ => "project.cert.json"
  | .approvalOverlapsDeny key _ _ => key
  | .overlayMissing => "overlay.toml"
  | .pinCorrupt path _ => path
  | .pinMissing => "state/" ++ VERSION_PIN_FILE
  | .revoked _ => "revoked"

def OverlayError.message (host : External) : OverlayError → String
  | .io path reason => s!"{path}: {reason}"
  | .tooLarge path bytes => s!"{path}: {bytes} bytes is over the {MAX_FILE_BYTES} byte limit"
  | .overlay cause => overlayMessage host cause
  | .parent cause => "parent policy: " ++ cause.message
  | .idCollision key id => s!"`{key}`: rule id " ++ host.debug id ++ " collides with another rule"
  | .notAChild => "profile `project` needs a child runtime root (RootSource::Child)"
  | .cert message => s!"project certificate: {message}"
  | .approvalOverlapsDeny key glob parentGlob =>
    s!"`{key}`: approval glob " ++ host.debug glob ++ " overlaps the parent deny " ++ host.debug parentGlob
  | .overlayMissing =>
    "overlay.toml is missing but a non-empty overlay was applied; write an empty file to clear it"
  | .pinCorrupt path reason => s!"{path}: {reason}"
  | .pinMissing => "rollback pin is missing although the chain records an applied governance overlay"
  | .revoked path => s!"project revoked ({path})"

/-! ### Hashes -/

section
variable {F : Type} [Scalar F] (host : External)

/-- Limits without floats: a threshold is the hex of its bits. -/
def limitsValue (l : Limits F) : Value :=
  .obj [("risk_threshold_bits", .ofOption (fun r => .str (Scalar.bitsHex r)) l.riskThreshold),
    ("max_processes", .ofOption .nat l.maxProcesses),
    ("spawn_budget", .ofOption .nat l.spawnBudget),
    ("human_approval_required", .ofOption .bool l.humanApprovalRequired)]

def normId (id : String) : String := toAsciiLowercase (trim id)

def sortedRuleValues (rules : List GovernanceRule) : List Value :=
  let keyed := rules.map fun r => (normId r.id, canonicalJson host r.toValue, r.toValue)
  let sorted := keyed.insertionSort fun a b => a.1 < b.1 ∨ (a.1 = b.1 ∧ a.2.1 ≤ b.2.1)
  sorted.map (·.2.2)

def sha256Domain (domain : String) (body : Value) : Digest :=
  host.sha256 (utf8 domain ++ utf8 (canonicalJson host body))

def sortedByText (values : List Value) : List Value :=
  values.insertionSort fun a b => canonicalJson host a ≤ canonicalJson host b

private def entryValue (id : Value) (actions : List String) (reason : Option String) : Value :=
  .obj [("id", id), ("actions", .arr ((actions.insertionSort (· ≤ ·)).map .str)),
    ("reason", .ofOption .str reason)]

def overlayHash (f : OverlayFile F) : Digest :=
  let deny := f.deny.map fun d => entryValue (.str (normId d.id)) d.actions d.reason
  let approval := f.requireApproval.map fun a =>
    entryValue (.ofOption (fun id => .str (normId id)) a.id) a.actions a.reason
  sha256Domain host OVERLAY_HASH_DOMAIN
    (.obj [("schema", .nat f.schema.toUInt64), ("deny", .arr (sortedByText host deny)),
      ("require_approval", .arr (sortedByText host approval)), ("limits", limitsValue f.limits)])

def parentRulesHash (rules : List GovernanceRule) (limits : Limits F) : Digest :=
  sha256Domain host PARENT_RULES_DOMAIN
    (.obj [("rules", .arr (sortedRuleValues host rules)), ("limits", limitsValue limits)])

structure Overlay (F : Type) where
  file : OverlayFile F
  hash : Digest
  deriving DecidableEq

def Overlay.fromFile (file : OverlayFile F) : Overlay F := ⟨file, overlayHash host file⟩

def Overlay.empty : Overlay F := Overlay.fromFile host {}

end

end Weftos.Governance.Policy
