import Weftos.Chain.Local
import Weftos.Governance.Merge

/-! Files, signatures and history behind a project kernel's policy: the size-capped
reads of `governance_overlay.rs`, the checks of `parent_policy.rs`, and the rollback
pin and chain history of `overlay_trust.rs`. -/

namespace Weftos.Governance.Trust
open Lib.Bytes Lib.Json Lib.Text Lib.Outcome Project.Canon
open Chain.Event Chain.Local
open Rules Policy
open Overlay (Limits OverlayFile)

/-- What the governance runtime takes from outside: digests, parsers, the timestamp
check and Ed25519. `verifyStrict` has no answer for bytes that are not a key. -/
structure Platform (F : Type) where
  canon : External
  hashing : Hashing
  parsePolicy : String → Except String (ParentPolicy F)
  parseOverlay : String → Except Weftos.Governance.Overlay.OverlayError (OverlayFile F)
  canonicalTime : String → Bool
  verifyStrict : Digest → Octets → Octets → Option Bool

/-! ### Files -/

/-- What stands at a path: what `metadata` says, and what reading gives. -/
inductive FileEntry where
  | missing
  | denied (reason : String)
  | special (reason : String)
  | regular (size : Nat) (contents : Except String String)

/-- `Path::exists`: a path that cannot be inspected does not. -/
def FileEntry.exists : FileEntry → Bool
  | .missing | .denied _ => false
  | .special _ | .regular _ _ => true

def readCapped (path : String) : FileEntry → Except OverlayError (Option String)
  | .missing => .ok none
  | .denied reason => .error (.io path reason)
  | .special _ => .error (.io path "not a regular file")
  | .regular size contents => do
    ensure (size ≤ MAX_FILE_BYTES) (.tooLarge path size)
    let text ← contents.mapError (.io path)
    ensure ((utf8 text).length ≤ MAX_FILE_BYTES) (.tooLarge path (utf8 text).length)
    pure (some text)

/-- The paths of a child kernel; only a child has the optional ones. -/
structure RuntimePaths where
  childId : Option String
  parentPolicy : String
  overlay : Option String
  versionPin : Option String

/-- The files as they stand at one moment. `userPubkey` and `nestedPin` are what
`load_user_pubkey` and `nested_pin` make of certificate, key pin, clock and revocation
marker then. -/
structure Disk where
  userPubkey : Except OverlayError (Digest × Bool)
  nestedPin : Except OverlayError Digest
  parentPolicy : FileEntry
  overlay : FileEntry
  versionPin : FileEntry

section
variable {F : Type} [Scalar F] (platform : Platform F)

def loadParentPolicy (path : String) (file : FileEntry) : Except OverlayError (ParentPolicy F) := do
  let text ← readCapped path file
  let text ← require text (.parent (.file s!"{path} does not exist"))
  (platform.parsePolicy text).mapError fun message => .parent (.file s!"does not parse: {message}")

def loadOverlay (path : String) (file : FileEntry) : Except OverlayError (Overlay F) := do
  match ← readCapped path file with
  | none => pure (Overlay.empty platform.canon)
  | some text => do
    let parsed ← (platform.parseOverlay text).mapError .overlay
    pure (Overlay.fromFile platform.canon parsed)

/-! ### The signed parent policy -/

def keyId (key : Digest) : String := hexEncode ((platform.canon.sha256 key.val).val.take 16)

def policyBody (p : ParentPolicy F) : Value :=
  .obj [("schema", .nat p.schema.toUInt64), ("user_key_id", .str p.userKeyId), ("version", .nat p.version),
    ("issued_at", .str p.issuedAt), ("rules", .arr (sortedRuleValues platform.canon p.rules)),
    ("limits", limitsValue p.limits), ("rule_hash", .str p.ruleHash)]

def signedBytes (p : ParentPolicy F) : Octets :=
  utf8 PARENT_POLICY_DOMAIN ++ utf8 (canonicalJson platform.canon (policyBody platform p))

def checkLimits (l : Limits F) : Except ParentPolicyError Unit := do
  ensure (∀ r ∈ l.riskThreshold, Scalar.ofRat 0 ≤ r ∧ r ≤ Scalar.ofRat 1) (.limit "risk_threshold")
  ensure (l.maxProcesses ≠ some 0) (.limit "max_processes")

def checkRuleIds : Nat → List GovernanceRule → Except ParentPolicyError Unit
  | _, [] => .ok ()
  | i, rule :: rest => do
    ensure (rule.id ≠ "" ∧ rule.id = trim rule.id) (.ruleId i)
    checkRuleIds (i + 1) rest

def verifyParentPolicy (p : ParentPolicy F) (userKey : Digest) : Except ParentPolicyError Unit := do
  ensure (p.schema = PARENT_SCHEMA) (.schema p.schema)
  ensure (p.userKeyId = keyId platform userKey) .userKey
  ensure (platform.canonicalTime p.issuedAt = true) .issuedAt
  checkRuleIds 0 p.rules
  checkLimits p.limits
  ensure (p.ruleHash = (parentRulesHash platform.canon p.rules p.limits).hex) .ruleHash
  let sig ← require (hexDecode 64 p.sig) .sigFormat
  let verified ← require (platform.verifyStrict userKey (signedBytes platform p) sig) .userKey
  ensure (verified = true) .badSignature

end

def readPin (paths : RuntimePaths) (file : FileEntry) : Except OverlayError (Option UInt64) :=
  match paths.versionPin, file with
  | none, _ | _, .missing => .ok none
  | some path, .denied reason | some path, .special reason | some path, .regular _ (.error reason) =>
    .error (.pinCorrupt path reason)
  | some path, .regular _ (.ok text) =>
    match parseU64 (trim text) with
    | some version => .ok (some version)
    | none => .error (.pinCorrupt path "not a version number")

def writePin (paths : RuntimePaths) (disk : Disk) (version : UInt64) (written : Except String Unit) :
    Except OverlayError Disk := do
  let path ← require paths.versionPin .notAChild
  written.mapError (.io path)
  let text := toString version.toNat
  pure { disk with versionPin := .regular (utf8 text).length (.ok text) }

def checkVersion {F : Type} (parent : ParentPolicy F) (pinned : Option UInt64) : Except OverlayError Unit :=
  match pinned with
  | some version => ensure (version ≤ parent.version) (.parent (.rollback parent.version version))
  | none => .ok ()

/-! ### What the chain remembers -/

structure History where
  lastOverlayHash : Option String := none
  maxParentVersion : Option UInt64 := none
  userPinUsed : Bool := false
  anyApplied : Bool := false

def OVERLAY_APPLIED_SOURCE : String := "governance"
def OVERLAY_APPLIED_KIND : String := "governance.overlay.applied"

def isApplied (event : ChainEvent) : Bool :=
  event.kind = OVERLAY_APPLIED_KIND && event.source = OVERLAY_APPLIED_SOURCE

def payloadField (event : ChainEvent) (key : String) : Option Value := event.payload.bind (·.get key)

def recordedVersion (event : ChainEvent) : Option UInt64 := (payloadField event "parent_version").bind Value.asU64

def History.note (history : History) (event : ChainEvent) : History where
  lastOverlayHash := some (((payloadField event "overlay_hash").bind Value.asStr).getD "")
  maxParentVersion :=
    match recordedVersion event with
    | some version => some (history.maxParentVersion.elim version (max · version))
    | none => history.maxParentVersion
  userPinUsed := history.userPinUsed ||
    (payloadField event "user_pin").bind Value.asBool = some true
  anyApplied := true

def chainHistory (chain : LocalChain) : History :=
  ((chain.tail 0).filter isApplied).foldl History.note {}

end Weftos.Governance.Trust
