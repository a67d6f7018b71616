import Mathlib.Data.Rat.Floor
import Weftos.Placement.Candidates

/-! What the placement engine reads and answers (`clawft-types/src/placement/engine/spec.rs`,
`request.rs`, `facts.rs`, `decision.rs`), with the checks a request passes first. -/

namespace Weftos.Placement.Request
open Lib.Bytes Lib.Outcome Candidates
set_option linter.dupNamespace false

/-- What the engine computes with `f64`. Nothing is assumed of the arithmetic, which may
round and meet NaN; `total_cmp` is a total order of all values. -/
class Arith (F : Type) extends F64 F where
  zero : F
  one : F
  add : F → F → F
  sub : F → F → F
  mul : F → F → F
  div : F → F → F
  min : F → F → F
  max : F → F → F
  lt : F → F → Bool
  isFinite : F → Bool
  /-- `f as u64`, which truncates and saturates. -/
  asU64 : F → UInt64
  text : F → String
  totalCmp : F → F → Ordering
  [transCmp : Std.TransCmp totalCmp]

attribute [instance] Arith.transCmp

/-- Exact numbers: there `min` and `max` do not depend on the order of their arguments. -/
class Exact (F : Type) [Arith F] : Prop where
  min_comm : ∀ a b : F, Arith.min a b = Arith.min b a
  min_assoc : ∀ a b c : F, Arith.min (Arith.min a b) c = Arith.min a (Arith.min b c)
  max_comm : ∀ a b : F, Arith.max a b = Arith.max b a
  max_assoc : ∀ a b c : F, Arith.max (Arith.max a b) c = Arith.max a (Arith.max b c)

instance : Arith ℚ where
  zero := 0
  one := 1
  add := (· + ·)
  sub := (· - ·)
  mul := (· * ·)
  div := (· / ·)
  min := Min.min
  max := Max.max
  lt a b := a < b
  isFinite _ := true
  asU64 q := UInt64.ofNat (Nat.min ⌊q⌋.toNat (2 ^ 64 - 1))
  text := toString
  totalCmp := compare

instance : Exact ℚ where
  min_comm := min_comm
  min_assoc := min_assoc
  max_comm := max_comm
  max_assoc := max_assoc

/-! ### Specification of a workload -/

def MAX_KIND_LEN : Nat := 64
def MAX_NAME_LEN : Nat := 256
def MAX_REQUIREMENTS : Nat := 64
def MAX_VARIANTS : Nat := 16
def MAX_LIST : Nat := 64
def MAX_PREDICATES : Nat := 32
def MAX_COUNT : UInt32 := 64
def MAX_ATTR_NAME_LEN : Nat := 64
def MAX_LIST_LEN : Nat := 256
def MAX_STR_LEN : Nat := 1024

inductive TrustTier where
  | discovered
  | paired
  | pinned

def TrustTier.rank : TrustTier → Nat
  | .discovered => 0
  | .paired => 1
  | .pinned => 2

def TrustTier.asStr : TrustTier → String
  | .discovered => "discovered"
  | .paired => "paired"
  | .pinned => "pinned"

inductive Execution where
  | native
  | emulated
  deriving DecidableEq

structure ExecutionVariant (F : Type) where
  name : String
  execution : Execution
  requirements : List (Requirement F)

structure MemoryDemand where
  hostBytes : UInt64
  accelBytes : UInt64
  deriving DecidableEq

def MemoryDemand.none : MemoryDemand := ⟨0, 0⟩

structure WorkloadRequirements (F : Type) where
  common : List (Requirement F)
  variants : List (ExecutionVariant F)
  memory : MemoryDemand

inductive LatencyClass where
  | batch
  | interactive

inductive Better where
  | lower
  | higher

structure PerfTarget (F : Type) where
  id : CapabilityId
  param : String
  paramValue : String
  better : Better
  budget : Option F

structure Preference (F : Type) where
  name : String
  requirement : Requirement F
  weight : F

structure PlacementPolicy (F : Type) where
  minTrust : TrustTier
  minProvenance : Option Provenance
  labels : List String
  excludes : List String
  latencyClass : LatencyClass
  perf : Option (PerfTarget F)
  preferences : List (Preference F)
  sticky : Bool
  revocableRefs : List String

structure WorkloadSpec (F : Type) where
  kind : String
  name : String
  requirements : WorkloadRequirements F
  policy : PlacementPolicy F

def WorkloadSpec.effectiveVariants {F : Type} (spec : WorkloadSpec F) : List (ExecutionVariant F) :=
  if spec.requirements.variants.isEmpty then [⟨"default", .native, []⟩] else spec.requirements.variants

/-! ### Request -/

inductive GateVerdict where
  | permit
  | deny (reason : String)

inductive GateInput where
  | uniform (verdict : GateVerdict)
  | perNode (verdicts : List (String × GateVerdict))

def GateInput.verdictFor : GateInput → String → GateVerdict
  | .uniform verdict, _ => verdict
  | .perNode verdicts, nodeId => (verdicts.lookup nodeId).getD (.deny "no gate decision for this node")

structure Affinity where
  prefer : List String
  avoid : List String

structure ScoringWeights (F : Type) where
  native : F
  devFallback : F
  emulated : F
  devFallbackClass : String
  accelFit : F
  perf : F
  interactivePerfMultiplier : F
  load : F
  stickiness : F
  sticky : F

structure PlacementRequest (F : Type) where
  spec : WorkloadSpec F
  pin : Option String
  affinity : Affinity
  allowEmulated : Bool
  currentNode : Option String
  gate : GateInput
  weights : ScoringWeights F

/-! ### Facts and cluster state -/

inductive Liveness where
  | alive
  | suspect
  | dead
  | unknown
  deriving DecidableEq

def Liveness.asStr : Liveness → String
  | .alive => "alive"
  | .suspect => "suspect"
  | .dead => "dead"
  | .unknown => "unknown"

structure PlacementFacts (F : Type) where
  nodeId : String
  capabilities : List (Capability F)
  liveness : Liveness
  trustTier : TrustTier
  factsExpireAtMs : Option UInt64
  load : Option F

structure WorkloadRef where
  kind : String
  name : String
  deriving DecidableEq

def WorkloadRef.of {F : Type} (spec : WorkloadSpec F) : WorkloadRef := ⟨spec.kind, spec.name⟩

structure InstanceRecord where
  nodeId : String
  workload : Option WorkloadRef
  labels : List String
  excludes : List String
  pending : MemoryDemand

structure ClusterState where
  nowMs : UInt64
  revokedNodes : List String
  revokedRefs : List String
  instances : List InstanceRecord

def ClusterState.instancesOn (cluster : ClusterState) (nodeId : String) : List InstanceRecord :=
  cluster.instances.filter (·.nodeId = nodeId)

def ClusterState.neighboursOn {F : Type} (cluster : ClusterState) (nodeId : String) (spec : WorkloadSpec F) :
    List InstanceRecord :=
  (cluster.instancesOn nodeId).filter fun i => i.workload ≠ some (.of spec)

/-! ### Decision -/

inductive Constraint where
  | requirements
  | provenance
  | memory
  | trust
  | liveness
  | factsExpired
  | nodeRevoked
  | workloadRevoked
  | coResidency
  | emulationNotAllowed
  | gate
  | perfBudget

structure Rejection where
  constraint : Constraint
  detail : String

structure ScoreBreakdown (F : Type) where
  execution : F
  locality : F
  accelFit : F
  perf : F
  load : F
  stickiness : F

inductive Tier where
  | native
  | devFallback
  | emulated
  deriving DecidableEq

/-- Position in the strict tier order: a native target, then emulation, then a
development node. -/
def Tier.rank : Tier → Nat
  | .native => 0
  | .emulated => 1
  | .devFallback => 2

inductive Flag where
  | unmeasured
  | emulated
  | pinned
  | affinity
  | loadUnknown
  deriving DecidableEq

def Flag.rank : Flag → Nat
  | .unmeasured => 0
  | .emulated => 1
  | .pinned => 2
  | .affinity => 3
  | .loadUnknown => 4

structure NodeReport (F : Type) where
  nodeId : String
  rejections : List Rejection
  variant : Option String
  tier : Option Tier
  score : Option (ScoreBreakdown F)
  flags : List Flag
  assigned : List (List String)

def NodeReport.eligible {F : Type} (report : NodeReport F) : Bool := report.rejections.isEmpty

structure Placement (F : Type) where
  nodeId : String
  variant : String
  execution : Execution
  tier : Tier
  accelerator : Option String
  score : ScoreBreakdown F
  flags : List Flag

structure Decision (F : Type) where
  kind : String
  name : String
  allowEmulated : Bool
  pin : Option String
  placement : Option (Placement F)
  candidates : List (NodeReport F)

/-! ### Validation -/

inductive IdFault where
  | empty
  | tooLong
  | tooFewSegments
  | tooManySegments
  | badSegment (segment : String)

/-- The reason in words; `debug` is the `{:?}` form of a string. -/
def IdFault.reason (debug : String → String) : IdFault → String
  | .empty => "empty"
  | .tooLong => "too long"
  | .tooFewSegments => "too few dot-separated segments"
  | .tooManySegments => "too many dot-separated segments"
  | .badSegment segment => "segment " ++ debug segment ++ " must match [a-z0-9][a-z0-9_-]*"

inductive PlacementTypeError where
  | invalidId (id : String) (reason : IdFault)
  | invalidPredicate (attr reason : String)
  | invalidRequirement (reason : String)

inductive PlacementError where
  | invalid (error : PlacementTypeError)
  | duplicateNode (id : String)
  | unknownPin (id : String)
  | pinIneligible (node : String) (rejections : List Rejection)

def takeChars (n : Nat) (text : String) : String := String.ofList (text.toList.take n)

def validateDotted (text : String) (minSegments : Nat) : Except PlacementTypeError Unit := do
  let bad (reason : IdFault) := PlacementTypeError.invalidId (takeChars MAX_ID_LEN text) reason
  let segments := text.toList.splitOn '.'
  ensure (text ≠ "") (bad .empty)
  ensure ((utf8 text).length ≤ MAX_ID_LEN) (bad .tooLong)
  ensure (minSegments ≤ segments.length) (bad .tooFewSegments)
  ensure (segments.length ≤ MAX_ID_SEGMENTS) (bad .tooManySegments)
  match segments.find? fun segment => !validSegment segment with
  | some segment => .error (bad (.badSegment (String.ofList segment)))
  | none => .ok ()

def validAttrName (name : String) : Bool :=
  (utf8 name).length ≤ MAX_ATTR_NAME_LEN &&
    match name.toList with
    | [] => false
    | c :: rest => ('a' ≤ c && c ≤ 'z') && rest.all fun c => isLowerOrDigit c || c = '_'

def isControl (c : Char) : Bool := c.toNat < 0x20 || (0x7f ≤ c.toNat && c.toNat ≤ 0x9f)

def printable (text : String) : Bool :=
  text ≠ "" && (utf8 text).length ≤ MAX_NAME_LEN && !text.toList.any isControl

def bad (why : String) : PlacementTypeError := .invalidRequirement why

def checkText (what text : String) : Except PlacementTypeError Unit :=
  ensure (printable text = true) (bad (what ++ s!" must be 1..={MAX_NAME_LEN} printable bytes"))

def checkList (what : String) (texts : List String) : Except PlacementTypeError Unit := do
  ensure (texts.length ≤ MAX_LIST) (bad ("too many " ++ what ++ s!" (max {MAX_LIST})"))
  texts.forM (checkText what)

section
variable {F : Type} [Arith F]

/-- The bounds of one attribute value; lists hold scalars only. -/
def validateScalar : AttrValue F → Except String Unit
  | .float f => ensure (Arith.isFinite f = true) "non-finite float"
  | .str s => ensure ((utf8 s).length ≤ MAX_STR_LEN) "string too long"
  | .list _ => .error "nested lists are not allowed"
  | _ => .ok ()

def validateValue : AttrValue F → Except String Unit
  | .list items => do
    ensure (items.length ≤ MAX_LIST_LEN) "list too long"
    items.forM validateScalar
  | value => validateScalar value

def isList : AttrValue F → Bool
  | .list _ => true
  | _ => false

def validatePredicate (p : AttrPredicate F) : Except PlacementTypeError Unit := do
  let bad (why : String) := PlacementTypeError.invalidPredicate (takeChars 64 p.attr) why
  ensure (validAttrName p.attr = true) (bad "attribute name must match [a-z][a-z0-9_]*")
  (validateValue p.value).mapError bad
  match p.op with
  | .gte | .lte => ensure (p.value.asF64.isSome = true) (bad "gte/lte need a numeric value")
  | .isIn => ensure (isList p.value = true) (bad "in needs a list value")
  | .has => ensure (isList p.value = false) (bad "has needs a scalar value")
  | .eq => .ok ()

def validateRequirement (req : Requirement F) : Except PlacementTypeError Unit := do
  match req.selector with
  | .idPrefix front => validateDotted front 1
  | .exact _ => .ok ()
  ensure (req.count ≠ 0 ∧ req.count ≤ MAX_COUNT) (bad s!"count must be 1..={MAX_COUNT}")
  ensure (req.where_.length ≤ MAX_PREDICATES) (bad "too many predicates")
  req.where_.forM validatePredicate

def checkReqs (reqs : List (Requirement F)) : Except PlacementTypeError Unit := do
  ensure (reqs.length ≤ MAX_REQUIREMENTS) (bad s!"too many requirements (max {MAX_REQUIREMENTS})")
  reqs.forM validateRequirement

def isWeight (f : F) : Bool := Arith.isFinite f && !Arith.lt f Arith.zero

def validKind (kind : String) : Bool :=
  kind ≠ "" && (utf8 kind).length ≤ MAX_KIND_LEN &&
    kind.toList.all fun c => isLowerOrDigit c || c = '-' || c = '_'

def WorkloadSpec.validate (spec : WorkloadSpec F) : Except PlacementTypeError Unit := do
  ensure (validKind spec.kind = true) (bad "kind must be 1..=64 of [a-z0-9_-]")
  checkText "name" spec.name
  let r := spec.requirements
  checkReqs r.common
  ensure (r.variants.length ≤ MAX_VARIANTS) (bad s!"too many variants (max {MAX_VARIANTS})")
  r.variants.forM fun v => do
    checkText "variant name" v.name
    checkReqs v.requirements
  let p := spec.policy
  checkList "labels" p.labels
  checkList "excludes" p.excludes
  checkList "revocable refs" p.revocableRefs
  ensure (p.preferences.length ≤ MAX_LIST) (bad s!"too many preferences (max {MAX_LIST})")
  p.preferences.forM fun pref => do
    checkText "preference name" pref.name
    validateRequirement pref.requirement
    ensure (isWeight pref.weight = true) (bad "preference weight must be finite and non-negative")
  match p.perf with
  | none => .ok ()
  | some t => do
    checkText "perf param" t.param
    checkText "perf param value" t.paramValue
    ensure (t.budget.all isWeight = true) (bad "perf budget must be finite and non-negative")

def ScoringWeights.validate (w : ScoringWeights F) : Except PlacementTypeError Unit :=
  let all := [w.native, w.devFallback, w.emulated, w.accelFit, w.perf, w.interactivePerfMultiplier, w.load,
    w.stickiness, w.sticky]
  ensure (all.all isWeight = true) (bad "scoring weights must be finite and non-negative")

def PlacementRequest.validate (request : PlacementRequest F) : Except PlacementTypeError Unit := do
  request.spec.validate
  request.weights.validate
  let ids := request.pin.toList ++ request.currentNode.toList ++ request.affinity.prefer ++ request.affinity.avoid
  ids.forM fun id => ensure (printable id = true) (bad "node ids must be 1..=256 printable bytes")
  ensure (request.affinity.prefer.length ≤ MAX_LIST ∧ request.affinity.avoid.length ≤ MAX_LIST)
    (bad "too many affinity entries")

def ScoreBreakdown.total (s : ScoreBreakdown F) : F :=
  Arith.add (Arith.add (Arith.add (Arith.add (Arith.add s.execution s.locality) s.accelFit) s.perf) s.load)
    s.stickiness

end

end Weftos.Placement.Request
