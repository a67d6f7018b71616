import Weftos.Placement.Matching
import Weftos.Placement.Request

/-! Phase A of placement: the hard constraints of one node
(`clawft-types/src/placement/engine/constraints.rs`, `memory.rs`). Every constraint a node
fails is recorded, not only the first. -/

namespace Weftos.Placement.Constraints
open Lib.Outcome Lib.Text Candidates Assign
open Matching Request List

/-! ### Memory -/

def u64Max : UInt64 := UInt64.ofNat (2 ^ 64 - 1)

def saturatingAdd (a b : UInt64) : UInt64 := if a.toNat + b.toNat < 2 ^ 64 then a + b else u64Max

theorem u64Max_toNat : u64Max.toNat = 2 ^ 64 - 1 := by decide

theorem saturatingAdd_toNat (a b : UInt64) : (saturatingAdd a b).toNat = min (a.toNat + b.toNat) (2 ^ 64 - 1) := by
  unfold saturatingAdd
  split_ifs with fits
  · rw [UInt64.toNat_add, Nat.mod_eq_of_lt fits]
    omega
  · rw [u64Max_toNat]
    omega

inductive MemoryPool where
  | unified
  | system
  | vram

structure MemoryShortfall where
  pool : MemoryPool
  need : UInt64
  free : UInt64

structure MemoryLedger where
  unified : Bool
  hostFree : UInt64
  vramFree : UInt64

section
variable {F : Type} [Arith F]

def bytes (cap : Capability F) (attr : String) : Option UInt64 :=
  ((cap.attrs.lookup attr).bind AttrValue.asF64).map fun f =>
    if Arith.lt Arith.zero f then Arith.asU64 f else 0

def freeOf (cap : Capability F) : UInt64 := ((bytes cap "free").or (bytes cap "total")).getD 0

def MemoryLedger.fromCapabilities (caps : List (Capability F)) : MemoryLedger :=
  let find (id : String) := caps.find? (·.id.text = id)
  let system := ((find "mem.system").map freeOf).getD 0
  match find "mem.unified" with
  | some u => ⟨true, ((bytes u "free").or (bytes u "total")).getD system, 0⟩
  | none => ⟨false, system, ((caps.filter (·.id.text = "mem.vram")).map freeOf).foldl saturatingAdd 0⟩

end

def MemoryLedger.check (ledger : MemoryLedger) (d : MemoryDemand) : Except MemoryShortfall Unit :=
  if ledger.unified then
    let need := saturatingAdd d.hostBytes d.accelBytes
    ensure (need ≤ ledger.hostFree) ⟨.unified, need, ledger.hostFree⟩
  else do
    ensure (d.hostBytes ≤ ledger.hostFree) ⟨.system, d.hostBytes, ledger.hostFree⟩
    ensure (d.accelBytes ≤ ledger.vramFree) ⟨.vram, d.accelBytes, ledger.vramFree⟩

def MemoryLedger.Holds (ledger : MemoryLedger) (host accel : Nat) : Prop :=
  if ledger.unified then min (host + accel) (2 ^ 64 - 1) ≤ ledger.hostFree.toNat
  else min host (2 ^ 64 - 1) ≤ ledger.hostFree.toNat ∧ min accel (2 ^ 64 - 1) ≤ ledger.vramFree.toNat

/-! ### Messages -/

def rej (constraint : Constraint) (detail : String) : Rejection := ⟨constraint, detail⟩

def provenanceDebug : Provenance → String
  | .claimed => "Claimed"
  | .probed => "Probed"
  | .measured => "Measured"

/-- `format!("{op:?}").to_lowercase()`. -/
def opName : PredicateOp → String
  | .eq => "eq"
  | .gte => "gte"
  | .lte => "lte"
  | .isIn => "in"
  | .has => "has"

def stateName : CapabilityState → String
  | .available => "available"
  | .busy => "busy"
  | .reserved => "reserved"
  | .degraded => "degraded"

def describeShortfall (s : MemoryShortfall) : String :=
  let pool := match s.pool with
    | .unified => "unified"
    | .system => "system"
    | .vram => "vram"
  s!"{pool} pool: need {s.need} bytes, free {s.free} bytes"

variable {cluster : ClusterState}

section
variable {F : Type} {request : PlacementRequest F} {node : PlacementFacts F}

def describeFailure (req : Requirement F) (failure : MatchFailure) : String :=
  let sel := req.selector.asStr
  match failure with
  | .noSuchId _ => s!"{sel}: not advertised"
  | .provenanceTooLow best need =>
    toLowercase (s!"{sel}: provenance " ++ provenanceDebug best ++ " below " ++ provenanceDebug need)
  | .predicateFailed attr op => s!"{sel}: predicate `{attr} " ++ opName op ++ "` failed"
  | .unavailable state => s!"{sel}: unavailable (" ++ stateName state ++ ")"
  | .insufficientCount available need => s!"{sel}: {available} usable, need {need}"
  | .contended need => s!"{sel}: contended (need {need} exclusive)"

def failureConstraint : MatchFailure → Constraint
  | .provenanceTooLow _ _ => .provenance
  | _ => .requirements

def matchRejections (front : String) (reqs : List (Requirement F)) (fails : List (Nat × MatchFailure)) :
    List Rejection :=
  fails.map fun p => rej (failureConstraint p.2) (front ++ (reqs[p.1]?.map (describeFailure · p.2)).getD "")

/-! ### Route -/

def raiseProvenance (floor : Option Provenance) (req : Requirement F) : Requirement F :=
  match floor with
  | some f => if req.minProvenance.all (fun p => p.rank < f.rank) then { req with minProvenance := some f } else req
  | none => req

structure Eligible (F : Type) where
  variant : ExecutionVariant F
  tier : Tier
  assignment : List (List Nat)

section
variable (request : PlacementRequest F)

def commonRequirements : List (Requirement F) :=
  request.spec.requirements.common.map (raiseProvenance request.spec.policy.minProvenance)

def routeRequirements (v : ExecutionVariant F) : List (Requirement F) :=
  commonRequirements request ++ v.requirements.map (raiseProvenance request.spec.policy.minProvenance)

def tierOf (caps : List (Capability F)) : Execution → Tier
  | .emulated => .emulated
  | .native => if caps.any (·.id.text = request.weights.devFallbackClass) then .devFallback else .native

end

/-! ### The other constraints -/

def totalDemand (demand : MemoryDemand) (onNode : List InstanceRecord) : MemoryDemand :=
  onNode.foldl (fun acc i => ⟨saturatingAdd acc.hostBytes i.pending.hostBytes,
    saturatingAdd acc.accelBytes i.pending.accelBytes⟩) demand

def neighbourConflicts (policy : PlacementPolicy F) (inst : InstanceRecord) : List Rejection :=
  ((inst.labels.find? (· ∈ policy.excludes)).map fun l =>
    rej .coResidency s!"this workload excludes `{l}`, which runs here").toList ++
  ((inst.excludes.find? (· ∈ policy.labels)).map fun l =>
    rej .coResidency s!"an instance here excludes `{l}`").toList

section
variable (request : PlacementRequest F)

variable (node : PlacementFacts F)

def checkCoResidency (cluster : ClusterState) :
    List Rejection :=
  (cluster.neighboursOn node.nodeId request.spec).flatMap (neighbourConflicts request.spec.policy)

def checkLife (cluster : ClusterState)
    (revokedRef : Option String) : List Rejection :=
  let min := request.spec.policy.minTrust
  (if node.nodeId ∈ cluster.revokedNodes then [rej .nodeRevoked "node is revoked"] else []) ++
  (if node.liveness ≠ .alive then [rej .liveness s!"node is {node.liveness.asStr}"] else []) ++
  (match node.factsExpireAtMs with
    | some exp =>
      if exp ≤ cluster.nowMs then
        [rej .factsExpired s!"facts expired at {exp} ms, now {cluster.nowMs} ms"]
      else []
    | none => []) ++
  (if node.trustTier.rank < min.rank then
    [rej .trust s!"node tier {node.trustTier.asStr} below required {min.asStr}"] else []) ++
  (revokedRef.map fun r => rej .workloadRevoked s!"`{r}` is revoked").toList

def checkGate : List Rejection :=
  match request.gate.verdictFor node.nodeId with
  | .permit => []
  | .deny reason => [rej .gate s!"workload.place denied: {reason}"]

end

/-- A permit for the node; a node without a verdict of its own has none. -/
def Permits : GateInput → String → Prop
  | .uniform verdict, _ => verdict = .permit
  | .perNode verdicts, nodeId => verdicts.lookup nodeId = some .permit

theorem checkCoResidency_nil (passed : checkCoResidency request node cluster = []) (listed : inst ∈ cluster.instances)
    (here : inst.nodeId = node.nodeId) (other : inst.workload ≠ some (.of request.spec)) :
    (∀ l ∈ inst.labels, l ∉ request.spec.policy.excludes) ∧ ∀ l ∈ inst.excludes, l ∉ request.spec.policy.labels := by
  have neighbour : inst ∈ cluster.neighboursOn node.nodeId request.spec := by
    simp [ClusterState.neighboursOn, ClusterState.instancesOn, listed, here, other]
  have quiet := flatMap_eq_nil_iff.mp passed inst neighbour
  simp only [neighbourConflicts, append_eq_nil_iff, Option.toList_eq_nil_iff, Option.map_eq_none_iff,
    find?_eq_none, decide_eq_true_eq] at quiet
  exact quiet

theorem checkGate_nil (passed : checkGate request node = []) : Permits request.gate node.nodeId := by
  unfold checkGate at passed
  cases verdict : request.gate.verdictFor node.nodeId with
  | deny reason =>
    rw [verdict] at passed
    cases passed
  | permit =>
    cases gate : request.gate with
    | uniform v =>
      rw [gate] at verdict
      exact verdict
    | perNode verdicts =>
      rw [gate] at verdict
      show verdicts.lookup node.nodeId = some .permit
      change (verdicts.lookup node.nodeId).getD _ = _ at verdict
      cases found : verdicts.lookup node.nodeId with
      | none =>
        rw [found] at verdict
        cases verdict
      | some v =>
        rw [found] at verdict
        exact congrArg some verdict

/-! ### Matching a node -/

variable [Arith F]

section
variable (request : PlacementRequest F)

section
variable (caps : List (Capability F))

def matchedVariants :
    List (ExecutionVariant F × List (List Nat)) :=
  request.spec.effectiveVariants.filterMap fun v =>
    (matchAll (routeRequirements request v) caps).toOption.map fun a => (v, a)

def variantFailures : List Rejection :=
  request.spec.effectiveVariants.flatMap fun v =>
    match matchAll (routeRequirements request v) caps with
    | .ok _ => []
    | .error fails =>
      let front := if request.spec.requirements.variants.isEmpty then "" else s!"variant {v.name}: "
      matchRejections front (routeRequirements request v) fails

/-- The first native variant that fits, else the first emulated one if the operator
allowed emulation. -/
def pickVariant :
    Option (ExecutionVariant F × List (List Nat)) :=
  let matched := matchedVariants request caps
  (matched.find? fun p => p.1.execution = .native).or
    (matched.find? fun p => p.1.execution = .emulated && request.allowEmulated)

end

variable (node : PlacementFacts F)

def chooseRoute : Except (List Rejection) (Eligible F) :=
  let caps := node.capabilities
  let common := commonRequirements request
  match matchAll common caps with
  | .error fails => .error (matchRejections "" common fails)
  | .ok _ =>
    match pickVariant request caps with
    | some (variant, assignment) => .ok ⟨variant, tierOf request caps variant.execution, assignment⟩
    | none =>
      let matched := matchedVariants request caps
      if matched.isEmpty then .error (variantFailures request caps)
      else
        let names := String.intercalate ", " (matched.map (·.1.name))
        .error [rej .emulationNotAllowed
          s!"only emulated route(s) fit ({names}); emulation needs explicit allow_emulated"]

def checkMemory (cluster : ClusterState) :
    Option Rejection :=
  let demand := request.spec.requirements.memory
  if demand = .none then none
  else
    match (MemoryLedger.fromCapabilities node.capabilities).check
        (totalDemand demand (cluster.instancesOn node.nodeId)) with
    | .ok _ => none
    | .error s => some (rej .memory (describeShortfall s))

/-- Every constraint of phase A. `revokedRef` is the first of the workload's revoked
references. -/
def checkNode (cluster : ClusterState)
    (revokedRef : Option String) : Except (List Rejection) (Eligible F) :=
  let before := checkLife request node cluster revokedRef ++ checkCoResidency request node cluster ++
    (checkMemory request node cluster).toList
  match chooseRoute request node with
  | .error failures => .error (before ++ failures ++ checkGate request node)
  | .ok e =>
    if (before ++ checkGate request node).isEmpty then .ok e else .error (before ++ checkGate request node)

end

/-! ### What a node that passes satisfies -/

def pendingOn (cluster : ClusterState) (nodeId : String) (part : MemoryDemand → UInt64) : Nat :=
  ((cluster.instancesOn nodeId).map fun i => (part i.pending).toNat).sum

structure Passes (request : PlacementRequest F) (cluster : ClusterState) (node : PlacementFacts F) (e : Eligible F) :
    Prop where
  notRevoked : node.nodeId ∉ cluster.revokedNodes
  alive : node.liveness = .alive
  unexpired : ∀ exp, node.factsExpireAtMs = some exp → cluster.nowMs < exp
  trusted : request.spec.policy.minTrust.rank ≤ node.trustTier.rank
  refsValid : ∀ r ∈ request.spec.policy.revocableRefs, r ∉ cluster.revokedRefs
  apart : ∀ inst ∈ cluster.instances, inst.nodeId = node.nodeId → inst.workload ≠ some (.of request.spec) →
    (∀ l ∈ inst.labels, l ∉ request.spec.policy.excludes) ∧ ∀ l ∈ inst.excludes, l ∉ request.spec.policy.labels
  -- a workload that asks for no memory is not measured against the pools
  memory : request.spec.requirements.memory ≠ .none →
    (MemoryLedger.fromCapabilities node.capabilities).Holds
      (request.spec.requirements.memory.hostBytes.toNat + pendingOn cluster node.nodeId (·.hostBytes))
      (request.spec.requirements.memory.accelBytes.toNat + pendingOn cluster node.nodeId (·.accelBytes))
  permitted : Permits request.gate node.nodeId
  variant : e.variant ∈ request.spec.effectiveVariants
  fits : Joint (routeRequirements request e.variant) node.capabilities e.assignment
  emulated : e.variant.execution = .emulated → request.allowEmulated = true
  tier : e.tier = tierOf request node.capabilities e.variant.execution

theorem totalDemand_part {part : MemoryDemand → UInt64}
    (sums : ∀ acc more : MemoryDemand, part ⟨saturatingAdd acc.hostBytes more.hostBytes,
      saturatingAdd acc.accelBytes more.accelBytes⟩ = saturatingAdd (part acc) (part more))
    (demand : MemoryDemand) (onNode : List InstanceRecord) :
    (part (totalDemand demand onNode)).toNat =
      min ((part demand).toNat + (onNode.map fun i => (part i.pending).toNat).sum) (2 ^ 64 - 1) := by
  unfold totalDemand
  induction onNode generalizing demand with
  | nil =>
    have bound := (part demand).toNat_lt
    simp only [foldl_nil, map_nil, sum_nil]
    omega
  | cons inst rest ih =>
    rw [foldl_cons, ih, sums, saturatingAdd_toNat, map_cons, sum_cons]
    omega

theorem MemoryLedger.check_ok_iff {ledger : MemoryLedger}
    (hostSum : d.hostBytes.toNat = min host (2 ^ 64 - 1)) (accelSum : d.accelBytes.toNat = min accel (2 ^ 64 - 1)) :
    ledger.check d = .ok () ↔ ledger.Holds host accel := by
  unfold MemoryLedger.check MemoryLedger.Holds
  split
  · rw [ensure_ok_iff, UInt64.le_iff_toNat_le, saturatingAdd_toNat]
    omega
  · simp only [bind_ok_iff, ensure_ok_iff, exists_and_left, UInt64.le_iff_toNat_le]
    simp [hostSum, accelSum]

theorem checkMemory_none_iff (asks : request.spec.requirements.memory ≠ .none) :
    checkMemory request node cluster = none ↔
    (MemoryLedger.fromCapabilities node.capabilities).Holds
      (request.spec.requirements.memory.hostBytes.toNat + pendingOn cluster node.nodeId (·.hostBytes))
      (request.spec.requirements.memory.accelBytes.toNat + pendingOn cluster node.nodeId (·.accelBytes)) := by
  unfold checkMemory pendingOn
  rw [if_neg asks, ← MemoryLedger.check_ok_iff (totalDemand_part (fun _ _ => rfl) _ _)
    (totalDemand_part (fun _ _ => rfl) _ _)]
  split <;> simp_all

theorem pickVariant_some (picked : pickVariant request caps = some (v, a)) :
    v ∈ request.spec.effectiveVariants ∧ Joint (routeRequirements request v) caps a ∧
      (v.execution = .emulated → request.allowEmulated = true) := by
  have listed : (v, a) ∈ matchedVariants request caps ∧
      (v.execution = .emulated → request.allowEmulated = true) := by
    rcases Option.or_eq_some_iff.mp picked with first | ⟨_, second⟩
    · have native := find?_some first
      refine ⟨mem_of_find?_eq_some first, fun emulated => ?_⟩
      simp [emulated] at native
    · have allowed := find?_some second
      exact ⟨mem_of_find?_eq_some second, fun _ => (Bool.and_eq_true_iff.mp allowed).2⟩
  obtain ⟨w, inside, fitted⟩ := mem_filterMap.mp listed.1
  obtain ⟨b, matched, same⟩ := Option.map_eq_some_iff.mp fitted
  cases same
  cases outcome : matchAll (routeRequirements request v) caps with
  | error failures =>
    rw [outcome] at matched
    cases matched
  | ok b =>
    rw [outcome] at matched
    cases matched
    exact ⟨inside, matchAll_sound outcome, listed.2⟩

theorem chooseRoute_ok (routed : chooseRoute request node = .ok e) :
    pickVariant request node.capabilities = some (e.variant, e.assignment) ∧
      e.tier = tierOf request node.capabilities e.variant.execution := by
  unfold chooseRoute at routed
  cases common : matchAll (commonRequirements request) node.capabilities with
  | error fails =>
    simp only [common] at routed
    cases routed
  | ok _ =>
    cases picked : pickVariant request node.capabilities with
    | some choice =>
      simp only [common, picked] at routed
      cases routed
      exact ⟨rfl, rfl⟩
    | none =>
      simp only [common, picked] at routed
      split_ifs at routed

theorem checkNode_ok
    (passed : checkNode request node cluster (request.spec.policy.revocableRefs.find? (· ∈ cluster.revokedRefs)) =
      .ok e) :
    Passes request cluster node e := by
  unfold checkNode at passed
  cases routed : chooseRoute request node with
  | error failures =>
    simp only [routed] at passed
    cases passed
  | ok found =>
    simp only [routed, List.isEmpty_iff] at passed
    split_ifs at passed with quiet
    cases passed
    obtain ⟨picked, tier⟩ := chooseRoute_ok routed
    obtain ⟨inside, joint, emulated⟩ := pickVariant_some picked
    simp only [append_eq_nil_iff, checkLife, Option.toList_eq_nil_iff, Option.map_eq_none_iff] at quiet
    obtain ⟨⟨⟨⟨⟨⟨⟨revoked, alive⟩, expired⟩, trust⟩, refs⟩, neighbours⟩, memory⟩, gate⟩ := quiet
    constructor
    · by_contra listed
      simp [listed] at revoked
    · by_contra other
      simp [other] at alive
    · intro exp given
      rw [given] at expired
      by_contra late
      simp [UInt64.not_lt.mp late] at expired
    · by_contra low
      simp [not_le.mp low] at trust
    · intro r listed
      simpa using find?_eq_none.mp refs r listed
    · exact fun inst listed here other => checkCoResidency_nil neighbours listed here other
    · exact fun asks => (checkMemory_none_iff asks).mp memory
    · exact checkGate_nil gate
    · exact inside
    · exact joint
    · exact emulated
    · exact tier

theorem chooseRoute_error_ne_nil (failed : chooseRoute request node = .error failures) : failures ≠ [] := by
  have reasons {front : String} {reqs : List (Requirement F)} {fails : List (Nat × MatchFailure)}
      (unmatched : matchAll reqs node.capabilities = .error fails) : matchRejections front reqs fails ≠ [] := by
    intro none
    exact matchAll_error_ne_nil unmatched (map_eq_nil_iff.mp none)
  unfold chooseRoute at failed
  cases common : matchAll (commonRequirements request) node.capabilities with
  | error fails =>
    simp only [common] at failed
    cases failed
    exact reasons common
  | ok _ =>
    cases picked : pickVariant request node.capabilities with
    | some choice =>
      simp only [common, picked] at failed
      cases failed
    | none =>
      simp only [common, picked] at failed
      split_ifs at failed with unmatched
      · cases failed
        intro none
        have present : request.spec.effectiveVariants ≠ [] := by
          unfold WorkloadSpec.effectiveVariants
          split_ifs with implicit
          · simp
          · simpa using implicit
        obtain ⟨v, listed⟩ := exists_mem_of_ne_nil _ present
        have silent := flatMap_eq_nil_iff.mp none v listed
        cases outcome : matchAll (routeRequirements request v) node.capabilities with
        | ok a =>
          have fitted := filterMap_eq_nil_iff.mp (List.isEmpty_iff.mp unmatched) v listed
          rw [outcome] at fitted
          cases fitted
        | error fails =>
          simp only [outcome] at silent
          exact reasons outcome silent
      · cases failed
        simp

theorem checkNode_error_ne_nil (failed : checkNode request node cluster revokedRef = .error failures) :
    failures ≠ [] := by
  unfold checkNode at failed
  cases routed : chooseRoute request node with
  | error fails =>
    simp only [routed] at failed
    cases failed
    simp [chooseRoute_error_ne_nil routed]
  | ok e =>
    simp only [routed, List.isEmpty_iff] at failed
    split_ifs at failed with quiet
    cases failed
    exact quiet

end

end Weftos.Placement.Constraints
