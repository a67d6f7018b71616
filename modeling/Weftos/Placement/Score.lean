import Weftos.Lib.Ranking
import Weftos.Placement.Constraints

/-! Phase B of placement: scoring the nodes that passed the constraints
(`clawft-types/src/placement/engine/score.rs`). Relative components are normalised
against the best survivor. -/

namespace Weftos.Placement.Score
open Lib.Ranking Candidates Request Constraints

def ACCEL_FAMILY : String := "accel"
def ACCEL_MEM_ATTR : String := "mem_bytes"
def VALUE_ATTR : String := "value"

def family (id : CapabilityId) : String := String.ofList ((id.text.toList.splitOn '.').headD [])

def sortFlags (flags : List Flag) : List Flag := sortBy (compareOn Flag.rank) flags

section
variable {F : Type} [Arith F]

/-! ### Measured performance -/

def validMeasurement (v : F) : Bool := Arith.isFinite v && F64.le Arith.zero v

def measurements (caps : List (Capability F)) (t : PerfTarget F) : List F :=
  let vals := caps.filter fun c => c.id = t.id && c.provenance = .measured &&
    (c.attrs.lookup t.param).any fun v => v.looseEq (.str t.paramValue)
  (vals.filterMap fun c => (c.attrs.lookup VALUE_ATTR).bind AttrValue.asF64).filter validMeasurement

def better : Better → F → F → F
  | .lower => Arith.min
  | .higher => Arith.max

/-- The best valid measured value on a node; `none` for an unmeasured one. -/
def measured (caps : List (Capability F)) (t : PerfTarget F) : Option F :=
  reduce (better t.better) (measurements caps t)

def meets (t : PerfTarget F) (v : F) : Bool :=
  match t.budget, t.better with
  | none, _ => true
  | some b, .lower => F64.le v b
  | some b, .higher => F64.le b v

def measuredOn (request : PlacementRequest F) (node : PlacementFacts F) : Option F :=
  request.spec.policy.perf.bind (measured node.capabilities)

def bestPerf (request : PlacementRequest F) (nodes : List (PlacementFacts F)) : Option F :=
  request.spec.policy.perf.bind fun t =>
    reduce (better t.better) ((nodes.filterMap (measuredOn request)).filter (meets t))

/-! ### Accelerators -/

def assignedAccels (caps : List (Capability F)) (e : Eligible F) : List (Capability F) :=
  ((e.assignment.flatten.insertionSort (· ≤ ·)).dedup.filterMap (caps[·]?)).filter fun c => family c.id = ACCEL_FAMILY

def accelCapacity (accels : List (Capability F)) : Option F :=
  reduce Arith.add (accels.filterMap fun c => (c.attrs.lookup ACCEL_MEM_ATTR).bind AttrValue.asF64)

def smallestAccel (pairs : List (PlacementFacts F × Eligible F)) : Option F :=
  reduce Arith.min (pairs.filterMap fun p => accelCapacity (assignedAccels p.1.capabilities p.2))

def clamp (f : F) : F := if Arith.lt f Arith.zero then Arith.zero else if Arith.lt Arith.one f then Arith.one else f

def ratio (best this : F) : Better → F
  | .lower => clamp (if Arith.lt Arith.zero this then Arith.div best this else Arith.one)
  | .higher => clamp (if Arith.lt Arith.zero best then Arith.div this best else Arith.one)

/-! ### Components -/

def executionScore (w : ScoringWeights F) : Tier → F
  | .native => w.native
  | .devFallback => w.devFallback
  | .emulated => w.emulated

def matchesCaps (req : Requirement F) (caps : List (Capability F)) : Bool :=
  match req.candidates caps with
  | .ok usable => req.count.toNat ≤ usable.length
  | .error _ => false

def localityScore (policy : PlacementPolicy F) (caps : List (Capability F)) : F :=
  ((policy.preferences.filter fun p => matchesCaps p.requirement caps).map (·.weight)).foldl Arith.add Arith.zero

/-- A workload without an accelerator prefers nodes that have none to waste; one with an
accelerator, the smallest that fits. -/
def accelScore (w : ScoringWeights F) (smallest : Option F) (caps accels : List (Capability F)) : F :=
  if accels.isEmpty then
    if caps.any fun c => family c.id = ACCEL_FAMILY then Arith.zero else w.accelFit
  else
    match smallest, accelCapacity accels with
    | some min, some this => Arith.mul w.accelFit (ratio min this .lower)
    | _, _ => w.accelFit

def perfWeight (request : PlacementRequest F) : F :=
  match request.spec.policy.latencyClass with
  | .interactive => Arith.mul request.weights.perf request.weights.interactivePerfMultiplier
  | .batch => request.weights.perf

/-- The performance component with its flags; a measured value over the budget rejects. -/
def perfScore (request : PlacementRequest F) (best value : Option F) : Except Rejection (F × List Flag) :=
  match request.spec.policy.perf with
  | none => .ok (Arith.zero, [])
  | some t =>
    match value with
    | none => .ok (Arith.zero, [.unmeasured])
    | some v =>
      if meets t v then .ok (Arith.mul (perfWeight request) (ratio (best.getD v) v t.better), [])
      else
        let budget := Arith.text (t.budget.getD Arith.zero)
        .error ⟨.perfBudget, s!"measured {t.id.text} " ++ Arith.text v ++ " misses budget " ++ budget⟩

def loadScore (w : ScoringWeights F) : Option F → F × List Flag
  | some l =>
    if Arith.isFinite l then (Arith.mul w.load (Arith.sub Arith.one (clamp l)), []) else (Arith.zero, [.loadUnknown])
  | none => (Arith.zero, [.loadUnknown])

section
variable (request : PlacementRequest F)

def stickinessScore (nodeId : String) : F :=
  if request.currentNode = some nodeId then
    if request.spec.policy.sticky then request.weights.sticky else request.weights.stickiness
  else Arith.zero

def scoreNode (best smallest : Option F) (node : PlacementFacts F) (e : Eligible F) :
    Except Rejection (ScoreBreakdown F × List Flag) := do
  let w := request.weights
  let caps := node.capabilities
  let (perf, perfFlags) ← perfScore request best (measuredOn request node)
  let (load, loadFlags) := loadScore w node.load
  let emulated := if e.tier = .emulated then [Flag.emulated] else []
  .ok ({ execution := executionScore w e.tier
         locality := localityScore request.spec.policy caps
         accelFit := accelScore w smallest caps (assignedAccels caps e)
         perf
         load
         stickiness := stickinessScore request node.nodeId },
    sortFlags (emulated ++ perfFlags ++ loadFlags))

/-- `survivors` goes with `nodes`, place by place. -/
def scoreAll (nodes : List (PlacementFacts F)) (survivors : List (Eligible F)) :
    List (Except Rejection (ScoreBreakdown F × List Flag)) :=
  let best := bestPerf request nodes
  let smallest := smallestAccel (nodes.zip survivors)
  (nodes.zip survivors).map fun p => scoreNode request best smallest p.1 p.2

end

theorem scoreNode_ok_within (scored : scoreNode request best smallest node e = .ok result) {v : F}
    (target : request.spec.policy.perf = some t) (value : measured node.capabilities t = some v) :
    meets t v = true := by
  by_contra misses
  have fails : ∃ rejection, perfScore request best (measuredOn request node) = .error rejection := by
    unfold perfScore measuredOn
    simp only [target, Option.bind_some, value]
    rw [if_neg misses]
    exact ⟨_, rfl⟩
  obtain ⟨rejection, failed⟩ := fails
  unfold scoreNode at scored
  rw [failed] at scored
  cases scored

end

end Weftos.Placement.Score
