import Weftos.Placement.Score

/-! Placing one workload (`clawft-types/src/placement/engine/mod.rs`). -/

namespace Weftos.Placement.Place
open Lib.Outcome Lib.Ranking Lib.Text Candidates
open Request Constraints Score List Arith

section
variable {F : Type} {eligible : List (NodeReport F)} {i : Nat}

/-! ### Reports -/

def report (nodeId : String) (rejections : List Rejection) : NodeReport F :=
  ⟨nodeId, rejections, none, none, none, [], []⟩

def tierRank (r : NodeReport F) : Nat := (r.tier.map Tier.rank).getD 255

def assignedIds (caps : List (Capability F)) (e : Eligible F) : List (List String) :=
  e.assignment.map fun v => v.filterMap fun i => caps[i]?.map (·.id.text)

def addFlag (f : Flag) (r : NodeReport F) : NodeReport F :=
  if f ∈ r.flags then r else { r with flags := sortFlags (r.flags ++ [f]) }

def unflagged (r : NodeReport F) : NodeReport F := { r with flags := [] }

theorem addFlag_unflagged (f : Flag) (r : NodeReport F) : unflagged (addFlag f r) = unflagged r := by
  unfold addFlag
  split_ifs <;> rfl

theorem modify_unflagged (f : Flag) (reports : List (NodeReport F)) (i : Nat) :
    (reports.modify i (addFlag f)).map unflagged = reports.map unflagged := by
  apply ext_getElem?
  intro j
  rw [List.getElem?_map, List.getElem?_map, List.getElem?_modify]
  by_cases here : i = j
  · cases reports[j]? with
    | none => rfl
    | some r => simp [here, addFlag_unflagged]
  · simp [here]

/-! ### Selection -/

/-- The places of the best tier present. `eligible` is ranked, tier first. -/
def pool (eligible : List (NodeReport F)) : List Nat :=
  let best := eligible.head?.map tierRank
  (range eligible.length).filter fun i => eligible[i]?.map tierRank = best

def select (request : PlacementRequest F) (eligible rejected : List (NodeReport F)) :
    Except PlacementError (Option Nat × List (NodeReport F)) :=
  match request.pin with
  | some pin =>
    match rejected.find? (·.nodeId = pin) with
    | some r => .error (.pinIneligible pin r.rejections)
    | none =>
      -- `expect`: a known pin is eligible or rejected
      let i := eligible.findIdx (·.nodeId = pin)
      .ok (some i, eligible.modify i (addFlag .pinned))
  | none =>
    let named (ids : List String) (i : Nat) : Bool := eligible[i]?.any (·.nodeId ∈ ids)
    let preferred := (pool eligible).filter (named request.affinity.prefer)
    let notAvoided := (pool eligible).filter fun i => !named request.affinity.avoid i
    let base := (pool eligible).head?
    match (preferred.head?.or notAvoided.head?).or base with
    | none => .ok (none, eligible)
    | some i => .ok (some i, if some i = base then eligible else eligible.modify i (addFlag .affinity))

structure Wins (affinity : Affinity) (eligible : List (NodeReport F)) (c : NodeReport F) : Prop where
  listed : c ∈ eligible
  bestTier : ∀ r ∈ eligible, tierRank c ≤ tierRank r
  preferred : ∀ r ∈ eligible, tierRank r = tierRank c → r.nodeId ∈ affinity.prefer → c.nodeId ∈ affinity.prefer
  avoided : c.nodeId ∈ affinity.avoid → c.nodeId ∉ affinity.prefer →
    ∀ r ∈ eligible, tierRank r = tierRank c → r.nodeId ∈ affinity.avoid ∧ r.nodeId ∉ affinity.prefer

theorem mem_pool : i ∈ pool eligible ↔ ∃ r, eligible[i]? = some r ∧
    some (tierRank r) = eligible.head?.map tierRank := by
  unfold pool
  rw [mem_filter, mem_range, decide_eq_true_eq]
  constructor
  · rintro ⟨inside, same⟩
    rw [List.getElem?_eq_getElem inside] at same
    exact ⟨_, List.getElem?_eq_getElem inside, same⟩
  · rintro ⟨r, here, same⟩
    exact ⟨(List.getElem?_eq_some_iff.mp here).1, by rw [here]; exact same⟩

/-- The winner is of the best tier, preferred if the tier has a preferred node, and avoided
only as one of a tier to avoid. -/
theorem wins_of_choice (sorted : eligible.Pairwise fun a b => tierRank a ≤ tierRank b)
    (chosen : (((pool eligible).filter fun i => eligible[i]?.any (·.nodeId ∈ affinity.prefer)).head?.or
      ((pool eligible).filter fun i => !eligible[i]?.any (·.nodeId ∈ affinity.avoid)).head?).or
        (pool eligible).head? = some i) :
    ∃ c, eligible[i]? = some c ∧ Wins affinity eligible c := by
  have ways := chosen
  rw [Option.or_eq_some_iff, Option.or_eq_some_iff] at ways
  have inPool : i ∈ pool eligible := by
    rcases ways with (first | ⟨_, second⟩) | ⟨_, third⟩
    · exact (mem_filter.mp (mem_of_mem_head? first)).1
    · exact (mem_filter.mp (mem_of_mem_head? second)).1
    · exact mem_of_mem_head? third
  obtain ⟨c, here, tier⟩ := mem_pool.mp inPool
  have best (r : NodeReport F) (listed : r ∈ eligible) : tierRank c ≤ tierRank r := by
    cases eligible with
    | nil => cases listed
    | cons head rest =>
      have first : tierRank c = tierRank head := Option.some.inj tier
      rcases mem_cons.mp listed with rfl | later
      · exact first.le
      · exact first.le.trans (rel_of_pairwise_cons sorted later)
  -- every node of the winner's tier stands in the pool
  have place (r : NodeReport F) (listed : r ∈ eligible) (same : tierRank r = tierRank c) :
      ∃ j ∈ pool eligible, eligible[j]? = some r := by
    obtain ⟨j, inside, found⟩ := getElem_of_mem listed
    have there : eligible[j]? = some r := found ▸ List.getElem?_eq_getElem inside
    exact ⟨j, mem_pool.mpr ⟨r, there, by rw [same, tier]⟩, there⟩
  have noneLike {test : Nat → Bool} (empty : ((pool eligible).filter test).head? = none) {r : NodeReport F}
      (listed : r ∈ eligible) (same : tierRank r = tierRank c) :
      ∃ j, eligible[j]? = some r ∧ test j = false := by
    obtain ⟨j, inside, there⟩ := place r listed same
    have none := filter_eq_nil_iff.mp (head?_eq_none_iff.mp empty) j inside
    exact ⟨j, there, by simpa using none⟩
  refine ⟨c, here, mem_of_getElem? here, best, ?_, ?_⟩
  · intro r listed same prefers
    rcases ways with (first | ⟨empty, _⟩) | ⟨empty, _⟩
    · simpa [here] using (mem_filter.mp (mem_of_mem_head? first)).2
    · obtain ⟨j, there, not⟩ := noneLike empty listed same
      simp [there, prefers] at not
    · obtain ⟨j, there, not⟩ := noneLike (Option.or_eq_none_iff.mp empty).1 listed same
      simp [there, prefers] at not
  · intro avoids plain r listed same
    rcases ways with (first | ⟨empty, second⟩) | ⟨empty, _⟩
    · have prefers := (mem_filter.mp (mem_of_mem_head? first)).2
      simp [here, plain] at prefers
    · have kept := (mem_filter.mp (mem_of_mem_head? second)).2
      simp [here, avoids] at kept
    · have both := Option.or_eq_none_iff.mp empty
      obtain ⟨j, there, notPreferred⟩ := noneLike both.1 listed same
      obtain ⟨k, there', avoided⟩ := noneLike both.2 listed same
      constructor
      · simpa [there'] using avoided
      · simpa [there] using notPreferred

structure Selected (request : PlacementRequest F) (eligible rejected : List (NodeReport F)) (chosen : Option Nat)
    (flagged : List (NodeReport F)) : Prop where
  same : flagged.map unflagged = eligible.map unflagged
  empty : chosen = none → eligible = []
  pinned : ∀ i pin, chosen = some i → request.pin = some pin → i = eligible.findIdx (·.nodeId = pin) ∧
    ∀ r ∈ rejected, r.nodeId ≠ pin
  free : ∀ i, chosen = some i → request.pin = none → ∃ c, eligible[i]? = some c ∧ Wins request.affinity eligible c

theorem select_ok (sorted : eligible.Pairwise fun a b => tierRank a ≤ tierRank b)
    (selected : select request eligible rejected = .ok (chosen, flagged)) :
    Selected request eligible rejected chosen flagged := by
  unfold select at selected
  cases pin : request.pin with
  | some id =>
    simp only [pin] at selected
    cases found : rejected.find? (·.nodeId = id) with
    | some r =>
      simp only [found] at selected
      cases selected
    | none =>
      simp only [found] at selected
      cases selected
      constructor
      · exact modify_unflagged ..
      · intro none
        cases none
      · intro i pin' chosen same
        cases chosen
        cases pin.symm.trans same
        exact ⟨rfl, fun r listed => by simpa using find?_eq_none.mp found r listed⟩
      · intro i _ free
        cases pin.symm.trans free
  | none =>
    simp only [pin] at selected
    split at selected
    next absent =>
      cases selected
      constructor
      · rfl
      · intro _
        have empty := head?_eq_none_iff.mp (Option.or_eq_none_iff.mp absent).2
        cases eligible with
        | nil => rfl
        | cons head rest =>
          have first : 0 ∈ pool (head :: rest) := mem_pool.mpr ⟨head, rfl, rfl⟩
          rw [empty] at first
          cases first
      · intro i _ none
        cases none
      · intro i none
        cases none
    next i present =>
      cases selected
      constructor
      · split_ifs
        · rfl
        · exact modify_unflagged ..
      · intro none
        cases none
      · intro i pin' _ some
        cases pin.symm.trans some
      · intro j same _
        cases same
        exact wins_of_choice sorted present

variable [Arith F]

def total (r : NodeReport F) : F := (r.score.map ScoreBreakdown.total).getD zero

/-! ### The two phases -/

def eligibleReport (node : PlacementFacts F) (e : Eligible F) (score : ScoreBreakdown F) (flags : List Flag) :
    NodeReport F :=
  { nodeId := node.nodeId
    rejections := []
    variant := some e.variant.name
    tier := some e.tier
    score := some score
    flags
    assigned := assignedIds node.capabilities e }

def rankCmp : NodeReport F → NodeReport F → Ordering :=
  compareLex (compareOn tierRank)
    (compareLex (fun a b => totalCmp (total b) (total a)) (compareOn NodeReport.nodeId))

instance : Std.TransCmp (rankCmp : NodeReport F → NodeReport F → Ordering) := by
  have scores : Std.TransCmp fun a b : NodeReport F => totalCmp (total b) (total a) :=
    { eq_swap := fun {a b} => @Std.OrientedCmp.eq_swap F totalCmp _ (total b) (total a)
      isLE_trans := fun first second => @Std.TransCmp.isLE_trans F totalCmp _ _ _ _ second first }
  unfold rankCmp
  infer_instance

section
variable (request : PlacementRequest F) (cluster : ClusterState)

def passes (node : PlacementFacts F) : Except (List Rejection) (Eligible F) :=
  checkNode request node cluster (request.spec.policy.revocableRefs.find? (· ∈ cluster.revokedRefs))

variable (facts : List (PlacementFacts F))

/-- The nodes that pass phase A, and in a list of its own what each was given. -/
def survivingNodes : List (PlacementFacts F) :=
  facts.filter fun f => (passes request cluster f).isOk

def survivors : List (Eligible F) :=
  facts.filterMap fun f => (passes request cluster f).toOption

def rejectedA : List (NodeReport F) :=
  facts.filterMap fun f =>
    match passes request cluster f with
    | .ok _ => none
    | .error r => some (report f.nodeId r)

def scored : List ((PlacementFacts F × Eligible F) × Except Rejection (ScoreBreakdown F × List Flag)) :=
  let nodes := survivingNodes request cluster facts
  let passed := survivors request cluster facts
  (nodes.zip passed).zip (scoreAll request nodes passed)

def eligibleB : List (NodeReport F) :=
  (scored request cluster facts).filterMap fun p =>
    match p.2 with
    | .ok (score, flags) => some (eligibleReport p.1.1 p.1.2 score flags)
    | .error _ => none

def rejectedB : List (NodeReport F) :=
  (scored request cluster facts).filterMap fun p =>
    match p.2 with
    | .ok _ => none
    | .error r => some (report p.1.1.nodeId [r])

def ranked : List (NodeReport F) :=
  sortBy rankCmp (eligibleB request cluster facts)

def rejected : List (NodeReport F) :=
  sortBy (compareOn NodeReport.nodeId) (rejectedA request cluster facts ++ rejectedB request cluster facts)

def pairs : List (PlacementFacts F × Eligible F) :=
  facts.filterMap fun f => (passes request cluster f).toOption.map fun e => (f, e)

def bestOf : Option F :=
  bestPerf request (survivingNodes request cluster facts)

def smallestOf : Option F :=
  smallestAccel (pairs request cluster facts)

end

/-- The placement on an eligible node, with its route looked up again by node id. -/
def placementOf (nodes : List (PlacementFacts F)) (passed : List (Eligible F)) (c : NodeReport F) :
    Option (Placement F) :=
  (passed[nodes.findIdx (·.nodeId = c.nodeId)]?).map fun e =>
    { nodeId := c.nodeId
      variant := e.variant.name
      execution := e.variant.execution
      tier := e.tier
      accelerator := c.assigned.flatten.find? (startsWith · "accel.")
      score := c.score.getD ⟨zero, zero, zero, zero, zero, zero⟩
      flags := c.flags }

def checkDistinct (facts : List (PlacementFacts F)) : Except PlacementError Unit :=
  match firstDuplicate [] (facts.map (·.nodeId)) with
  | some dup => .error (.duplicateNode dup)
  | none => .ok ()

section
variable (request : PlacementRequest F)

def checkPin (facts : List (PlacementFacts F)) : Except PlacementError Unit :=
  match request.pin with
  | some pin => ensure (pin ∈ facts.map (·.nodeId)) (.unknownPin pin)
  | none => .ok ()

/-- The ranking, the choice and the answer, once the request is known to be sound. -/
def decision (cluster : ClusterState) (facts : List (PlacementFacts F)) :
    Except PlacementError (Decision F) := do
  let (chosen, eligible) ← select request (ranked request cluster facts) (rejected request cluster facts)
  .ok { kind := request.spec.kind
        name := request.spec.name
        allowEmulated := request.allowEmulated
        pin := request.pin
        placement := (chosen.bind (eligible[·]?)).bind
          (placementOf (survivingNodes request cluster facts) (survivors request cluster facts))
        candidates := eligible ++ rejected request cluster facts }

/-- Place one workload. That no node fits is a decision without a placement, not an
error. -/
def place (facts : List (PlacementFacts F)) (cluster : ClusterState) :
    Except PlacementError (Decision F) := do
  request.validate.mapError PlacementError.invalid
  checkDistinct facts
  checkPin request facts
  decision request cluster facts

/-! ### What becomes of each node -/

def outcome (cluster : ClusterState) (best smallest : Option F)
    (node : PlacementFacts F) : NodeReport F :=
  match passes request cluster node with
  | .error r => report node.nodeId r
  | .ok e =>
    match scoreNode request best smallest node e with
    | .ok (score, flags) => eligibleReport node e score flags
    | .error r => report node.nodeId [r]

end

variable {request : PlacementRequest F} {cluster : ClusterState} {facts : List (PlacementFacts F)}
  {chosen : Option Nat} {flagged : List (NodeReport F)}

theorem zip_survivors : (survivingNodes request cluster facts).zip (survivors request cluster facts) =
    pairs request cluster facts := by
  unfold survivingNodes survivors pairs
  induction facts with
  | nil => rfl
  | cons f rest ih =>
    cases passed : passes request cluster f with
    | error r =>
      have none : (passes request cluster f).toOption = none := by rw [passed]; rfl
      have notOk : (passes request cluster f).isOk = false := by rw [passed]; rfl
      simp only [filter_cons, filterMap_cons, none, notOk, Option.map_none, Bool.false_eq_true, if_false, ih]
    | ok e =>
      have some : (passes request cluster f).toOption = some e := by rw [passed]; rfl
      have isOk : (passes request cluster f).isOk = true := by rw [passed]; rfl
      simp only [filter_cons, filterMap_cons, some, isOk, Option.map_some, if_true, zip_cons_cons, ih]

theorem scored_eq : scored request cluster facts = (pairs request cluster facts).map fun p =>
    (p, scoreNode request (bestOf request cluster facts) (smallestOf request cluster facts) p.1 p.2) := by
  unfold scored scoreAll bestOf smallestOf
  simp only [zip_survivors]
  rw [← map_id (pairs request cluster facts), map_map, zip_map']
  simp

theorem scored_filterMap (read : _ → Option (NodeReport F)) : (scored request cluster facts).filterMap read =
    facts.filterMap fun f => (passes request cluster f).toOption.bind fun e =>
      read ((f, e), scoreNode request (bestOf request cluster facts) (smallestOf request cluster facts) f e) := by
  rw [scored_eq, filterMap_map, pairs, filterMap_filterMap]
  apply filterMap_congr
  intro f _
  cases passes request cluster f with
  | error r => rfl
  | ok e => rfl

theorem reports_perm (request : PlacementRequest F) (cluster : ClusterState) (facts : List (PlacementFacts F)) :
    (eligibleB request cluster facts ++ (rejectedA request cluster facts ++
    rejectedB request cluster facts)).Perm
      (facts.map (outcome request cluster (bestOf request cluster facts) (smallestOf request cluster facts))) := by
  rw [eligibleB, rejectedB, scored_filterMap, scored_filterMap, rejectedA]
  apply filterMap_parts
  intro f _
  unfold outcome
  cases passes request cluster f with
  | error r => exact .inr (.inl ⟨rfl, rfl, rfl⟩)
  | ok e =>
    dsimp only [Except.toOption, Option.bind]
    cases scoreNode request (bestOf request cluster facts) (smallestOf request cluster facts) f e with
    | error r => exact .inr (.inr ⟨rfl, rfl, rfl⟩)
    | ok scored => exact .inl ⟨rfl, rfl, rfl⟩

theorem outcome_nodeId (best smallest : Option F) (node : PlacementFacts F) :
    (outcome request cluster best smallest node).nodeId = node.nodeId := by
  unfold outcome
  cases passes request cluster node with
  | error r => rfl
  | ok e =>
    dsimp only
    cases scoreNode request best smallest node e with
    | error r => rfl
    | ok scored => rfl

theorem reports_ids (facts : List (PlacementFacts F)) : ((eligibleB request cluster facts ++
    (rejectedA request cluster facts ++ rejectedB request cluster facts)).map (·.nodeId)).Perm
      (facts.map (·.nodeId)) := by
  have all := (reports_perm request cluster facts).map NodeReport.nodeId
  rw [map_map] at all
  apply all.trans
  apply List.Perm.of_eq
  apply map_congr_left
  intro node _
  exact outcome_nodeId _ _ node

theorem mem_eligibleB (listed : c ∈ eligibleB request cluster facts) :
    ∃ node e score flags, node ∈ facts ∧ passes request cluster node = .ok e ∧
      c = eligibleReport node e score flags ∧
      ∀ t v, request.spec.policy.perf = some t → measured node.capabilities t = some v → meets t v = true := by
  rw [eligibleB, scored_filterMap] at listed
  obtain ⟨node, inside, found⟩ := mem_filterMap.mp listed
  cases passed : passes request cluster node with
  | error r =>
    rw [passed] at found
    cases found
  | ok e =>
    simp only [passed, Except.toOption, Option.bind_some] at found
    cases scored : scoreNode request (bestOf request cluster facts) (smallestOf request cluster facts) node e with
    | error r =>
      simp only [scored] at found
      cases found
    | ok result =>
      simp only [scored] at found
      cases found
      exact ⟨node, e, result.1, result.2, inside, passed, rfl,
        fun t v target value => scoreNode_ok_within scored target value⟩

theorem mem_rejected (listed : c ∈ rejected request cluster facts) : c.rejections ≠ [] := by
  have either := (sortBy_perm _ _).subset listed
  rcases mem_append.mp either with inA | inB
  · obtain ⟨node, _, found⟩ := mem_filterMap.mp inA
    cases passed : passes request cluster node with
    | ok e =>
      rw [passed] at found
      cases found
    | error r =>
      rw [passed] at found
      cases found
      exact checkNode_error_ne_nil passed
  · obtain ⟨p, _, found⟩ := mem_filterMap.mp inB
    cases scored : p.2 with
    | ok result =>
      rw [scored] at found
      cases found
    | error r =>
      rw [scored] at found
      cases found
      exact cons_ne_nil r []

/-! ### The decision -/

theorem ranked_sorted : (ranked request cluster facts).Pairwise fun a b => tierRank a ≤ tierRank b := by
  apply (sortBy_sorted (eligibleB request cluster facts)).imp
  intro a b before
  unfold rankCmp compareLex at before
  by_contra higher
  have after : compareOn tierRank a b = .gt := Nat.compare_eq_gt.mpr (Nat.not_le.mp higher)
  rw [after] at before
  cases before

theorem survivor_lookup (distinct : (facts.map (·.nodeId)).Nodup)
    (inside : node ∈ facts) (passed : passes request cluster node = .ok e) :
    (survivors request cluster facts)[(survivingNodes request cluster facts).findIdx
      (·.nodeId = node.nodeId)]? = some e := by
  have listed : (node, e) ∈ pairs request cluster facts :=
    mem_filterMap.mpr ⟨node, inside, by rw [passed]; rfl⟩
  rw [← zip_survivors] at listed
  obtain ⟨k, bound, found⟩ := getElem_of_mem listed
  rw [getElem_zip] at found
  have here := congrArg Prod.fst found
  have there := congrArg Prod.snd found
  dsimp only at here there
  rw [length_zip] at bound
  have inNodes : k < (survivingNodes request cluster facts).length := by omega
  have inPassed : k < (survivors request cluster facts).length := by omega
  have once : ((survivingNodes request cluster facts).map (·.nodeId)).Nodup :=
    distinct.sublist (filter_sublist.map _)
  have place : (survivingNodes request cluster facts).findIdx (·.nodeId = node.nodeId) = k := by
    rw [findIdx_eq inNodes]
    constructor
    · simp [here]
    · intro j before
      have apart := pairwise_iff_getElem.mp once j k (by simp; omega) (by simpa using inNodes) before
      simpa [here] using apart
  rw [place, List.getElem?_eq_getElem inPassed, there]

theorem place_ok (placed : place request facts cluster = .ok d) :
    (facts.map (·.nodeId)).Nodup ∧ (∀ pin, request.pin = some pin → pin ∈ facts.map (·.nodeId)) ∧
      ∃ chosen flagged, Selected request (ranked request cluster facts) (rejected request cluster facts) chosen
        flagged ∧
        d.placement = (chosen.bind (flagged[·]?)).bind
          (placementOf (survivingNodes request cluster facts) (survivors request cluster facts)) ∧
        d.candidates = flagged ++ rejected request cluster facts := by
  unfold place decision at placed
  simp only [bind_ok_iff] at placed
  obtain ⟨_, _, _, noDuplicate, _, known, ⟨chosen, flagged⟩, selected, made⟩ := placed
  cases made
  refine ⟨?_, ?_, chosen, flagged, select_ok ranked_sorted selected, rfl, rfl⟩
  · unfold checkDistinct at noDuplicate
    cases duplicate : firstDuplicate [] (facts.map (·.nodeId)) with
    | none => exact (firstDuplicate_eq_none_iff.mp duplicate).1
    | some dup =>
      rw [duplicate] at noDuplicate
      cases noDuplicate
  · intro pin given
    unfold checkPin at known
    rw [given] at known
    exact ensure_ok_iff.mp known

structure Placed (request : PlacementRequest F) (cluster : ClusterState) (facts : List (PlacementFacts F))
    (p : Placement F) (node : PlacementFacts F) (e : Eligible F) : Prop where
  known : node ∈ facts
  nodeId : p.nodeId = node.nodeId
  variant : p.variant = e.variant.name
  execution : p.execution = e.variant.execution
  tier : p.tier = e.tier
  passes : Passes request cluster node e
  withinBudget : ∀ t v, request.spec.policy.perf = some t → measured node.capabilities t = some v → meets t v = true

structure Chosen (request : PlacementRequest F) (candidates : List (NodeReport F)) (p : Placement F) : Prop where
  pinned : ∀ pin, request.pin = some pin → p.nodeId = pin
  bestTier : request.pin = none → ∀ r ∈ candidates, r.eligible = true →
    ∃ t, r.tier = some t ∧ p.tier.rank ≤ t.rank
  preferred : request.pin = none → ∀ r ∈ candidates, r.eligible = true → r.tier = some p.tier →
    r.nodeId ∈ request.affinity.prefer → p.nodeId ∈ request.affinity.prefer
  avoided : request.pin = none → p.nodeId ∈ request.affinity.avoid → p.nodeId ∉ request.affinity.prefer →
    ∀ r ∈ candidates, r.eligible = true → r.tier = some p.tier →
      r.nodeId ∈ request.affinity.avoid ∧ r.nodeId ∉ request.affinity.prefer

section
variable (selected : Selected request (ranked request cluster facts) (rejected request cluster facts) chosen flagged)
include selected

theorem candidates_perm :
    ((flagged ++ rejected request cluster facts).map (·.nodeId)).Perm (facts.map (·.nodeId)) := by
  have ids : flagged.map (·.nodeId) = (ranked request cluster facts).map (·.nodeId) := by
    have both := congrArg (map NodeReport.nodeId) selected.same
    rw [map_map, map_map] at both
    exact both
  have sorted := (sortBy_perm rankCmp (eligibleB request cluster facts)).append
    (sortBy_perm (compareOn NodeReport.nodeId) (rejectedA request cluster facts ++ rejectedB request cluster facts))
  rw [map_append, ids, ← map_append]
  exact (sorted.map NodeReport.nodeId).trans (reports_ids facts)

theorem mem_flagged (listed : r ∈ flagged) : ∃ c ∈ ranked request cluster facts, unflagged c = unflagged r := by
  have mapped : unflagged r ∈ flagged.map unflagged := mem_map.mpr ⟨r, listed, rfl⟩
  rw [selected.same] at mapped
  exact mem_map.mp mapped

theorem eligible_candidate {r : NodeReport F} (listed : r ∈ flagged ++ rejected request cluster facts)
    (eligible : r.eligible = true) : ∃ c ∈ ranked request cluster facts, unflagged c = unflagged r := by
  rcases mem_append.mp listed with inFlagged | inRejected
  · exact mem_flagged selected inFlagged
  · exact absurd (isEmpty_iff.mp eligible) (mem_rejected inRejected)

theorem Selected.winner (known : ∀ pin, request.pin = some pin → pin ∈ facts.map (·.nodeId)) (some : chosen = some i) :
    ∃ c c', (ranked request cluster facts)[i]? = .some c ∧ flagged[i]? = .some c' ∧ unflagged c' = unflagged c ∧
      (∀ pin, request.pin = .some pin → c.nodeId = pin) ∧
      (request.pin = none → Wins request.affinity (ranked request cluster facts) c) := by
  have found : ∃ c, (ranked request cluster facts)[i]? = .some c ∧ (∀ pin, request.pin = .some pin → c.nodeId = pin) ∧
      (request.pin = none → Wins request.affinity (ranked request cluster facts) c) := by
    cases pin : request.pin with
    | none =>
      obtain ⟨c, here, wins⟩ := selected.free i some pin
      exact ⟨c, here, fun _ => nofun, fun _ => wins⟩
    | some id =>
      obtain ⟨place, outside⟩ := selected.pinned i id some pin
      have listed : id ∈ (flagged ++ rejected request cluster facts).map (·.nodeId) :=
        (candidates_perm selected).symm.subset (known id pin)
      obtain ⟨r, inside, named⟩ := mem_map.mp listed
      have inRanked : ∃ c ∈ ranked request cluster facts, decide (c.nodeId = id) = true := by
        rcases mem_append.mp inside with inFlagged | inRejected
        · obtain ⟨c, inC, same⟩ := mem_flagged selected inFlagged
          have ids := congrArg NodeReport.nodeId same
          change c.nodeId = r.nodeId at ids
          exact ⟨c, inC, by simp [ids, named]⟩
        · exact absurd named (outside r inRejected)
      have bound := findIdx_lt_length_of_exists inRanked
      have same := findIdx_getElem (w := bound)
      rw [← place] at bound
      refine ⟨_, List.getElem?_eq_getElem bound, ?_, nofun⟩
      intro pin' given
      cases given
      simpa only [place, decide_eq_true_eq] using same
  obtain ⟨c, here, chosenBy⟩ := found
  have both := congrArg (·[i]?) selected.same
  simp only [List.getElem?_map, here, Option.map_some] at both
  obtain ⟨c', there, same⟩ := Option.map_eq_some_iff.mp both
  exact ⟨c, c', here, there, same, chosenBy⟩

end

theorem placed_of_winner (distinct : (facts.map (·.nodeId)).Nodup)
    (known : ∀ pin, request.pin = some pin → pin ∈ facts.map (·.nodeId))
    (selected : Selected request (ranked request cluster facts) (rejected request cluster facts) chosen flagged)
    (some : chosen = some i) :
    ∃ p node e, (chosen.bind (flagged[·]?)).bind
        (placementOf (survivingNodes request cluster facts) (survivors request cluster facts)) = .some p ∧
      Placed request cluster facts p node e ∧ Chosen request (flagged ++ rejected request cluster facts) p := by
  obtain ⟨c, c', here, there, same, pinned, wins⟩ := selected.winner known some
  have inRanked := (sortBy_perm _ _).subset (mem_of_getElem? here)
  obtain ⟨node, e, score, flags, inside, passed, made, within⟩ := mem_eligibleB inRanked
  have ids := congrArg NodeReport.nodeId same
  change c'.nodeId = c.nodeId at ids
  have named : c.nodeId = node.nodeId := by rw [made]; rfl
  have tier : c.tier = .some e.tier := by rw [made]; rfl
  have route := survivor_lookup distinct inside passed
  have placement : placementOf (survivingNodes request cluster facts) (survivors request cluster facts) c' = .some
      { nodeId := c'.nodeId
        variant := e.variant.name
        execution := e.variant.execution
        tier := e.tier
        accelerator := c'.assigned.flatten.find? (startsWith · "accel.")
        score := c'.score.getD ⟨zero, zero, zero, zero, zero, zero⟩
        flags := c'.flags } := by
    unfold placementOf
    rw [ids, named, route]
    rfl
  refine ⟨_, node, e, by rw [some, Option.bind_some, there, Option.bind_some, placement],
    ⟨inside, ids.trans named, rfl, rfl, rfl, checkNode_ok passed, within⟩, ?_⟩
  -- an eligible candidate has the tier of the report that was ranked
  have ranked_of {r : NodeReport F} (listed : r ∈ flagged ++ rejected request cluster facts)
      (eligible : r.eligible = true) : ∃ q ∈ ranked request cluster facts, ∃ t, q.tier = .some t ∧ r.tier = .some t ∧
        q.nodeId = r.nodeId := by
    obtain ⟨q, inQ, alike⟩ := eligible_candidate selected listed eligible
    obtain ⟨_, e', _, _, _, _, made', _⟩ := mem_eligibleB ((sortBy_perm _ _).subset inQ)
    have tiers := congrArg NodeReport.tier alike
    have names := congrArg NodeReport.nodeId alike
    have own : q.tier = .some e'.tier := by rw [made']; rfl
    exact ⟨q, inQ, e'.tier, own, tiers ▸ own, names⟩
  have rankOf {q : NodeReport F} {t : Tier} (given : q.tier = .some t) : tierRank q = t.rank := by
    unfold tierRank
    rw [given]
    rfl
  constructor
  · intro pin given
    exact ids.trans (pinned pin given)
  · intro free r listed eligible
    obtain ⟨q, inQ, t, own, shown, _⟩ := ranked_of listed eligible
    have best := (wins free).bestTier q inQ
    rw [rankOf own, rankOf tier] at best
    exact ⟨t, shown, best⟩
  · intro free r listed eligible level prefers
    obtain ⟨q, inQ, t, own, shown, names⟩ := ranked_of listed eligible
    cases shown.symm.trans level
    have winner := (wins free).preferred q inQ (by rw [rankOf own, rankOf tier]) (names ▸ prefers)
    exact ids ▸ winner
  · intro free avoids plain r listed eligible level
    obtain ⟨q, inQ, t, own, shown, names⟩ := ranked_of listed eligible
    cases shown.symm.trans level
    have whole := (wins free).avoided (ids ▸ avoids) (ids ▸ plain) q inQ (by rw [rankOf own, rankOf tier])
    exact names ▸ whole

/-- A decision lists every node once; it places the workload on a node that meets every constraint, of the best
tier there is; and it places nothing only when every node was rejected with a reason. -/
theorem place_safe {d : Decision F} (placed : place request facts cluster = .ok d) :
    (facts.map (·.nodeId)).Nodup ∧ (d.candidates.map (·.nodeId)).Perm (facts.map (·.nodeId)) ∧
      (∀ p, d.placement = some p → Chosen request d.candidates p ∧ ∃ node e, Placed request cluster facts p node e) ∧
      (d.placement = none → ∀ r ∈ d.candidates, r.rejections ≠ []) := by
  obtain ⟨distinct, known, chosen, flagged, selected, placement, candidates⟩ := place_ok placed
  rw [placement, candidates]
  refine ⟨distinct, candidates_perm selected, ?_, ?_⟩
  · intro p found
    cases winner : chosen with
    | none =>
      rw [winner] at found
      cases found
    | some i =>
      obtain ⟨p', node, e, made, safe, reason⟩ := placed_of_winner distinct known selected winner
      cases made.symm.trans found
      exact ⟨reason, node, e, safe⟩
  · intro absent r listed
    cases winner : chosen with
    | some i =>
      obtain ⟨p', node, e, made, _⟩ := placed_of_winner distinct known selected winner
      cases made.symm.trans absent
    | none =>
      have same := selected.same
      rw [selected.empty winner, map_nil, map_eq_nil_iff] at same
      rw [same] at listed
      exact mem_rejected listed

end

/-! ### Two nodes -/

def plainNode (id : String) : PlacementFacts ℚ := ⟨id, [], .alive, .paired, none, none⟩

def plainSpec (memory : MemoryDemand) : WorkloadSpec ℚ :=
  ⟨"cog", "demo", ⟨[], [], memory⟩, ⟨.paired, none, [], [], .batch, none, [], false, []⟩⟩

def tornRequest : PlacementRequest ℚ :=
  ⟨plainSpec .none, none, ⟨["a"], ["a"]⟩, false, none, .uniform .permit,
    ⟨100, 20, 40, "node.class.dev-mac", 10, 30, 2, 10, 15, 1000⟩⟩

def crowdedCluster : ClusterState := ⟨0, [], [], [⟨"a", none, [], [], ⟨10, 0⟩⟩]⟩

theorem place_safe_two_nodes : ∃ d : Decision ℚ, place tornRequest [plainNode "a", plainNode "b"] crowdedCluster =
    .ok d ∧
    (d.candidates.map (·.nodeId)).Perm ["a", "b"] ∧
    ∃ p, d.placement = some p ∧ Chosen tornRequest d.candidates p := by
  have placed : ∃ d, place tornRequest [plainNode "a", plainNode "b"] crowdedCluster = .ok d ∧
    d.placement.isSome = true := by
    decide +kernel
  obtain ⟨d, decided, some⟩ := placed
  obtain ⟨p, found⟩ := Option.isSome_iff_exists.mp some
  obtain ⟨_, once, safe, _⟩ := place_safe decided
  exact ⟨d, decided, once, p, found, (safe p found).1⟩

/-- Without a memory demand the pending reservations are not looked at, and a node that is
preferred wins although it is avoided and another of its tier is not. -/
theorem place_crowded_avoided : ∃ d p, place tornRequest [plainNode "a", plainNode "b"] crowdedCluster = .ok d ∧
    d.placement = some p ∧ p.nodeId = "a" ∧ "a" ∈ tornRequest.affinity.avoid ∧
    (∃ r ∈ d.candidates, r.eligible = true ∧ r.tier = some p.tier ∧ r.nodeId ∉ tornRequest.affinity.avoid) ∧
    ¬ (MemoryLedger.fromCapabilities (plainNode "a").capabilities).Holds
      (tornRequest.spec.requirements.memory.hostBytes.toNat + pendingOn crowdedCluster "a" (·.hostBytes))
      (tornRequest.spec.requirements.memory.accelBytes.toNat + pendingOn crowdedCluster "a" (·.accelBytes)) := by
  have placed : ∃ d, place tornRequest [plainNode "a", plainNode "b"] crowdedCluster = .ok d ∧
      ∃ p ∈ d.placement, p.nodeId = "a" ∧ ∃ r ∈ d.candidates,
        r.eligible = true ∧ r.tier = some p.tier ∧ r.nodeId ∉ tornRequest.affinity.avoid := by
    decide +kernel
  obtain ⟨d, decided, p, found, onA, spared⟩ := placed
  refine ⟨d, p, decided, found, onA, by decide, spared, ?_⟩
  unfold MemoryLedger.Holds
  decide

end Weftos.Placement.Place
