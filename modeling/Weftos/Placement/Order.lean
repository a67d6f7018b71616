import Weftos.Placement.Place

/-! Placement does not depend on the order of its inputs, but for the order of the co-residency messages. -/

namespace Weftos.Placement.Order
open Lib.Outcome Lib.Ranking Request
open Constraints Score Place List

section
variable {F : Type} {request : PlacementRequest F} {cluster : ClusterState} {instances' : List InstanceRecord}

/-! ### Reasons under permuted instances -/

def SameReasons (reasons reasons' : List Rejection) : Prop :=
  ∃ front middle middle' back, reasons = front ++ middle ++ back ∧ reasons' = front ++ middle' ++ back ∧
    middle.Perm middle' ∧ ∀ r ∈ middle, r.constraint = .coResidency

theorem SameReasons.refl (reasons : List Rejection) : SameReasons reasons reasons :=
  ⟨reasons, [], [], [], by simp, by simp, .nil, by simp⟩

theorem totalDemand_perm (demand : MemoryDemand) (same : onNode'.Perm onNode) :
    totalDemand demand onNode' = totalDemand demand onNode := by
  have part (part : MemoryDemand → UInt64)
      (sums : ∀ acc more : MemoryDemand, part ⟨saturatingAdd acc.hostBytes more.hostBytes,
        saturatingAdd acc.accelBytes more.accelBytes⟩ = saturatingAdd (part acc) (part more)) :
      part (totalDemand demand onNode') = part (totalDemand demand onNode) := by
    apply UInt64.toNat_inj.mp
    rw [totalDemand_part sums, totalDemand_part sums, (same.map _).sum_eq]
  have host := part (·.hostBytes) fun _ _ => rfl
  have accel := part (·.accelBytes) fun _ _ => rfl
  cases first : totalDemand demand onNode'
  cases second : totalDemand demand onNode
  rw [first, second] at host accel
  cases host
  cases accel
  rfl

theorem checkCoResidency_perm (request : PlacementRequest F) (same : instances'.Perm cluster.instances)
    (node : PlacementFacts F) :
    (checkCoResidency request node { cluster with instances := instances' }).Perm
      (checkCoResidency request node cluster) := by
  unfold checkCoResidency ClusterState.neighboursOn ClusterState.instancesOn
  exact ((same.filter _).filter _).flatMap_right _

theorem checkCoResidency_constraint
    (listed : r ∈ checkCoResidency request node cluster) : r.constraint = .coResidency := by
  obtain ⟨inst, _, found⟩ := mem_flatMap.mp listed
  unfold neighbourConflicts at found
  simp only [mem_append, Option.mem_toList, Option.map_eq_some_iff] at found
  rcases found with ⟨_, _, rfl⟩ | ⟨_, _, rfl⟩
  · rfl
  · rfl

def SameReport (r r' : NodeReport F) : Prop :=
  SameReasons r.rejections r'.rejections ∧ { r with rejections := r'.rejections } = r'

theorem SameReport.refl (r : NodeReport F) : SameReport r r := ⟨.refl _, rfl⟩

inductive SameResult : Except PlacementError (Decision F) → Except PlacementError (Decision F) → Prop
  | decided (candidates : List.Forall₂ SameReport d.candidates candidates') :
      SameResult (.ok d) (.ok { d with candidates := candidates' })
  | pinIneligible (same : SameReasons reasons reasons') :
      SameResult (.error (.pinIneligible node reasons)) (.error (.pinIneligible node reasons'))
  | refused (e : PlacementError) : SameResult (.error e) (.error e)

theorem find_sameReport {rejected rejected' : List (NodeReport F)}
    (reports : List.Forall₂ SameReport rejected rejected') (id : String) :
    (rejected.find? (·.nodeId = id) = none ∧ rejected'.find? (·.nodeId = id) = none) ∨
      ∃ r r', rejected.find? (·.nodeId = id) = some r ∧ rejected'.find? (·.nodeId = id) = some r' ∧
        SameReport r r' := by
  induction reports with
  | nil => exact .inl ⟨rfl, rfl⟩
  | @cons a a' _ _ head _ ih =>
    have ids := congrArg NodeReport.nodeId head.2
    rw [find?_cons, find?_cons, ids]
    cases decide (a'.nodeId = id) with
    | true => exact .inr ⟨a, a', rfl, rfl, head⟩
    | false => exact ih

theorem select_sameReport {eligible rejected rejected' : List (NodeReport F)}
    (reports : List.Forall₂ SameReport rejected rejected') :
    select request eligible rejected' = select request eligible rejected ∨
      ∃ pin r r', select request eligible rejected = .error (.pinIneligible pin r) ∧
        select request eligible rejected' = .error (.pinIneligible pin r') ∧ SameReasons r r' := by
  unfold select
  cases request.pin with
  | none => exact .inl rfl
  | some pin =>
    dsimp only
    rcases find_sameReport reports pin with ⟨here, there⟩ | ⟨r, r', here, there, alike⟩
    · rw [here, there]
      exact .inl rfl
    · rw [here, there]
      exact .inr ⟨pin, _, _, rfl, rfl, alike.1⟩

end

section
variable {F : Type} [Arith F] {request : PlacementRequest F} {cluster : ClusterState}
  {facts facts' : List (PlacementFacts F)} {instances' : List InstanceRecord}

/-! ### Permuted facts -/

theorem better_reduce [Exact F] (direction : Better) {xs ys : List F} (same : xs.Perm ys) :
    reduce (better direction) xs = reduce (better direction) ys := by
  cases direction with
  | lower => exact reduce_perm Exact.min_comm Exact.min_assoc same
  | higher => exact reduce_perm Exact.max_comm Exact.max_assoc same

section
variable (same : facts'.Perm facts)
include same

theorem bestOf_perm [Exact F] :
    bestOf request cluster facts' = bestOf request cluster facts := by
  unfold bestOf bestPerf
  cases request.spec.policy.perf with
  | none => rfl
  | some t =>
    apply better_reduce
    exact ((same.filter _).filterMap _).filter _

theorem smallestOf_perm [Exact F] :
    smallestOf request cluster facts' = smallestOf request cluster facts := by
  unfold smallestOf smallestAccel
  apply reduce_perm Exact.min_comm Exact.min_assoc
  exact (same.filterMap _).filterMap _

theorem scored_perm [Exact F] : (scored request cluster facts').Perm (scored request cluster facts) := by
  rw [scored_eq, scored_eq, bestOf_perm same, smallestOf_perm same]
  exact (same.filterMap _).map _

theorem rejected_perm [Exact F] :
    (rejectedA request cluster facts' ++ rejectedB request cluster facts').Perm
      (rejectedA request cluster facts ++ rejectedB request cluster facts) :=
  (same.filterMap _).append ((scored_perm same).filterMap _)

end

section
variable (distinct : (facts.map (·.nodeId)).Nodup)
include distinct

theorem report_unique {part : List (NodeReport F)}
    (within : part.Sublist (eligibleB request cluster facts ++ (rejectedA request cluster facts ++
      rejectedB request cluster facts))) (inA : a ∈ part) (inB : b ∈ part)
    (same : a.nodeId = b.nodeId) : a = b := by
  have once : (part.map (·.nodeId)).Nodup := ((reports_ids facts).nodup_iff.mpr distinct).sublist (within.map _)
  exact inj_on_of_nodup_map once inA inB same

section
variable (same : facts'.Perm facts)
include same

theorem ranked_perm [Exact F] :
    ranked request cluster facts' = ranked request cluster facts := by
  apply sortBy_eq_of_perm _ ((scored_perm same).filterMap _)
  intro a inA b inB equal
  apply report_unique distinct (sublist_append_left _ _) inA inB
  unfold rankCmp compareLex at equal
  rw [Ordering.then_eq_eq, Ordering.then_eq_eq] at equal
  exact Std.LawfulEqOrd.eq_of_compare equal.2.2

theorem rejected_eq_of_perm [Exact F] :
    rejected request cluster facts' = rejected request cluster facts := by
  apply sortBy_eq_of_perm _ (rejected_perm same)
  intro a inA b inB equal
  apply report_unique distinct (sublist_append_right _ _) inA inB
  exact Std.LawfulEqOrd.eq_of_compare equal

theorem placement_perm (listed : ∃ q ∈ ranked request cluster facts, q.nodeId = c.nodeId) :
    placementOf (survivingNodes request cluster facts') (survivors request cluster facts') c =
      placementOf (survivingNodes request cluster facts) (survivors request cluster facts) c := by
  obtain ⟨q, inQ, named⟩ := listed
  obtain ⟨node, e, score, flags, inside, passed, made, _⟩ := mem_eligibleB ((sortBy_perm _ _).subset inQ)
  have nodeNamed : node.nodeId = c.nodeId := by
    rw [← named, made]
    rfl
  have distinct' : (facts'.map (·.nodeId)).Nodup := (same.map _).nodup_iff.mpr distinct
  have here := survivor_lookup distinct inside passed
  have there := survivor_lookup distinct' (same.symm.subset inside) passed
  unfold placementOf
  rw [← nodeNamed, here, there]

theorem decision_perm [Exact F] :
    decision request cluster facts' = decision request cluster facts := by
  unfold decision
  rw [ranked_perm distinct same, rejected_eq_of_perm distinct same]
  -- only the lookup of the winner's route still mentions the order
  cases selected : select request (ranked request cluster facts) (rejected request cluster facts) with
  | error e => rfl
  | ok result =>
    obtain ⟨chosen, flagged⟩ := result
    have flags := (select_ok ranked_sorted selected).same
    have placement : (chosen.bind (flagged[·]?)).bind
          (placementOf (survivingNodes request cluster facts') (survivors request cluster facts')) =
        (chosen.bind (flagged[·]?)).bind
          (placementOf (survivingNodes request cluster facts) (survivors request cluster facts)) := by
      cases winner : chosen.bind (flagged[·]?) with
      | none => rfl
      | some c =>
        obtain ⟨i, _, there⟩ := Option.bind_eq_some_iff.mp winner
        have mapped : unflagged c ∈ flagged.map unflagged := mem_map.mpr ⟨c, mem_of_getElem? there, rfl⟩
        rw [flags] at mapped
        obtain ⟨q, inQ, alike⟩ := mem_map.mp mapped
        have names := congrArg NodeReport.nodeId alike
        exact placement_perm distinct same ⟨q, inQ, names⟩
    change Except.ok _ = Except.ok _
    rw [placement]

theorem place_facts_perm [Exact F] :
    place request facts' cluster = place request facts cluster := by
  have distinct' : (facts'.map (·.nodeId)).Nodup := (same.map _).nodup_iff.mpr distinct
  have once {l : List (PlacementFacts F)} (nodup : (l.map (·.nodeId)).Nodup) : checkDistinct l = .ok () := by
    unfold checkDistinct
    rw [firstDuplicate_eq_none_iff.mpr ⟨nodup, fun _ _ => not_mem_nil⟩]
  have pin : checkPin request facts' = checkPin request facts := by
    unfold checkPin
    cases request.pin with
    | none => rfl
    | some id =>
      have both : id ∈ facts'.map (·.nodeId) ↔ id ∈ facts.map (·.nodeId) := (same.map _).mem_iff
      simp only [ensure, both]
  unfold place
  rw [once distinct, once distinct', pin, decision_perm distinct same]

end

end

/-! ### Permuted instances -/

theorem checkMemory_perm (same : instances'.Perm cluster.instances) (node : PlacementFacts F) :
    checkMemory request node { cluster with instances := instances' } = checkMemory request node cluster := by
  unfold checkMemory ClusterState.instancesOn
  dsimp only
  rw [totalDemand_perm _ (same.filter _)]

theorem passes_perm (same : instances'.Perm cluster.instances) (node : PlacementFacts F) :
    (∃ e, passes request cluster node = .ok e ∧
      passes request { cluster with instances := instances' } node = .ok e) ∨
    ∃ r r', passes request cluster node = .error r ∧
      passes request { cluster with instances := instances' } node = .error r' ∧ SameReasons r r' := by
  have messages := (checkCoResidency_perm request same node).symm
  have kind (r : Rejection) (listed : r ∈ checkCoResidency request node cluster) := checkCoResidency_constraint listed
  unfold passes checkNode
  simp only [checkMemory_perm same]
  generalize life : checkLife request node cluster (request.spec.policy.revocableRefs.find? (· ∈ cluster.revokedRefs)) =
    before
  have life' : checkLife request node { cluster with instances := instances' }
      (request.spec.policy.revocableRefs.find? (· ∈ cluster.revokedRefs)) = before := life
  simp only [life']
  generalize checkCoResidency request node cluster = co at messages kind ⊢
  generalize checkCoResidency request node { cluster with instances := instances' } = co' at messages ⊢
  generalize (checkMemory request node cluster).toList = memory
  generalize checkGate request node = gate
  cases chooseRoute request node with
  | error failures =>
    refine .inr ⟨_, _, rfl, rfl, before, co, co', memory ++ failures ++ gate, ?_, ?_, messages, kind⟩
    · simp
    · simp
  | ok e =>
    have both : (before ++ co' ++ memory ++ gate).isEmpty = (before ++ co ++ memory ++ gate).isEmpty := by
      have empty : co' = [] ↔ co = [] :=
        ⟨fun none => List.Perm.eq_nil (none ▸ messages), fun none => List.Perm.eq_nil (none ▸ messages.symm)⟩
      rw [Bool.eq_iff_iff, List.isEmpty_iff, List.isEmpty_iff]
      simp only [List.append_eq_nil_iff, empty]
    simp only [both]
    by_cases quiet : (before ++ co ++ memory ++ gate).isEmpty = true
    · rw [if_pos quiet, if_pos quiet]
      exact .inl ⟨e, rfl, rfl⟩
    · rw [if_neg quiet, if_neg quiet]
      refine .inr ⟨_, _, rfl, rfl, before, co, co', memory ++ gate, ?_, ?_, messages, kind⟩
      · simp
      · simp

section
variable (same : instances'.Perm cluster.instances)
include same

theorem survivingNodes_instances : survivingNodes request { cluster with instances := instances' } facts =
    survivingNodes request cluster facts := by
  apply filter_congr
  intro node _
  rcases passes_perm same node with ⟨e, here, there⟩ | ⟨r, r', here, there, _⟩
  · rw [here, there]
  · rw [here, there]
    rfl

theorem survivors_instances : survivors request { cluster with instances := instances' } facts =
    survivors request cluster facts := by
  apply filterMap_congr
  intro node _
  rcases passes_perm same node with ⟨e, here, there⟩ | ⟨r, r', here, there, _⟩
  · rw [here, there]
  · rw [here, there]
    rfl

theorem scored_instances : scored request { cluster with instances := instances' } facts =
    scored request cluster facts := by
  unfold scored
  rw [survivingNodes_instances same, survivors_instances same]

theorem ranked_instances : ranked request { cluster with instances := instances' } facts =
    ranked request cluster facts := by
  unfold ranked eligibleB
  rw [scored_instances same]

theorem rejected_instances : List.Forall₂ SameReport (rejected request cluster facts)
    (rejected request { cluster with instances := instances' } facts) := by
  apply sortBy_forall₂
  · intro a a' b b' first second
    rw [← first.2, ← second.2]
    rfl
  · apply rel_append
    · unfold rejectedA
      induction facts with
      | nil => exact .nil
      | cons node rest ih =>
        rw [filterMap_cons, filterMap_cons]
        rcases passes_perm same node with ⟨e, here, there⟩ | ⟨r, r', here, there, reasons⟩
        · rw [here, there]
          exact ih
        · rw [here, there]
          exact .cons ⟨reasons, rfl⟩ ih
    · unfold rejectedB
      rw [scored_instances same]
      exact forall₂_same.mpr fun r _ => .refl r

theorem decision_instances : SameResult (decision request cluster facts)
    (decision request { cluster with instances := instances' } facts) := by
  have reports : List.Forall₂ SameReport (rejected request cluster facts)
      (rejected request { cluster with instances := instances' } facts) := rejected_instances same
  unfold decision
  rw [ranked_instances same, survivingNodes_instances same, survivors_instances same]
  rcases select_sameReport reports with alike | ⟨pin, r, r', here, there, reasons⟩
  · rw [alike]
    cases select request (ranked request cluster facts) (rejected request cluster facts) with
    | error e => exact .refused e
    | ok result => exact .decided (rel_append (forall₂_same.mpr fun r _ => .refl r) reports)
  · rw [here, there]
    exact .pinIneligible reasons

theorem place_instances : SameResult (place request facts cluster)
    (place request facts { cluster with instances := instances' }) := by
  unfold place
  cases request.validate.mapError PlacementError.invalid with
  | error e => exact .refused e
  | ok _ =>
    cases checkDistinct facts with
    | error e => exact .refused e
    | ok _ =>
      cases checkPin request facts with
      | error e => exact .refused e
      | ok _ => exact decision_instances same

end

/-- Over exact numbers a placement does not depend on the order of the facts, and on the
order of the instances only in that of the co-residency messages. -/
theorem place_order_free [Exact F] (distinct : (facts.map (·.nodeId)).Nodup) (sameFacts : facts'.Perm facts)
    (sameInstances : instances'.Perm cluster.instances) :
    place request facts' cluster = place request facts cluster ∧
      SameResult (place request facts cluster) (place request facts' { cluster with instances := instances' }) := by
  constructor
  · exact place_facts_perm distinct sameFacts
  · rw [place_facts_perm distinct sameFacts]
    exact place_instances sameInstances

end

def strictInstances : List InstanceRecord :=
  [⟨"a", none, [], ["gpu"], .none⟩, ⟨"a", none, ["batch"], [], .none⟩]

def labelledRequest : PlacementRequest ℚ :=
  { tornRequest with spec := { plainSpec .none with policy :=
    ⟨.paired, none, ["gpu"], ["batch"], .batch, none, [], false, []⟩ } }

theorem place_order_free_two_nodes :
    place labelledRequest [plainNode "b", plainNode "a"] ⟨0, [], [], strictInstances⟩ =
        place labelledRequest [plainNode "a", plainNode "b"] ⟨0, [], [], strictInstances⟩ ∧
      SameResult (place labelledRequest [plainNode "a", plainNode "b"] ⟨0, [], [], strictInstances⟩)
        (place labelledRequest [plainNode "b", plainNode "a"] ⟨0, [], [], strictInstances.reverse⟩) :=
  place_order_free (by decide) (List.Perm.swap ..) (reverse_perm _)

end Weftos.Placement.Order
