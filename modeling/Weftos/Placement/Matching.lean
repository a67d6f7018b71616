import Weftos.Placement.Assign

/-! What a match is, and that the search decides it: an assignment it returns is one,
and within its budget it returns none only where none exists. -/

namespace Weftos.Placement.Matching
open Lib.Selection Candidates Assign List

theorem zipIdx_indices_nodup {R : Type} (items : List R) (test : R × Nat → Bool) :
    ((items.zipIdx.filter test).map (·.2)).Nodup := by
  have all : (items.zipIdx.map (·.2)).Nodup := by
    rw [zipIdx_map_snd]
    exact nodup_range'
  exact all.sublist (filter_sublist.map _)

theorem fill_spec {β : Type} (slot : β → Nat) (value : β → List Nat) {items : List β}
    (distinct : (items.map slot).Nodup) (out : Nat → List Nat) :
    (∀ item ∈ items, fill slot value items out (slot item) = value item) ∧
      ∀ i ∉ items.map slot, fill slot value items out i = out i := by
  induction items generalizing out with
  | nil => exact ⟨fun _ listed => absurd listed not_mem_nil, fun _ _ => rfl⟩
  | cons first rest ih =>
    obtain ⟨fresh, later⟩ := nodup_cons.mp distinct
    obtain ⟨written, kept⟩ := ih later (Function.update out (slot first) (value first))
    refine ⟨?_, ?_⟩
    · intro item listed
      rcases mem_cons.mp listed with rfl | inner
      · exact (kept (slot item) fresh).trans (Function.update_self ..)
      · exact written item inner
    · intro i absent
      rw [map_cons, mem_cons, not_or] at absent
      exact (kept i absent.2).trans (Function.update_of_ne absent.1 ..)

section
variable {F : Type} [F64 F]

/-- Each requirement is given exactly its count of distinct candidates, and what an
exclusive one is given no other has. -/
structure Joint (reqs : List (Requirement F)) (caps : List (Capability F)) (a : List (List Nat)) : Prop where
  length : a.length = reqs.length
  fits : ∀ (i : Nat) (req : Requirement F) (given : List Nat), reqs[i]? = some req → a[i]? = some given →
    given.length = req.count.toNat ∧ given.Nodup ∧ ∀ c ∈ given, c ∈ req.candidateIndices caps
  exclusive : ∀ (i j : Nat) (req : Requirement F) (given other : List Nat), i ≠ j → reqs[i]? = some req →
    req.exclusive = true → a[i]? = some given → a[j]? = some other → given.Disjoint other

def WithinBudget (reqs : List (Requirement F)) (caps : List (Capability F)) : Prop :=
  aloneFailures reqs caps = [] → (search reqs caps).2.steps ≤ SEARCH_BUDGET

/-! ### The entries of the search -/

variable {reqs : List (Requirement F)} {caps : List (Capability F)} {entry : Entry} {i : Nat} {req : Requirement F}

theorem mem_exclusiveEntries : entry ∈ exclusiveEntries reqs caps ↔
    ∃ req i, reqs[i]? = some req ∧ req.exclusive = true ∧ entry = preferred reqs caps (entryOf caps (req, i)) := by
  rw [exclusiveEntries, (perm_insertionSort _ _).mem_iff, mem_map]
  constructor
  · rintro ⟨⟨req, i⟩, listed, rfl⟩
    obtain ⟨listed, exclusive⟩ := mem_filter.mp listed
    exact ⟨req, i, mem_zipIdx_iff_getElem?.mp listed, exclusive, rfl⟩
  · rintro ⟨req, i, here, exclusive, rfl⟩
    exact ⟨(req, i), mem_filter.mpr ⟨mem_zipIdx_iff_getElem?.mpr here, exclusive⟩, rfl⟩

theorem mem_sharedEntries : entry ∈ sharedEntries reqs caps ↔
    ∃ req i, reqs[i]? = some req ∧ req.exclusive = false ∧ entry = entryOf caps (req, i) := by
  rw [sharedEntries, mem_map]
  constructor
  · rintro ⟨⟨req, i⟩, listed, rfl⟩
    obtain ⟨listed, shared⟩ := mem_filter.mp listed
    exact ⟨req, i, mem_zipIdx_iff_getElem?.mp listed, by simpa using shared, rfl⟩
  · rintro ⟨req, i, here, shared, rfl⟩
    exact ⟨(req, i), mem_filter.mpr ⟨mem_zipIdx_iff_getElem?.mpr here, by simpa using shared⟩, rfl⟩

theorem preferred_perm (entry : Entry) : (preferred reqs caps entry).cands.Perm entry.cands :=
  perm_insertionSort _ _

theorem exclusive_indices_nodup : ((exclusiveEntries reqs caps).map (·.index)).Nodup := by
  rw [exclusiveEntries, ((perm_insertionSort _ _).map _).nodup_iff, map_map]
  exact zipIdx_indices_nodup reqs _

theorem shared_indices_nodup : ((sharedEntries reqs caps).map (·.index)).Nodup := by
  rw [sharedEntries, map_map]
  exact zipIdx_indices_nodup reqs _

theorem exclusive_cands_nodup (listed : entry ∈ exclusiveEntries reqs caps) : entry.cands.Nodup := by
  obtain ⟨req, i, _, _, rfl⟩ := mem_exclusiveEntries.mp listed
  exact (preferred_perm _).nodup_iff.mpr (candidateIndices_nodup req caps)

theorem entry_cases (caps : List (Capability F)) (here : reqs[i]? = some req) :
    (req.exclusive = true ∧ ∃ (t : Nat) (entry : Entry), (exclusiveEntries reqs caps)[t]? = some entry ∧
      entry.index = i ∧ entry.need = req.count.toNat ∧ entry.cands.Perm (req.candidateIndices caps)) ∨
    (req.exclusive = false ∧ entryOf caps (req, i) ∈ sharedEntries reqs caps) := by
  cases exclusive : req.exclusive with
  | true =>
    have listed : preferred reqs caps (entryOf caps (req, i)) ∈ exclusiveEntries reqs caps :=
      mem_exclusiveEntries.mpr ⟨req, i, here, exclusive, rfl⟩
    obtain ⟨t, found⟩ := mem_iff_getElem?.mp listed
    exact .inl ⟨rfl, t, _, found, rfl, rfl, preferred_perm _⟩
  | false => exact .inr ⟨rfl, mem_sharedEntries.mpr ⟨req, i, here, exclusive, rfl⟩⟩

/-! ### What is read off a successful search -/

section
variable {chosen : Nat → List Nat} {i : Nat}

theorem exclusive_not_shared (listed : entry ∈ exclusiveEntries reqs caps) :
    entry.index ∉ (sharedEntries reqs caps).map (·.index) := by
  intro also
  obtain ⟨other, shared, same⟩ := mem_map.mp also
  obtain ⟨req, i, here, exclusive, rfl⟩ := mem_exclusiveEntries.mp listed
  obtain ⟨req', i', here', isShared, rfl⟩ := mem_sharedEntries.mp shared
  obtain rfl : i' = i := same
  rw [here] at here'
  cases here'
  rw [exclusive] at isShared
  cases isShared

theorem slots_exclusive {t : Nat} (found : (exclusiveEntries reqs caps)[t]? = some entry) :
    slots reqs caps chosen entry.index = chosen t := by
  have places : (exclusiveEntries reqs caps).zipIdx.map (fun p => p.1.index) =
      (exclusiveEntries reqs caps).map (·.index) := by
    conv_rhs => rw [← zipIdx_map_fst 0 (exclusiveEntries reqs caps), map_map]
    rfl
  have distinct : ((exclusiveEntries reqs caps).zipIdx.map fun p => p.1.index).Nodup := by
    rw [places]
    exact exclusive_indices_nodup
  have written := (fill_spec (fun p : Entry × Nat => p.1.index) (fun p => chosen p.2) distinct fun _ => []).1
    (entry, t) (mem_zipIdx_iff_getElem?.mpr found)
  exact ((fill_spec Entry.index _ shared_indices_nodup _).2 entry.index
    (exclusive_not_shared (mem_of_getElem? found))).trans written

theorem slots_shared (listed : entry ∈ sharedEntries reqs caps) : slots reqs caps chosen entry.index =
      (entry.cands.filter (· ∉ claimed reqs caps chosen)).take entry.need :=
  (fill_spec Entry.index _ shared_indices_nodup _).1 entry listed

theorem assemble_slot (here : (assemble reqs caps chosen)[i]? = some given) : given = slots reqs caps chosen i := by
  rw [assemble, List.getElem?_map, Option.map_eq_some_iff] at here
  obtain ⟨j, inside, rfl⟩ := here
  obtain ⟨bound, rfl⟩ := List.getElem?_eq_some_iff.mp inside
  rw [getElem_range]

theorem sharedFits_iff : sharedFits shared (mark (fun _ => false) taken) = true ↔
      ∀ entry ∈ shared, entry.need ≤ (entry.cands.filter (· ∉ taken)).length := by
  simp [sharedFits, mark]

structure Picked (reqs : List (Requirement F)) (caps : List (Capability F)) (chosen : Nat → List Nat) : Prop where
  selects : ∀ (t : Nat) (entry : Entry), (exclusiveEntries reqs caps)[t]? = some entry →
    Selects (fun _ => false) entry.need entry.cands (chosen t)
  apart : ∀ t t', t < (exclusiveEntries reqs caps).length → t' < (exclusiveEntries reqs caps).length → t ≠ t' →
    (chosen t).Disjoint (chosen t')
  leaves : ∀ entry ∈ sharedEntries reqs caps,
    entry.need ≤ (entry.cands.filter (· ∉ claimed reqs caps chosen)).length

theorem picked_of_solved (solved : Solved (sharedEntries reqs caps) (exclusiveEntries reqs caps) (fun _ => false)
    ((range (exclusiveEntries reqs caps).length).map chosen)) : Picked reqs caps chosen := by
  obtain ⟨served, apart, fits⟩ := (solution_iff ..).mp solved
  rw [forall₂_map_left_iff, forall₂_map_right_iff, forall₂_iff_get] at served
  rw [pairwise_map, pairwise_iff_getElem] at apart
  have ordered (t t' : Nat) (inside : t' < (exclusiveEntries reqs caps).length) (less : t < t') :
      (chosen t).Disjoint (chosen t') := by
    have here := apart t t' (by rw [length_range]; omega) (by rwa [length_range]) less
    rwa [getElem_range, getElem_range] at here
  refine ⟨?_, ?_, ?_⟩
  · intro t entry found
    obtain ⟨inside, rfl⟩ := List.getElem?_eq_some_iff.mp found
    have here := served.2 t inside (by simpa using inside)
    simpa using here
  · intro t t' inside inside' differ
    rcases Nat.lt_or_gt_of_ne differ with less | greater
    · exact ordered t t' inside' less
    · exact fun c first second => ordered t' t inside greater second first
  · rw [← flatMap_def] at fits
    exact sharedFits_iff.mp fits

theorem chosen_claimed (found : (exclusiveEntries reqs caps)[t]? = some entry) :
    ∀ c ∈ chosen t, c ∈ claimed reqs caps chosen := fun _ given =>
  mem_flatMap.mpr ⟨t, mem_range.mpr (List.getElem?_eq_some_iff.mp found).1, given⟩

variable (picked : Picked reqs caps chosen)
include picked

theorem slots_fit (here : reqs[i]? = some req) :
    (slots reqs caps chosen i).length = req.count.toNat ∧ (slots reqs caps chosen i).Nodup ∧
      ∀ c ∈ slots reqs caps chosen i, c ∈ req.candidateIndices caps := by
  rcases entry_cases caps here with ⟨_, t, entry, found, rfl, need, cands⟩ | ⟨_, listed⟩
  · have selects := picked.selects t entry found
    rw [slots_exclusive found]
    refine ⟨selects.length.trans need, ?_, fun c given => cands.subset (selects.sublist.subset given)⟩
    exact selects.sublist.nodup (exclusive_cands_nodup (mem_of_getElem? found))
  · have enough := picked.leaves _ listed
    have part : (((req.candidateIndices caps).filter (· ∉ claimed reqs caps chosen)).take req.count.toNat).Sublist
        (req.candidateIndices caps) := (take_sublist ..).trans filter_sublist
    have shared : slots reqs caps chosen i = _ := slots_shared listed
    rw [shared]
    refine ⟨length_take_of_le enough, ?_, fun c given => part.subset given⟩
    exact part.nodup (candidateIndices_nodup req caps)

theorem slots_apart (differ : i ≠ j)
    (here : reqs[i]? = some req) (exclusive : req.exclusive = true) (there : reqs[j]? = some other) :
    (slots reqs caps chosen i).Disjoint (slots reqs caps chosen j) := by
  rcases entry_cases caps here with ⟨_, t, entry, found, rfl, _, _⟩ | ⟨shared, _⟩
  · rw [slots_exclusive found]
    rcases entry_cases caps there with ⟨_, t', entry', found', rfl, _, _⟩ | ⟨_, listed⟩
    · rw [slots_exclusive found']
      refine picked.apart t t' (List.getElem?_eq_some_iff.mp found).1 (List.getElem?_eq_some_iff.mp found').1 ?_
      rintro rfl
      rw [found] at found'
      cases found'
      exact differ rfl
    · have shared : slots reqs caps chosen j = _ := slots_shared listed
      rw [shared]
      intro c first second
      have free := (mem_filter.mp (mem_of_mem_take second)).2
      exact of_decide_eq_true free (chosen_claimed found c first)
  · rw [exclusive] at shared
    cases shared

theorem assemble_joint : Joint reqs caps (assemble reqs caps chosen) where
  length := by simp [assemble]
  fits := by
    intro i req given here slot
    rw [assemble_slot slot]
    exact slots_fit picked here
  exclusive := by
    intro i j req given other differ here exclusive slot slot'
    have inside : j < reqs.length := by
      have bound := (List.getElem?_eq_some_iff.mp slot').1
      simpa [assemble] using bound
    rw [assemble_slot slot, assemble_slot slot']
    exact slots_apart picked differ here exclusive (List.getElem?_eq_getElem inside)

end

/-! ### What a match gives the search -/

variable {a : List (List Nat)}

section
variable (joint : Joint reqs caps a)
include joint

theorem Joint.given (here : reqs[i]? = some req) : a[i]? = some (a[i]?.getD []) := by
  have inside : i < a.length := joint.length ▸ (List.getElem?_eq_some_iff.mp here).1
  rw [List.getElem?_eq_getElem inside]
  rfl

/-- The parts of a match that exclusive requirements are given, each in the order of
its candidates. -/
def ordered (reqs : List (Requirement F)) (caps : List (Capability F)) (a : List (List Nat)) : List (List Nat) :=
  (exclusiveEntries reqs caps).map fun entry => entry.cands.filter (· ∈ a[entry.index]?.getD [])

theorem ordered_selects (listed : entry ∈ exclusiveEntries reqs caps) :
    Selects (fun _ => false) entry.need entry.cands (entry.cands.filter (· ∈ a[entry.index]?.getD [])) := by
  obtain ⟨req, i, here, _, rfl⟩ := mem_exclusiveEntries.mp listed
  obtain ⟨length, once, candidates⟩ := joint.fits i req _ here (joint.given here)
  have selects : Selects (fun _ => false) (a[i]?.getD []).length _ _ :=
    selects_filter (exclusive_cands_nodup listed) once
      (fun c given => (preferred_perm _).symm.subset (candidates c given)) fun _ _ => rfl
  rw [length] at selects
  exact selects

theorem ordered_leaves (here : reqs[i]? = some req) (shared : req.exclusive = false) :
    ∀ c ∈ a[i]?.getD [], c ∉ (ordered reqs caps a).flatten := by
  intro c given taken
  obtain ⟨pick, picked, inPick⟩ := mem_flatten.mp taken
  obtain ⟨entry, listed, rfl⟩ := mem_map.mp picked
  obtain ⟨other, j, there, exclusive, rfl⟩ := mem_exclusiveEntries.mp listed
  have differ : j ≠ i := by
    rintro rfl
    rw [here] at there
    cases there
    rw [shared] at exclusive
    cases exclusive
  exact joint.exclusive j i other _ _ differ there exclusive (joint.given there) (joint.given here)
    (of_decide_eq_true (mem_filter.mp inPick).2) given

theorem solved_of_joint :
    Solved (sharedEntries reqs caps) (exclusiveEntries reqs caps) (fun _ => false) (ordered reqs caps a) := by
  refine (solution_iff ..).mpr ⟨?_, ?_, sharedFits_iff.mpr ?_⟩
  · rw [ordered, forall₂_map_left_iff, forall₂_map_right_iff, forall₂_same]
    exact fun entry listed => ordered_selects joint listed
  · rw [ordered, pairwise_map]
    refine (pairwise_map.mp exclusive_indices_nodup).imp_of_mem ?_
    intro entry other listed listed' differ c first second
    obtain ⟨req, i, here, exclusive, rfl⟩ := mem_exclusiveEntries.mp listed
    obtain ⟨req', j, here', _, rfl⟩ := mem_exclusiveEntries.mp listed'
    exact joint.exclusive i j req _ _ differ here exclusive (joint.given here) (joint.given here')
      (of_decide_eq_true (mem_filter.mp first).2) (of_decide_eq_true (mem_filter.mp second).2)
  · intro entry listed
    obtain ⟨req, i, here, shared, rfl⟩ := mem_sharedEntries.mp listed
    obtain ⟨length, once, candidates⟩ := joint.fits i req _ here (joint.given here)
    have kept : a[i]?.getD [] ⊆ (req.candidateIndices caps).filter (· ∉ (ordered reqs caps a).flatten) :=
      fun c given => mem_filter.mpr ⟨candidates c given, decide_eq_true (ordered_leaves joint here shared c given)⟩
    exact length.symm.le.trans (subperm_of_subset once kept).length_le

end

theorem search_solves (reqs : List (Requirement F)) (caps : List (Capability F)) :
    Solves (sharedEntries reqs caps) (exclusiveEntries reqs caps) 0 ⟨fun _ => false, fun _ => [], 0⟩
      (search reqs caps) :=
  exclusiveFrom_solves (fun _ listed => exclusive_cands_nodup listed) _

theorem aloneFailure_few (positive : 1 ≤ req.count.toNat) {failure : MatchFailure}
    (failed : aloneFailure caps req = some failure) : (req.candidateIndices caps).length < req.count.toNat := by
  unfold aloneFailure at failed
  unfold Requirement.candidateIndices
  cases outcome : req.candidates caps with
  | error reason => exact positive
  | ok cands =>
    rw [outcome] at failed
    dsimp only at failed
    by_cases enough : req.count.toNat ≤ cands.length
    · rw [if_pos enough] at failed
      cases failed
    · exact Nat.not_le.mp enough

theorem aloneFailures_no_joint (positive : ∀ req ∈ reqs, 1 ≤ req.count.toNat) (failed : aloneFailures reqs caps ≠ [])
    (a : List (List Nat)) : ¬ Joint reqs caps a := by
  intro joint
  obtain ⟨⟨i, failure⟩, listed⟩ := exists_mem_of_ne_nil _ failed
  obtain ⟨⟨req, j⟩, listed, found⟩ := mem_filterMap.mp listed
  obtain ⟨_, failed, _⟩ := Option.map_eq_some_iff.mp found
  have here : reqs[j]? = some req := mem_zipIdx_iff_getElem?.mp listed
  obtain ⟨length, once, candidates⟩ := joint.fits j req _ here (joint.given here)
  have few := aloneFailure_few (positive req (mem_of_getElem? here)) failed
  have most := (subperm_of_subset once candidates).length_le
  omega

theorem candidate_lt (listed : c ∈ req.candidateIndices caps) : c < caps.length := by
  obtain ⟨cap, here, _⟩ := mem_candidateIndices.mp listed
  exact (List.getElem?_eq_some_iff.mp here).1

/-- A match of a request is one of any reordering of it, on any reordering of the
capabilities. -/
theorem Joint.reorder (joint : Joint reqs caps a)
    (sameReqs : reqs'.Perm reqs) (sameCaps : caps'.Perm caps) : ∃ a', Joint reqs' caps' a' := by
  obtain ⟨place, places, apart⟩ := perm_index sameReqs
  obtain ⟨move, moves, once⟩ := perm_index sameCaps.symm
  refine ⟨(range reqs'.length).map fun i => (a[place i]?.getD []).map move, by simp, ?_, ?_⟩
  · intro i req given here slot
    have inside := (List.getElem?_eq_some_iff.mp here).1
    have there : reqs[place i]? = some req := (places i inside).trans here
    obtain ⟨length, distinct, candidates⟩ := joint.fits (place i) req _ there (joint.given there)
    rw [List.getElem?_map, List.getElem?_range inside] at slot
    cases slot
    refine ⟨by rw [length_map, length], ?_, ?_⟩
    · refine List.Nodup.map_on ?_ distinct
      intro c first c' second
      exact once c (candidate_lt (candidates c first)) c' (candidate_lt (candidates c' second))
    · intro moved listed
      obtain ⟨c, given, rfl⟩ := mem_map.mp listed
      obtain ⟨cap, found, admitted⟩ := mem_candidateIndices.mp (candidates c given)
      exact mem_candidateIndices.mpr ⟨cap, (moves c (candidate_lt (candidates c given))).trans found, admitted⟩
  · intro i j req given other differ here exclusive slot slot'
    have inside := (List.getElem?_eq_some_iff.mp here).1
    have inside' : j < reqs'.length := by simpa using (List.getElem?_eq_some_iff.mp slot').1
    have there : reqs[place i]? = some req := (places i inside).trans here
    have there' := (places j inside').trans (List.getElem?_eq_getElem inside')
    rw [List.getElem?_map, List.getElem?_range inside] at slot
    rw [List.getElem?_map, List.getElem?_range inside'] at slot'
    cases slot
    cases slot'
    intro moved first second
    obtain ⟨c, given, rfl⟩ := mem_map.mp first
    obtain ⟨c', given', same⟩ := mem_map.mp second
    have inCaps := candidate_lt ((joint.fits _ req _ there (joint.given there)).2.2 c given)
    have inCaps' := candidate_lt ((joint.fits _ _ _ there' (joint.given there')).2.2 c' given')
    obtain rfl := once c' inCaps' c inCaps same
    have distinct : place i ≠ place j := fun equal => differ (apart i inside j inside' equal)
    exact joint.exclusive _ _ req _ _ distinct there exclusive (joint.given there) (joint.given there') given given'

/-! ### The result -/

theorem matchAll_sound (matched : matchAll reqs caps = .ok a) : Joint reqs caps a := by
  unfold matchAll at matched
  by_cases alone : aloneFailures reqs caps ≠ []
  · rw [if_pos alone] at matched
    cases matched
  rw [if_neg alone] at matched
  have solves := search_solves reqs caps
  generalize search reqs caps = outcome at matched solves
  obtain ⟨ok, s⟩ := outcome
  cases ok with
  | false => cases matched
  | true =>
    cases matched
    have solved := solves.sound rfl
    rw [Search.picks, ← range_eq_range'] at solved
    exact assemble_joint (picked_of_solved solved)

variable {failures : List (Nat × MatchFailure)}

theorem matchAll_complete (positive : ∀ req ∈ reqs, 1 ≤ req.count.toNat) (within : WithinBudget reqs caps)
    (failed : matchAll reqs caps = .error failures) (a : List (List Nat)) :
    ¬ Joint reqs caps a := by
  intro joint
  unfold matchAll at failed
  by_cases alone : aloneFailures reqs caps ≠ []
  · exact aloneFailures_no_joint positive alone a joint
  have bounded := within (not_not.mp alone)
  rw [if_neg alone] at failed
  have solves := search_solves reqs caps
  generalize search reqs caps = outcome at failed solves bounded
  obtain ⟨ok, s⟩ := outcome
  cases ok with
  | true => cases failed
  | false => exact solves.complete rfl bounded _ (solved_of_joint joint)

theorem matchAll_error_ne_nil (failed : matchAll reqs caps = .error failures) :
    failures ≠ [] := by
  unfold matchAll at failed
  by_cases alone : aloneFailures reqs caps ≠ []
  · rw [if_pos alone] at failed
    cases failed
    exact alone
  rw [if_neg alone] at failed
  have enough (req : Requirement F) (i : Nat) (here : reqs[i]? = some req) :
      req.count.toNat ≤ (req.candidateIndices caps).length := by
    have silent := filterMap_eq_nil_iff.mp (not_not.mp alone) (req, i) (mem_zipIdx_iff_getElem?.mpr here)
    unfold aloneFailure at silent
    unfold Requirement.candidateIndices
    cases outcome : req.candidates caps with
    | error failure =>
      rw [outcome] at silent
      cases silent
    | ok found =>
      rw [outcome] at silent
      by_contra few
      simp only [Except.toOption, Option.getD_some] at few
      simp [few] at silent
  -- with no exclusive requirement the search only asks what every requirement has alone
  by_contra none
  subst none
  have exclusive : exclusiveEntries reqs caps = [] := by
    rw [eq_nil_iff_forall_not_mem]
    intro entry listed
    obtain ⟨req, i, here, exclusive, _⟩ := mem_exclusiveEntries.mp listed
    have named : (i, MatchFailure.contended req.count) ∈ contended reqs caps := by
      apply mem_map.mpr
      refine ⟨(req, i), mem_filter.mpr ⟨mem_zipIdx_iff_getElem?.mpr here, ?_⟩, rfl⟩
      simp [exclusive]
    cases outcome : search reqs caps with
    | mk ok s =>
      rw [outcome] at failed
      cases ok with
      | true => cases failed
      | false =>
        injection failed with empty
        rw [empty] at named
        cases named
  have fits : sharedFits (sharedEntries reqs caps) (fun _ => false) = true := by
    apply all_eq_true.mpr
    intro entry listed
    obtain ⟨req, i, here, _, rfl⟩ := mem_sharedEntries.mp listed
    simpa [entryOf] using enough req i here
  unfold search at failed
  rw [exclusive] at failed
  simp [exclusiveFrom, fits] at failed

/-- Within the budget a list matches exactly when a joint assignment exists. -/
theorem matchAll_isOk_iff (positive : ∀ req ∈ reqs, 1 ≤ req.count.toNat) (within : WithinBudget reqs caps) :
    (matchAll reqs caps).isOk = true ↔ ∃ a, Joint reqs caps a := by
  constructor
  · intro ok
    cases outcome : matchAll reqs caps with
    | ok a => exact ⟨a, matchAll_sound outcome⟩
    | error failures =>
      rw [outcome] at ok
      cases ok
  · rintro ⟨a, joint⟩
    cases outcome : matchAll reqs caps with
    | ok a => rfl
    | error failures => exact absurd joint (matchAll_complete positive within outcome a)

/-- Matching is sound and, within the budget, complete; so there the order of the
requirements and of the capabilities makes no difference. -/
theorem match_all_decides (reqs : List (Requirement F)) (caps : List (Capability F))
    (positive : ∀ req ∈ reqs, 1 ≤ req.count.toNat) :
    (∀ a, matchAll reqs caps = .ok a → Joint reqs caps a) ∧
      (∀ failures, matchAll reqs caps = .error failures → WithinBudget reqs caps → ∀ a, ¬ Joint reqs caps a) ∧
      ∀ reqs' caps', reqs'.Perm reqs → caps'.Perm caps → WithinBudget reqs caps → WithinBudget reqs' caps' →
        ((matchAll reqs' caps').isOk = true ↔ (matchAll reqs caps).isOk = true) := by
  refine ⟨fun a matched => matchAll_sound matched, ?_, ?_⟩
  · intro failures failed within
    exact matchAll_complete positive within failed
  · intro reqs' caps' sameReqs sameCaps within within'
    have positive' : ∀ req ∈ reqs', 1 ≤ req.count.toNat := fun req listed => positive req (sameReqs.subset listed)
    rw [matchAll_isOk_iff positive within, matchAll_isOk_iff positive' within']
    constructor
    · rintro ⟨a, joint⟩
      exact joint.reorder sameReqs.symm sameCaps.symm
    · rintro ⟨a, joint⟩
      exact joint.reorder sameReqs sameCaps

end

def sampleCaps : List (Capability ℚ) :=
  [⟨⟨"accel.gpu", by decide +kernel⟩, [], .probed, .available, false⟩,
    ⟨⟨"accel.npu", by decide +kernel⟩, [], .probed, .available, false⟩]

def sampleReqs : List (Requirement ℚ) :=
  [⟨.idPrefix "accel", [], 1, false, none⟩, ⟨.exact ⟨"accel.gpu", by decide +kernel⟩, [], 1, true, none⟩]

theorem match_all_sample :
    matchAll sampleReqs sampleCaps = .ok [[1], [0]] ∧ Joint sampleReqs sampleCaps [[1], [0]] ∧
      (matchAll sampleReqs.reverse sampleCaps.reverse).isOk = true := by
  have matched : matchAll sampleReqs sampleCaps = .ok [[1], [0]] := by decide +kernel
  have decides := match_all_decides sampleReqs sampleCaps (by decide +kernel)
  refine ⟨matched, decides.1 _ matched, ?_⟩
  refine (decides.2.2 _ _ (reverse_perm _) (reverse_perm _) (fun _ => ?_) fun _ => ?_).mpr ?_
  · decide +kernel
  · decide +kernel
  · rw [matched]
    rfl

end Weftos.Placement.Matching
