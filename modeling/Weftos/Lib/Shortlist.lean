import Mathlib.Data.Finset.Card
import Weftos.Lib.Ranking

/-! Picking the nearest from candidates that are not the truth: some items are missing among them, or stand
there at a distance that is not theirs. The pick is right where enough right candidates come first. -/

namespace Weftos.Lib.Shortlist
open Ranking List

variable {ι δ : Type} [LinearOrder δ]

/-- The picked items are `k` of the true ones, or all if there are fewer, at their distances, and none left
out is strictly nearer. -/
structure Exact (k : Nat) (items : Finset ι) (truth : ι → Option δ) (picked : List (ι × δ)) : Prop where
  length : picked.length = min k items.card
  distinct : (picked.map (·.1)).Nodup
  true_ : ∀ r ∈ picked, truth r.1 = some r.2
  closest : ∀ i d, truth i = some d → i ∉ picked.map (·.1) → ∀ r ∈ picked, ¬ d < r.2

/-- There are `k` right candidates that are before `d`. -/
def Outranked (before : δ → δ → Prop) (k : Nat) (candidate truth : ι → Option δ) (d : δ) : Prop :=
  ∃ near : Finset ι, near.card = k ∧ ∀ i ∈ near, ∃ d', candidate i = some d' ∧ truth i = some d' ∧ before d' d

structure Clear (before : δ → δ → Prop) (k : Nat) (candidate truth : ι → Option δ) : Prop where
  missing : ∀ i d, truth i = some d → candidate i ≠ some d → Outranked (· ≤ ·) k candidate truth d
  wrong : ∀ i d, candidate i = some d → truth i ≠ some d → Outranked before k candidate truth d

theorem clear_of_eq {before : δ → δ → Prop} {candidate truth : ι → Option δ} (same : candidate = truth) :
    Clear before k candidate truth where
  missing _ _ isTrue differ := absurd (same ▸ isTrue) differ
  wrong _ _ isCandidate differ := absurd (same ▸ isCandidate) differ

theorem exact_zero {items : Finset ι} {truth : ι → Option δ} : Exact 0 items truth [] :=
  ⟨by simp, nodup_nil, by simp, by simp⟩

theorem clear_zero {before : δ → δ → Prop} {candidate truth : ι → Option δ} : Clear before 0 candidate truth :=
  ⟨fun _ _ _ _ => ⟨∅, rfl, by simp⟩, fun _ _ _ _ => ⟨∅, rfl, by simp⟩⟩

/-- The nearest of the listed candidates, and what is true. -/
structure Picks (k : Nat) (candidate truth : ι → Option δ) (items : Finset ι) (listed picked : List (ι × δ)) :
    Prop where
  nearest : Nearest k listed picked
  distinct : (listed.map (·.1)).Nodup
  mem_listed : ∀ i d, (i, d) ∈ listed ↔ candidate i = some d
  mem_items : ∀ i, i ∈ items ↔ (truth i).isSome = true

variable {k : Nat} {candidate truth : ι → Option δ} {items : Finset ι} {listed picked : List (ι × δ)}

omit [LinearOrder δ] in
theorem card_ids [DecidableEq ι] (distinct : (listed.map (·.1)).Nodup) :
    (listed.map (·.1)).toFinset.card = listed.length := by
  rw [toFinset_card_of_nodup distinct, length_map]

namespace Picks
variable (picks : Picks k candidate truth items listed picked)
include picks

theorem picked_distinct : (picked.map (·.1)).Nodup := by
  obtain ⟨_, same, fewer⟩ := picks.nearest.among
  exact (same.map _).nodup_iff.mp (picks.distinct.sublist (fewer.map _))

theorem candidate_of_picked (here : r ∈ picked) : candidate r.1 = some r.2 :=
  (picks.mem_listed r.1 r.2).mp (picks.nearest.among.subset here)

variable [DecidableEq ι]

theorem not_outranked (here : r ∈ picked) : ¬ Outranked (· < ·) k candidate truth r.2 := by
  rintro ⟨near, card, right⟩
  have all : ∀ i ∈ near, ∃ d, (i, d) ∈ picked ∧ d < r.2 := by
    intro i among
    obtain ⟨d, isCandidate, -, before⟩ := right i among
    refine ⟨d, ?_, before⟩
    by_contra left
    exact picks.nearest.closest (i, d) ((picks.mem_listed i d).mpr isCandidate) left r here before
  have apart : r.1 ∉ near := by
    intro among
    obtain ⟨d, there, before⟩ := all r.1 among
    have first : candidate r.1 = some d := picks.candidate_of_picked there
    rw [picks.candidate_of_picked here] at first
    exact absurd (Option.some.inj first) (ne_of_gt before)
  have inside : insert r.1 near ⊆ (picked.map (·.1)).toFinset := by
    intro i among
    rw [mem_toFinset]
    obtain rfl | among := Finset.mem_insert.mp among
    · exact mem_map_of_mem here
    · obtain ⟨d, there, -⟩ := all i among
      exact mem_map_of_mem there
  have bound := Finset.card_le_card inside
  rw [Finset.card_insert_of_notMem apart, card, card_ids (picks.picked_distinct), picks.nearest.length] at bound
  omega

/-- One outranked distance means that there are enough candidates and enough true items. -/
theorem enough {before : δ → δ → Prop} (outranked : Outranked before k candidate truth d) :
    min k listed.length = min k items.card := by
  obtain ⟨near, card, right⟩ := outranked
  have candidates : near ⊆ (listed.map (·.1)).toFinset := by
    intro i among
    obtain ⟨d, isCandidate, -⟩ := right i among
    exact mem_toFinset.mpr (mem_map_of_mem ((picks.mem_listed i d).mpr isCandidate))
  have truths : near ⊆ items := by
    intro i among
    obtain ⟨d, -, isTrue, -⟩ := right i among
    rw [picks.mem_items, isTrue]
    rfl
  have first := Finset.card_le_card candidates
  have second := Finset.card_le_card truths
  rw [card_ids picks.distinct] at first
  omega

theorem exact_of_clear (clear : Clear (· < ·) k candidate truth) : Exact k items truth picked where
  length := by
    rw [picks.nearest.length]
    by_cases missing : ∃ i d, truth i = some d ∧ candidate i ≠ some d
    · obtain ⟨i, d, isTrue, differ⟩ := missing
      exact picks.enough (clear.missing i d isTrue differ)
    by_cases wrong : ∃ i d, candidate i = some d ∧ truth i ≠ some d
    · obtain ⟨i, d, isCandidate, differ⟩ := wrong
      exact picks.enough (clear.wrong i d isCandidate differ)
    push Not at missing wrong
    have same : (listed.map (·.1)).toFinset = items := by
      ext i
      rw [mem_toFinset, mem_map, picks.mem_items, Option.isSome_iff_exists]
      constructor
      · rintro ⟨⟨_, d⟩, there, rfl⟩
        exact ⟨d, wrong _ d ((picks.mem_listed _ d).mp there)⟩
      · rintro ⟨d, isTrue⟩
        exact ⟨(i, d), (picks.mem_listed i d).mpr (missing i d isTrue), rfl⟩
    rw [← card_ids picks.distinct, same]
  distinct := picks.picked_distinct
  true_ r here := by
    by_contra differ
    have isCandidate := picks.candidate_of_picked here
    exact picks.not_outranked here (clear.wrong r.1 r.2 isCandidate differ)
  closest i d isTrue left r here nearer := by
    by_cases isCandidate : candidate i = some d
    · exact picks.nearest.closest (i, d) ((picks.mem_listed i d).mpr isCandidate)
        (fun among => left (mem_map_of_mem among)) r here nearer
    · obtain ⟨near, card, right⟩ := clear.missing i d isTrue isCandidate
      refine picks.not_outranked here ⟨near, card, fun i among => ?_⟩
      obtain ⟨d', first, second, before⟩ := right i among
      exact ⟨d', first, second, before.trans_lt nearer⟩

/-- What an exact pick leaves out is outranked by it. -/
theorem outranked_of_exact (exact_ : Exact k items truth picked) (full : picked.length = k)
    (far : ∀ r ∈ picked, r.2 ≤ d) : Outranked (· ≤ ·) k candidate truth d := by
  refine ⟨(picked.map (·.1)).toFinset, (card_ids exact_.distinct).trans full, fun i among => ?_⟩
  obtain ⟨r, here, rfl⟩ := mem_map.mp (mem_toFinset.mp among)
  exact ⟨r.2, picks.candidate_of_picked here, exact_.true_ r here, far r here⟩

theorem clear_of_exact (exact_ : Exact k items truth picked) : Clear (· ≤ ·) k candidate truth where
  missing i d isTrue differ := by
    have left : i ∉ picked.map (·.1) := by
      intro among
      obtain ⟨r, here, rfl⟩ := mem_map.mp among
      have same := (exact_.true_ r here).symm.trans isTrue
      rw [← same] at differ
      exact differ (picks.candidate_of_picked here)
    have inside : (picked.map (·.1)).toFinset ⊆ items.erase i := by
      intro j among
      obtain ⟨r, here, rfl⟩ := mem_map.mp (mem_toFinset.mp among)
      refine Finset.mem_erase.mpr ⟨?_, ?_⟩
      · rintro rfl
        exact left (mem_map_of_mem here)
      · rw [picks.mem_items, exact_.true_ r here]
        rfl
    have member : i ∈ items := by
      rw [picks.mem_items, isTrue]
      rfl
    have fewer := Finset.card_le_card inside
    rw [card_ids exact_.distinct, Finset.card_erase_of_mem member] at fewer
    have some_ := Finset.card_pos.mpr ⟨i, member⟩
    have length := exact_.length
    apply picks.outranked_of_exact exact_ (by omega)
    intro r here
    exact not_lt.mp (exact_.closest i d isTrue left r here)
  wrong i d isCandidate differ := by
    have there := (picks.mem_listed i d).mpr isCandidate
    have left : (i, d) ∉ picked := fun here => differ (exact_.true_ (i, d) here)
    have fewer : picked.length ≠ listed.length := by
      intro same
      exact left ((picks.nearest.among.perm_of_length_le same.ge).mem_iff.mpr there)
    have length := picks.nearest.length
    apply picks.outranked_of_exact exact_ (by omega)
    intro r here
    exact not_lt.mp (picks.nearest.closest (i, d) there left r here)

end Picks

end Weftos.Lib.Shortlist
