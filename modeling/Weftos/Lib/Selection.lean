import Mathlib.Data.List.Perm.Basic
import Mathlib.Data.List.Nodup

/-! Choosing disjoint parts of several lists, one after the other, and what it means for
such a choice to exist. -/

namespace Weftos.Lib.Selection
open List

structure Selects {α : Type} (used : α → Bool) (need : Nat) (cands picked : List α) : Prop where
  sublist : picked.Sublist cands
  length : picked.length = need
  unused : ∀ a ∈ picked, used a = false

theorem Selects.need_le (selects : Selects used need cands picked) : need ≤ cands.length := by
  rw [← selects.length]
  exact selects.sublist.length_le

section
variable {α : Type} [DecidableEq α]

def mark (used : α → Bool) (picked : List α) : α → Bool := fun a => used a || decide (a ∈ picked)

variable {used : α → Bool} {picked : List α}

theorem mark_eq_false : mark used picked a = false ↔ used a = false ∧ a ∉ picked := by
  simp [mark]

@[simp] theorem mark_nil (used : α → Bool) : mark used [] = used := by
  funext a
  simp [mark]

theorem mark_append (used : α → Bool) (front back : List α) :
    mark (mark used front) back = mark used (front ++ back) := by
  funext a
  simp [mark, Bool.or_assoc]

theorem selects_mark :
    Selects (mark used taken) need cands picked ↔ Selects used need cands picked ∧ taken.Disjoint picked := by
  constructor
  · intro selects
    refine ⟨⟨selects.sublist, selects.length, fun a listed => (mark_eq_false.mp (selects.unused a listed)).1⟩, ?_⟩
    intro a inTaken inPicked
    exact (mark_eq_false.mp (selects.unused a inPicked)).2 inTaken
  · rintro ⟨selects, apart⟩
    refine ⟨selects.sublist, selects.length, fun a listed => ?_⟩
    exact mark_eq_false.mpr ⟨selects.unused a listed, fun inTaken => apart inTaken listed⟩

theorem selects_cons (fresh : c ∉ rest) : Selects used (need + 1) (c :: rest) picked ↔
      Selects used (need + 1) rest picked ∨
        used c = false ∧ ∃ others, picked = c :: others ∧ Selects (mark used [c]) need rest others := by
  constructor
  · rintro ⟨sublist, length, unused⟩
    cases sublist with
    | cons _ inner => exact .inl ⟨inner, length, unused⟩
    | cons_cons _ inner =>
      rename_i others
      refine .inr ⟨unused c mem_cons_self, others, rfl, selects_mark.mpr ⟨⟨inner, ?_, ?_⟩, ?_⟩⟩
      · simpa using length
      · exact fun a listed => unused a (mem_cons_of_mem c listed)
      · intro a inTaken listed
        rw [mem_singleton.mp inTaken] at listed
        exact fresh (inner.subset listed)
  · rintro (selects | ⟨free, others, rfl, selects⟩)
    · exact ⟨selects.sublist.cons c, selects.length, selects.unused⟩
    · obtain ⟨inner, _⟩ := selects_mark.mp selects
      refine ⟨inner.sublist.cons_cons c, by simp [inner.length], ?_⟩
      intro a listed
      rcases mem_cons.mp listed with rfl | later
      · exact free
      · exact inner.unused a later

theorem selects_filter {cands wanted : List α} (distinct : cands.Nodup) (once : wanted.Nodup)
    (listed : ∀ a ∈ wanted, a ∈ cands) (unused : ∀ a ∈ wanted, used a = false) :
    Selects used wanted.length cands (cands.filter (· ∈ wanted)) := by
  refine ⟨filter_sublist, ?_, ?_⟩
  · apply List.Perm.length_eq
    rw [perm_ext_iff_of_nodup (distinct.filter _) once]
    intro a
    rw [mem_filter, decide_eq_true_eq]
    exact ⟨And.right, fun wants => ⟨listed a wants, wants⟩⟩
  · intro a kept
    exact unused a (of_decide_eq_true (mem_filter.mp kept).2)

/-- One selection for each goal from what the earlier ones leave; `final` judges what
the last one leaves. -/
def Solution (final : (α → Bool) → Prop) : List (Nat × List α) → (α → Bool) → List (List α) → Prop
  | [], used, [] => final used
  | goal :: goals, used, picked :: picks =>
    Selects used goal.1 goal.2 picked ∧ Solution final goals (mark used picked) picks
  | [], _, _ :: _ => False
  | _ :: _, _, [] => False

/-- Seen as a whole: each selection serves its goal, and no two share an element. -/
theorem solution_iff (final : (α → Bool) → Prop) (goals : List (Nat × List α)) (used : α → Bool)
    (picks : List (List α)) :
    Solution final goals used picks ↔
      List.Forall₂ (fun goal picked => Selects used goal.1 goal.2 picked) goals picks ∧
        picks.Pairwise List.Disjoint ∧ final (mark used picks.flatten) := by
  induction goals generalizing used picks with
  | nil => cases picks <;> simp [Solution]
  | cons goal goals ih =>
    cases picks with
    | nil => simp [Solution]
    | cons picked picks =>
      have apart : List.Forall₂ (fun goal other => Selects (mark used picked) goal.1 goal.2 other) goals picks ↔
          List.Forall₂ (fun goal other => Selects used goal.1 goal.2 other) goals picks ∧
            ∀ other ∈ picks, picked.Disjoint other := by
        clear ih
        induction goals generalizing picks with
        | nil => cases picks <;> simp
        | cons next goals inner =>
          cases picks with
          | nil => simp
          | cons other picks =>
            rw [forall₂_cons, forall₂_cons, inner picks, selects_mark, forall_mem_cons]
            tauto
      simp only [Solution, ih, apart, forall₂_cons, pairwise_cons, flatten_cons, mark_append]
      tauto

end

theorem perm_index {β : Type} {front back : List β} (perm : front.Perm back) :
    ∃ move : Nat → Nat, (∀ i < front.length, back[move i]? = front[i]?) ∧
      ∀ i < front.length, ∀ j < front.length, move i = move j → i = j := by
  induction perm with
  | nil => exact ⟨id, by simp, by simp⟩
  | cons x perm ih =>
    obtain ⟨move, same, once⟩ := ih
    refine ⟨fun i => if i = 0 then 0 else move (i - 1) + 1, ?_, ?_⟩
    · intro i inside
      cases i with
      | zero => rfl
      | succ i => simpa using same i (by simpa using inside)
    · intro i inside j inside' equal
      cases i with
      | zero => cases j <;> simp at equal ⊢
      | succ i =>
        cases j with
        | zero => simp at equal
        | succ j => simpa using once i (by simpa using inside) j (by simpa using inside') (by simpa using equal)
  | swap =>
    refine ⟨fun i => if i = 0 then 1 else if i = 1 then 0 else i, ?_, ?_⟩
    · intro i inside
      match i with
      | 0 | 1 | i + 2 => rfl
    · intro i inside j inside' equal
      dsimp only at equal
      split_ifs at equal <;> omega
  | @trans front middle back first second ihFirst ihSecond =>
    obtain ⟨move, same, once⟩ := ihFirst
    obtain ⟨move', same', once'⟩ := ihSecond
    have stays (i : Nat) (inside : i < front.length) : move i < middle.length := by
      by_contra outside
      have absent := same i inside
      rw [getElem?_eq_none (by omega), getElem?_eq_getElem inside] at absent
      cases absent
    refine ⟨move' ∘ move, ?_, ?_⟩
    · intro i inside
      exact (same' (move i) (stays i inside)).trans (same i inside)
    · intro i inside j inside' equal
      exact once i inside j inside' (once' (move i) (stays i inside) (move j) (stays j inside') equal)

end Weftos.Lib.Selection
