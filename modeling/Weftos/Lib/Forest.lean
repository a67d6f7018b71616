import Mathlib.Data.List.Nodup

/-! Forests given by a parent function: what lies under an item, and the walk from the top down
with a stack, which meets everything under its start once. -/

namespace Weftos.Lib.Forest
open List

variable {α : Type}

inductive Under (above : α → Option α) (a : α) : α → Prop where
  | self : Under above a a
  | up (link : above x = some y) (higher : Under above a y) : Under above a x

def Ranked (above : α → Option α) (rank : α → Nat) : Prop := ∀ {x y}, above x = some y → rank y < rank x

section
variable {above : α → Option α} {rank : α → Nat} {a c d x : α}

theorem Under.trans (high : Under above a c) (low : Under above c x) : Under above a x := by
  induction low with
  | self => exact high
  | up step _ ih => exact .up step ih

theorem Under.child (under : Under above c x) (link : above c = some a) : Under above a x :=
  .trans (.up link .self) under

theorem Under.strict (under : Under above a x) (differ : a ≠ x) : ∃ y, above x = some y ∧ Under above a y := by
  cases under with
  | self => exact absurd rfl differ
  | up link higher => exact ⟨_, link, higher⟩

theorem Under.total (first : Under above a x) (second : Under above b x) : Under above a b ∨ Under above b a := by
  induction first with
  | self => exact .inr second
  | up step higher ih =>
    cases second with
    | self => exact .inl (.up step higher)
    | up link higher' =>
      rw [step] at link
      cases link
      exact ih higher'

variable (ranked : Ranked above rank)
include ranked

theorem Under.rank_le (under : Under above a x) : rank a ≤ rank x := by
  induction under with
  | self => exact Nat.le_refl _
  | up step _ ih => exact Nat.le_trans ih (Nat.le_of_lt (ranked step))

theorem not_under_child (link : above c = some a) : ¬ Under above c a := by
  intro under
  have := under.rank_le ranked
  have := ranked link
  omega

theorem siblings_apart (first : above c = some a) (second : above d = some a)
    (under : Under above c x) (under' : Under above d x) : c = d := by
  induction under with
  | self =>
    cases under' with
    | self => rfl
    | up link higher =>
      rw [first] at link
      cases link
      exact absurd higher (not_under_child ranked second)
  | up step higher ih =>
    cases under' with
    | self =>
      rw [second] at step
      cases step
      exact absurd higher (not_under_child ranked first)
    | up link higher' =>
      rw [step] at link
      cases link
      exact ih higher'

end

/-! ### Walking down -/

def expand (next : α → List α) : (fuel : Nat) → (stack : List α) → List α
  | fuel + 1, a :: stack => a :: expand next fuel (next a ++ stack)
  | _, _ => []

section
variable {next : α → List α} {fuel : Nat} {stack : List α} {above : α → Option α} {rank : α → Nat}

theorem expand_closed (short : (expand next fuel stack).length < fuel) :
    (∀ a ∈ stack, a ∈ expand next fuel stack) ∧
      ∀ a ∈ expand next fuel stack, ∀ b ∈ next a, b ∈ expand next fuel stack := by
  induction fuel generalizing stack with
  | zero => exact absurd short (Nat.not_lt_zero _)
  | succ fuel ih =>
    cases stack with
    | nil => exact ⟨fun _ => nofun, fun _ => nofun⟩
    | cons first stack =>
      obtain ⟨pushed, closed⟩ := ih (Nat.lt_of_succ_lt_succ short)
      constructor
      · intro a listed
        cases listed with
        | head => exact mem_cons_self
        | tail _ later => exact mem_cons_of_mem _ (pushed a (mem_append_right _ later))
      · intro a met b below
        apply mem_cons_of_mem
        cases met with
        | head => exact pushed b (mem_append_left _ below)
        | tail _ later => exact closed a later b below

theorem under_of_mem_expand (links : ∀ a, ∀ b ∈ next a, above b = some a)
    (met : x ∈ expand next fuel stack) : ∃ a ∈ stack, Under above a x := by
  induction fuel generalizing stack with
  | zero => exact absurd met not_mem_nil
  | succ fuel ih =>
    cases stack with
    | nil => exact absurd met not_mem_nil
    | cons first stack =>
      cases met with
      | head => exact ⟨x, mem_cons_self, .self⟩
      | tail _ later =>
        obtain ⟨a, pushed, under⟩ := ih later
        obtain below | waiting := mem_append.mp pushed
        · exact ⟨first, mem_cons_self, under.child (links first a below)⟩
        · exact ⟨a, mem_cons_of_mem _ waiting, under⟩

def Apart (above : α → Option α) (stack : List α) : Prop :=
  stack.Pairwise fun a b => ∀ x, Under above a x → ¬ Under above b x

theorem Apart.push (ranked : Ranked above rank) (links : ∀ a, ∀ b ∈ next a, above b = some a)
    (distinct : ∀ a, (next a).Nodup) (apart : Apart above (first :: stack)) :
    Apart above (next first ++ stack) := by
  obtain ⟨others, rest⟩ := pairwise_cons.mp apart
  refine pairwise_append.mpr ⟨?_, rest, ?_⟩
  · apply (distinct first).imp_of_mem
    intro c d inNext inNext' differ x under under'
    exact differ (siblings_apart ranked (links first c inNext) (links first d inNext') under under')
  · intro c inNext b waiting x under
    exact others b waiting x (under.child (links first c inNext))

theorem expand_nodup (ranked : Ranked above rank) (links : ∀ a, ∀ b ∈ next a, above b = some a)
    (distinct : ∀ a, (next a).Nodup) (apart : Apart above stack) : (expand next fuel stack).Nodup := by
  induction fuel generalizing stack with
  | zero => exact nodup_nil
  | succ fuel ih =>
    cases stack with
    | nil => exact nodup_nil
    | cons first stack =>
      have pushed := apart.push ranked links distinct
      refine nodup_cons.mpr ⟨?_, ih pushed⟩
      intro again
      obtain ⟨a, waiting, under⟩ := under_of_mem_expand links again
      obtain below | later := mem_append.mp waiting
      · exact not_under_child ranked (links first a below) under
      · exact (pairwise_cons.mp apart).1 a later first .self under

end

end Weftos.Lib.Forest
