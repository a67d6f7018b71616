import Mathlib.Algebra.GroupWithZero.Nat
import Mathlib.Algebra.Order.BigOperators.Group.List
import Mathlib.Algebra.Order.Group.Nat
import Mathlib.Data.List.Nodup

/-! Working off a queue: an item that was seen is skipped, any other is handled and what it
leads to goes to the back. -/

namespace Weftos.Lib.Worklist
open List

variable {α : Type} [DecidableEq α] (next : α → List α)

def drain : (fuel : Nat) → (queue seen : List α) → List α
  | fuel + 1, a :: queue, seen =>
    if a ∈ seen then drain fuel queue seen else a :: drain fuel (queue ++ next a) (a :: seen)
  | _, _, _ => []

variable {next} {fuel : Nat} {queue seen : List α}

theorem drain_nodup : (drain next fuel queue seen).Nodup ∧ ∀ a ∈ drain next fuel queue seen, a ∉ seen := by
  induction fuel generalizing queue seen with
  | zero => exact ⟨nodup_nil, fun _ => nofun⟩
  | succ fuel ih =>
    cases queue with
    | nil => exact ⟨nodup_nil, fun _ => nofun⟩
    | cons first queue =>
      rw [drain]
      by_cases old : first ∈ seen
      · rw [if_pos old]
        exact ih
      · rw [if_neg old]
        have later := @ih (queue ++ next first) (first :: seen)
        constructor
        · exact nodup_cons.mpr ⟨fun again => later.2 first again mem_cons_self, later.1⟩
        · intro a handled
          cases handled with
          | head => exact old
          | tail _ rest => exact fun inSeen => later.2 a rest (mem_cons_of_mem _ inSeen)

theorem drain_all {P : α → Prop} (start : ∀ a ∈ queue, P a) (passes : ∀ a, P a → ∀ b ∈ next a, P b) :
    ∀ a ∈ drain next fuel queue seen, P a := by
  induction fuel generalizing queue seen with
  | zero => exact fun _ => nofun
  | succ fuel ih =>
    cases queue with
    | nil => exact fun _ => nofun
    | cons first queue =>
      have here := start first mem_cons_self
      have others : ∀ a ∈ queue, P a := fun a listed => start a (mem_cons_of_mem _ listed)
      rw [drain]
      split
      · exact ih others
      · intro a handled
        cases handled with
        | head => exact here
        | tail _ later =>
          refine ih (fun b listed => ?_) a later
          obtain waiting | pushed := mem_append.mp listed
          · exact others b waiting
          · exact passes first here b pushed

def pushes (next : α → List α) (handled : List α) : Nat := (handled.map fun a => (next a).length).sum

theorem drain_closed (enough : queue.length + pushes next (drain next fuel queue seen) < fuel) :
    (∀ a ∈ queue, a ∈ drain next fuel queue seen ∨ a ∈ seen) ∧
      ∀ a ∈ drain next fuel queue seen, ∀ b ∈ next a, b ∈ drain next fuel queue seen ∨ b ∈ seen := by
  induction fuel generalizing queue seen with
  | zero => exact absurd enough (Nat.not_lt_zero _)
  | succ fuel ih =>
    cases queue with
    | nil => exact ⟨fun _ => nofun, fun _ => nofun⟩
    | cons first queue =>
      rw [drain] at enough ⊢
      by_cases old : first ∈ seen
      · rw [if_pos old] at enough ⊢
        rw [length_cons] at enough
        have rest : queue.length + pushes next (drain next fuel queue seen) < fuel := by omega
        obtain ⟨queued, closed⟩ := ih rest
        refine ⟨fun a listed => ?_, closed⟩
        cases listed with
        | head => exact .inr old
        | tail _ later => exact queued a later
      · rw [if_neg old] at enough ⊢
        have rest : (queue ++ next first).length + pushes next (drain next fuel (queue ++ next first) (first :: seen)) <
            fuel := by
          rw [pushes, map_cons, sum_cons, length_cons] at enough
          rw [length_append, pushes]
          omega
        obtain ⟨queued, closed⟩ := ih rest
        have shift (b : α) (later : b ∈ drain next fuel (queue ++ next first) (first :: seen) ∨ b ∈ first :: seen) :
            b ∈ first :: drain next fuel (queue ++ next first) (first :: seen) ∨ b ∈ seen := by
          obtain handled | known := later
          · exact .inl (mem_cons_of_mem _ handled)
          · cases known with
            | head => exact .inl mem_cons_self
            | tail _ before => exact .inr before
        constructor
        · intro a listed
          cases listed with
          | head => exact .inl mem_cons_self
          | tail _ later => exact shift a (queued a (mem_append_left _ later))
        · intro a handled b pushed
          cases handled with
          | head => exact shift b (queued b (mem_append_right _ pushed))
          | tail _ later => exact shift b (closed a later b pushed)

omit [DecidableEq α] in
theorem pushes_le (distinct : handled.Nodup) (known : handled ⊆ universe_) :
    pushes next handled ≤ pushes next universe_ := by
  obtain ⟨arranged, perm, sub⟩ := subperm_of_subset distinct known
  calc pushes next handled = pushes next arranged := (perm.symm.map _).sum_eq
    _ ≤ pushes next universe_ := (sub.map _).sum_le_sum fun _ _ => Nat.zero_le _

end Weftos.Lib.Worklist
