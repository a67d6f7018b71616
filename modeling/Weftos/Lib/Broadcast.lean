import Mathlib.Data.List.Basic

/-! The receiving end of a bounded broadcast, which tells the reader how many items it dropped. -/

namespace Weftos.Lib.Broadcast

/-- What a receiver has not read: `queue` it still can, `lost` was overwritten since the
last read. -/
structure Receiver (α : Type) (capacity : Nat) where
  queue : List α
  lost : List α
  bounded : queue.length ≤ capacity

inductive Received (α : Type) where
  | item (value : α)
  | lagged (missed : Nat)
  | empty

section
variable {α : Type} {capacity : Nat}

def Receiver.fresh : Receiver α capacity := ⟨[], [], Nat.zero_le capacity⟩

section
variable (r : Receiver α capacity)

/-- A send never waits: a full queue makes room at its front. -/
def Receiver.send (item : α) : Receiver α capacity where
  queue := (r.queue ++ [item]).drop (r.queue.length + 1 - capacity)
  lost := r.lost ++ (r.queue ++ [item]).take (r.queue.length + 1 - capacity)
  bounded := by simp only [List.length_drop, List.length_append, List.length_singleton]; omega

def Receiver.recv : Received α × Receiver α capacity :=
  match r with
  | ⟨queue, _ :: others, bounded⟩ => (.lagged (others.length + 1), ⟨queue, [], bounded⟩)
  | ⟨item :: queue, [], bounded⟩ => (.item item, ⟨queue, [], Nat.le_of_succ_le bounded⟩)
  | ⟨[], [], _⟩ => (.empty, r)

def Receiver.pending : List α := r.lost ++ r.queue

end

@[simp] theorem Receiver.pending_fresh : (Receiver.fresh : Receiver α capacity).pending = [] := rfl

variable (r : Receiver α capacity)

@[simp] theorem Receiver.pending_send (item : α) :
    (r.send item).pending = r.pending ++ [item] := by
  simp [Receiver.pending, Receiver.send, List.append_assoc]

theorem Receiver.recv_cases :
    (∃ queue, r.pending = r.lost ++ queue.pending ∧ r.lost ≠ [] ∧ r.recv = (.lagged r.lost.length, queue)) ∨
      (∃ item queue, r.pending = item :: queue.pending ∧ r.recv = (.item item, queue)) ∨
      (r.pending = [] ∧ r.recv = (.empty, r)) := by
  obtain ⟨queue, lost, bounded⟩ := r
  cases lost with
  | cons missed others => exact .inl ⟨⟨queue, [], bounded⟩, rfl, List.cons_ne_nil missed others, rfl⟩
  | nil =>
    cases queue with
    | cons item rest => exact .inr (.inl ⟨item, ⟨rest, [], Nat.le_of_succ_le bounded⟩, rfl, rfl⟩)
    | nil => exact .inr (.inr ⟨rfl, rfl⟩)

end

end Weftos.Lib.Broadcast
