import Mathlib.Data.List.Basic
import Mathlib.Data.List.GetD

/-! Append-only logs whose entries carry consecutive numbers and the digest of the
entry before them. Nothing here depends on how a digest is computed. -/

namespace Weftos.Lib.Log
open List

section
variable {E D : Type} (prev hash : E → D)

def Linked (root : D) : List E → Prop
  | [] => True
  | entry :: rest => prev entry = root ∧ Linked (hash entry) rest

def tip (root : D) (log : List E) : D := (log.getLast?.map hash).getD root

variable (root : D)

@[simp] theorem tip_nil : tip hash root [] = root := rfl

@[simp] theorem tip_concat (log : List E) (entry : E) :
    tip hash root (log ++ [entry]) = hash entry := by
  simp [tip]

theorem tip_cons (entry : E) (log : List E) :
    tip hash root (entry :: log) = tip hash (hash entry) log := by
  cases log with
  | nil => rfl
  | cons next rest => simp [tip, getLast?_eq_some_getLast]

theorem linked_append (front back : List E) :
    Linked prev hash root (front ++ back) ↔
      Linked prev hash root front ∧ Linked prev hash (tip hash root front) back := by
  induction front generalizing root with
  | nil => simp [Linked]
  | cons entry rest ih => simp only [cons_append, Linked, ih, tip_cons, and_assoc]

theorem linked_concat (log : List E) (entry : E) :
    Linked prev hash root (log ++ [entry]) ↔
      Linked prev hash root log ∧ prev entry = tip hash root log := by
  simp [linked_append, Linked]

variable {root} {log : List E} (linked : Linked prev hash root log)
include linked

theorem linked_getElem (i : Nat) (bound : i < log.length) : prev log[i] = tip hash root (log.take i) := by
  have split : log = log.take i ++ log[i] :: log.drop (i + 1) := by
    rw [getElem_cons_drop, take_append_drop]
  rw [split, linked_append] at linked
  exact linked.2.1

theorem linked_first (bound : 0 < log.length) :
    prev log[0] = root :=
  linked_getElem prev hash linked 0 bound

theorem linked_next (i : Nat) (bound : i + 1 < log.length) : prev log[i + 1] = hash log[i] := by
  rw [linked_getElem prev hash linked (i + 1) bound, take_succ_eq_append_getElem (by omega), tip_concat]

end

section
variable {E : Type} (number : E → Nat)

def Numbered (start : Nat) : List E → Prop
  | [] => True
  | entry :: rest => number entry = start ∧ Numbered (start + 1) rest

variable (start : Nat)

theorem numbered_append (front back : List E) :
    Numbered number start (front ++ back) ↔
      Numbered number start front ∧ Numbered number (start + front.length) back := by
  induction front generalizing start with
  | nil => simp [Numbered]
  | cons entry rest ih =>
    simp only [cons_append, Numbered, ih, length_cons, and_assoc, Nat.add_assoc, Nat.add_comm 1]

theorem numbered_concat (log : List E) (entry : E) :
    Numbered number start (log ++ [entry]) ↔
      Numbered number start log ∧ number entry = start + log.length := by
  simp [numbered_append, Numbered]

theorem numbered_iff_getElem (log : List E) :
    Numbered number start log ↔ ∀ i, (bound : i < log.length) → number log[i] = start + i := by
  induction log generalizing start with
  | nil => simp [Numbered]
  | cons entry rest ih =>
    simp only [Numbered, ih]
    constructor
    · rintro ⟨first, later⟩ i bound
      cases i with
      | zero => exact first
      | succ i =>
        have next := later i (by simpa using bound)
        simp only [getElem_cons_succ]
        omega
    · intro all
      refine ⟨all 0 (by simp), fun i bound => ?_⟩
      have next := all (i + 1) (by simpa using bound)
      simp only [getElem_cons_succ] at next
      omega

variable {start} {log : List E} (numbered : Numbered number start log)
include numbered

theorem numbered_take (n : Nat) :
    ∀ e ∈ log.take n, number e < start + n := by
  intro e listed
  obtain ⟨i, bound, rfl⟩ := mem_take_iff_getElem.mp listed
  rw [(numbered_iff_getElem number start log).mp numbered i (by omega)]
  omega

theorem numbered_drop (n : Nat) : Numbered number (start + n) (log.drop n) := by
  rw [numbered_iff_getElem] at numbered ⊢
  intro i bound
  rw [getElem_drop, numbered (n + i) (by simpa [Nat.lt_sub_iff_add_lt'] using bound), Nat.add_assoc]

theorem numbered_le : ∀ e ∈ log, start ≤ number e := by
  intro e listed
  obtain ⟨i, bound, rfl⟩ := mem_iff_getElem.mp listed
  rw [(numbered_iff_getElem number start log).mp numbered i bound]
  omega

end

/-- A search for the place where a test stops holding. Its answer is specified only
where the test holds up to some place and nowhere after it. -/
structure PartitionPoint (E : Type) where
  find : (E → Bool) → List E → Nat
  find_eq : ∀ (test : E → Bool) (front back : List E), (∀ e ∈ front, test e = true) →
    (∀ e ∈ back, test e = false) → find test (front ++ back) = front.length

def PartitionPoint.linear (E : Type) : PartitionPoint E where
  find test log := (log.takeWhile test).length
  find_eq test front back holds fails := by
    rw [takeWhile_append_of_pos holds]
    cases back with
    | nil => simp
    | cons e rest => simp [fails e mem_cons_self]

theorem PartitionPoint.find_numbered {E : Type} (p : PartitionPoint E) {number : E → Nat} {log : List E}
    (numbered : Numbered number 0 log) (n : Nat) {test : E → Bool} (below : ∀ e, test e = true ↔ number e < n) :
    p.find test log = (log.take n).length := by
  have split := p.find_eq test (log.take n) (log.drop n) ?_ ?_
  · rwa [take_append_drop] at split
  · intro e listed
    have small := numbered_take number numbered n e listed
    exact (below e).mpr (by omega)
  · intro e listed
    have large := numbered_le number (numbered_drop number numbered n) e listed
    rw [← Bool.not_eq_true, below]
    omega

end Weftos.Lib.Log
