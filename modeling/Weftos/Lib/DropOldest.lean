import Mathlib.Data.List.Perm.Basic

/-! A bounded queue that makes room by dropping its oldest item, and the account of
everything that went through it. -/

namespace Weftos.Lib.DropOldest

structure Queue (α : Type) where
  cap : Nat
  buf : List α
  positive : 0 < cap
  bounded : buf.length ≤ cap

variable (q : Queue α)

section
variable {α : Type}

def Queue.new (cap : Nat) : Queue α where
  cap := max cap 1
  buf := []
  positive := by omega
  bounded := Nat.zero_le _

def Queue.full (q : Queue α) : Bool := q.cap ≤ q.buf.length

def Queue.oldest (q : Queue α) : List α := if q.full then q.buf.take 1 else []

def Queue.kept (q : Queue α) : List α := if q.full then q.buf.tail else q.buf

theorem Queue.oldest_append_kept : q.oldest ++ q.kept = q.buf := by
  unfold Queue.oldest Queue.kept
  split_ifs
  · cases q.buf <;> rfl
  · rfl

theorem Queue.kept_length : q.kept.length + 1 ≤ q.cap := by
  have bounded := q.bounded
  have positive := q.positive
  unfold Queue.kept Queue.full
  split_ifs with full
  · rw [List.length_tail]
    omega
  · exact Nat.succ_le_of_lt (by simpa using full)

def Queue.push (q : Queue α) (item : α) : Queue α where
  cap := q.cap
  buf := q.kept ++ [item]
  positive := q.positive
  bounded := by simpa using q.kept_length

def Queue.drained (q : Queue α) : Queue α where
  cap := q.cap
  buf := []
  positive := q.positive
  bounded := Nat.zero_le _

theorem Queue.oldest_length : q.oldest.length = if q.full then 1 else 0 := by
  have positive := q.positive
  unfold Queue.oldest
  split_ifs with full
  · have filled : q.cap ≤ q.buf.length := by simpa [Queue.full] using full
    rw [List.length_take]
    omega
  · rfl

/-- Everything pushed was taken by the reader, is still queued or was dropped; what the
reader sees is in the order of the pushes. -/
structure Account (q : Queue α) (pushed taken lost : List α) : Prop where
  inOrder : (taken ++ q.buf).Sublist pushed
  complete : pushed.Perm (lost ++ (taken ++ q.buf))

theorem Account.new (cap : Nat) : Account (Queue.new cap : Queue α) [] [] [] where
  inOrder := List.nil_sublist _
  complete := List.Perm.refl _

variable {q : Queue α} {pushed taken lost : List α} (account : Account q pushed taken lost)
include account

theorem Account.push (item : α) :
    Account (q.push item) (pushed ++ [item]) taken (lost ++ q.oldest) where
  inOrder := by
    have kept : q.kept.Sublist q.buf := by
      rw [← q.oldest_append_kept]
      exact List.sublist_append_right _ _
    have seen := (kept.append_left taken).trans account.inOrder
    simpa [Queue.push] using seen.append_right [item]
  complete := by
    have before := account.complete
    rw [← q.oldest_append_kept] at before
    have moved : (lost ++ (taken ++ (q.oldest ++ q.kept))).Perm (lost ++ q.oldest ++ (taken ++ q.kept)) := by
      simpa using (List.perm_append_comm_assoc taken q.oldest q.kept).append_left lost
    simpa [Queue.push] using (before.trans moved).append_right [item]

theorem Account.drain : Account q.drained pushed (taken ++ q.buf) lost where
  inOrder := by simpa [Queue.drained] using account.inOrder
  complete := by simpa [Queue.drained] using account.complete

theorem Account.mem_lost {item : α} (pushedItem : item ∈ pushed) (unseen : item ∉ taken ++ q.buf) : item ∈ lost :=
  (List.mem_append.mp (account.complete.mem_iff.mp pushedItem)).resolve_right unseen

end

end Weftos.Lib.DropOldest
