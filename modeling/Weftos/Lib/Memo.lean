import Weftos.Lib.Table

/-! Memo tables: answers kept under the questions they were given to, and when they are
still the answers a computation gives. -/

namespace Weftos.Lib.Memo

variable {κ ν : Type} {answer : κ → ν} {memo : List (κ × ν)}

def Fresh (answer : κ → ν) (memo : List (κ × ν)) : Prop := ∀ entry ∈ memo, entry.2 = answer entry.1

theorem fresh_nil : Fresh answer [] := fun _ => nofun

/-- Entries may be dropped at any time, and answers may change where none is kept. -/
theorem Fresh.changed (fresh : Fresh answer memo) (fewer : memo' ⊆ memo)
    (agree : ∀ entry ∈ memo', answer' entry.1 = answer entry.1) : Fresh answer' memo' := by
  intro entry kept
  rw [agree entry kept]
  exact fresh entry (fewer kept)

variable [BEq κ] [LawfulBEq κ]

theorem Fresh.found (fresh : Fresh answer memo) (found : memo.lookup key = some value) : value = answer key :=
  fresh (key, value) (Table.mem_of_lookup found)

omit [LawfulBEq κ] in
theorem Fresh.insert (fresh : Fresh answer memo) (key : κ) : Fresh answer (Table.insert memo key (answer key)) := by
  intro entry kept
  obtain old | new := List.mem_append.mp kept
  · exact fresh entry (List.mem_filter.mp old).1
  · rw [List.mem_singleton.mp new]

end Weftos.Lib.Memo
