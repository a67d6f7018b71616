import Mathlib.Data.List.Pairwise
import Weftos.Lib.Table

/-! Entries that only move forward along a relation, in a table that has a copy on disk. The copy is never
behind the table. -/

namespace Weftos.Lib.Durable

section
variable {κ σ : Type} [BEq κ]

def Advances (R : σ → σ → Prop) (table table' : List (κ × σ)) : Prop :=
  ∀ key entry, table.lookup key = some entry → ∃ entry', table'.lookup key = some entry' ∧ R entry entry'

structure Sound (Good : κ → σ → Prop) (table : List (κ × σ)) : Prop where
  distinct : (table.map (·.1)).Nodup
  good : ∀ key entry, table.lookup key = some entry → Good key entry

structure Kept (R : σ → σ → Prop) (Good : κ → σ → Prop) (table disk shown : List (κ × σ)) : Prop where
  inMemory : Sound Good table
  onDisk : Sound Good disk
  ahead : Advances R table disk
  shownGood : ∀ item ∈ shown, Good item.1 item.2
  covered : ∀ item ∈ shown, ∃ entry, table.lookup item.1 = some entry ∧ R item.2 entry
  rising : shown.Pairwise fun item later => item.1 = later.1 → R item.2 later.2

variable {R : σ → σ → Prop} {Good : κ → σ → Prop} {table table' disk shown out : List (κ × σ)}

theorem Advances.refl [Std.Refl R] (table : List (κ × σ)) : Advances R table table :=
  fun _ entry found => ⟨entry, found, Std.Refl.refl entry⟩

theorem Advances.trans [IsTrans σ R] {a b c : List (κ × σ)} (first : Advances R a b) (second : Advances R b c) :
    Advances R a c := by
  intro key entry found
  obtain ⟨entry', found', forward⟩ := first key entry found
  obtain ⟨entry'', found'', forward'⟩ := second key entry' found'
  exact ⟨entry'', found'', IsTrans.trans _ _ _ forward forward'⟩

theorem Advances.insert [LawfulBEq κ] [Std.Refl R] (forward : ∀ old, table.lookup key = some old → R old entry) :
    Advances R table (Table.insert table key entry) := by
  intro other old found
  by_cases same : other = key
  · subst same
    exact ⟨entry, Table.lookup_insert_self _ _ _, forward old found⟩
  · exact ⟨old, Table.lookup_insert_of_ne entry found same, Std.Refl.refl old⟩

theorem Sound.insert [LawfulBEq κ] (sound : Sound Good table) (good : Good key entry) :
    Sound Good (Table.insert table key entry) where
  distinct := Table.nodup_insert sound.distinct key entry
  good other found := by
    intro there
    by_cases same : other = key
    · subst same
      rw [Table.lookup_insert_self] at there
      exact Option.some.inj there ▸ good
    · rw [Table.lookup_insert_other table entry same] at there
      exact sound.good other found there

theorem Sound.imp {Good' : κ → σ → Prop} (sound : Sound Good table)
    (weaker : ∀ key entry, Good key entry → Good' key entry) :
    Sound Good' table := ⟨sound.distinct, fun key entry found => weaker key entry (sound.good key entry found)⟩

namespace Kept

theorem empty : Kept R Good ([] : List (κ × σ)) [] [] where
  inMemory := ⟨List.nodup_nil, by simp⟩
  onDisk := ⟨List.nodup_nil, by simp⟩
  ahead := by simp [Advances]
  shownGood := by simp
  covered := by simp
  rising := .nil

theorem imp {Good' : κ → σ → Prop} (kept : Kept R Good table disk shown)
    (weaker : ∀ key entry, Good key entry → Good' key entry) : Kept R Good' table disk shown where
  inMemory := kept.inMemory.imp weaker
  onDisk := kept.onDisk.imp weaker
  ahead := kept.ahead
  shownGood item listed := weaker _ _ (kept.shownGood item listed)
  covered := kept.covered
  rising := kept.rising

variable [IsTrans σ R]

theorem move (kept : Kept R Good table disk shown) (sound : Sound Good table') (advances : Advances R table table')
    (ahead : Advances R table' disk) : Kept R Good table' disk shown where
  inMemory := sound
  onDisk := kept.onDisk
  ahead := ahead
  shownGood := kept.shownGood
  covered item listed := by
    obtain ⟨entry, found, forward⟩ := kept.covered item listed
    obtain ⟨entry', found', forward'⟩ := advances item.1 entry found
    exact ⟨entry', found', IsTrans.trans _ _ _ forward forward'⟩
  rising := kept.rising

omit [IsTrans σ R] in
theorem writeOnly (kept : Kept R Good table disk shown) (sound : Sound Good table')
    (advances : Advances R table table') :
    Kept R Good table table' shown := { kept with onDisk := sound, ahead := advances }

variable [Std.Refl R]

section
variable (kept : Kept R Good table disk shown)
include kept

theorem write (sound : Sound Good table') (advances : Advances R table table') :
    Kept R Good table' table' shown := (kept.writeOnly sound advances).move sound advances (.refl table')

theorem restart : Kept R Good disk disk shown :=
  kept.move kept.onDisk kept.ahead (.refl disk)

omit [IsTrans σ R] in
theorem present (current : ∀ item ∈ out, table.lookup item.1 = some item.2) :
    Kept R Good table disk (shown ++ out) where
  inMemory := kept.inMemory
  onDisk := kept.onDisk
  ahead := kept.ahead
  shownGood item listed := by
    obtain before | new := List.mem_append.mp listed
    · exact kept.shownGood item before
    · exact kept.inMemory.good _ _ (current item new)
  covered item listed := by
    obtain before | new := List.mem_append.mp listed
    · exact kept.covered item before
    · exact ⟨item.2, current item new, Std.Refl.refl item.2⟩
  rising := by
    rw [List.pairwise_append]
    refine ⟨kept.rising, ?_, ?_⟩
    · apply List.pairwise_of_forall_mem_list
      intro item listed later there sameKey
      -- one table has one entry under a key
      have here := current item listed
      rw [sameKey, current later there] at here
      rw [Option.some.inj here]
      exact Std.Refl.refl item.2
    · intro item before later new sameKey
      obtain ⟨entry, found, forward⟩ := kept.covered item before
      rw [sameKey, current later new] at found
      rw [Option.some.inj found]
      exact forward

end

end Kept

theorem either_order {α : Type} {R : α → α → Prop} (refl : ∀ item, R item item) {items : List α}
    (ordered : items.Pairwise R) {first second : α} (listed : first ∈ items) (listed' : second ∈ items) :
    R first second ∨ R second first := by
  have : Std.Symm fun first second => R first second ∨ R second first := ⟨fun _ _ => Or.symm⟩
  exact @List.Pairwise.forall_of_forall _ (fun first second => R first second ∨ R second first) _ this
    (fun item _ => .inl (refl item)) (ordered.imp fun forward => .inl forward) _ listed _ listed'

end

end Weftos.Lib.Durable
