import Mathlib.Order.Monotone.Defs
import Mathlib.Data.List.Basic

/-! Replay memory that forgets: only items live at the current time are accepted or remembered. -/

namespace Weftos.Lib.Replay

section
variable {κ τ ν : Type} {live : τ → ν → Prop} {now next : ν} {accepted seen : List (κ × τ)} {item : κ × τ}

def Covers (live : τ → ν → Prop) (now : ν) (accepted seen : List (κ × τ)) : Prop :=
  ∀ item ∈ accepted, live item.2 now → item ∈ seen

theorem covers_nil : Covers live now [] seen := fun _ listed => absurd listed List.not_mem_nil

section
variable (covers : Covers live now accepted seen)
include covers

theorem Covers.later [Preorder ν] (expires : ∀ stamp, Antitone (live stamp)) (le : now ≤ next) :
    Covers live next accepted seen := by
  intro item listed alive
  exact covers item listed (expires item.2 le alive)

theorem Covers.forget [∀ stamp, Decidable (live stamp now)] :
    Covers live now accepted (seen.filter fun item => live item.2 now) := by
  intro item listed alive
  exact List.mem_filter.mpr ⟨covers item listed alive, decide_eq_true alive⟩

theorem Covers.remember : Covers live now accepted (seen ++ [item]) := by
  intro old listed alive
  exact List.mem_append_left _ (covers old listed alive)

theorem Covers.accept :
    Covers live now (accepted ++ [item]) (seen ++ [item]) := by
  intro old listed alive
  obtain listed | listed := List.mem_append.mp listed
  · exact List.mem_append_left _ (covers old listed alive)
  · exact List.mem_append_right _ listed

theorem Covers.fresh (alive : live item.2 now) (unseen : ∀ old ∈ seen, old.1 ≠ item.1) : item ∉ accepted := by
  intro listed
  exact unseen item (covers item listed alive) rfl

end

end

end Weftos.Lib.Replay
