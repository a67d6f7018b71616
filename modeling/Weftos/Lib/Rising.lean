import Mathlib.Data.List.Pairwise

/-! Lists whose items rise in a numeric key, such as a log by its sequence numbers. -/

namespace Weftos.Lib.Rising
open List

section
variable {α : Type} {key : α → Nat} {items : List α} {bound : Nat}

theorem eq_of_key (rising : items.Pairwise fun a b => key a < key b) (first : a ∈ items)
    (second : b ∈ items) (same : key a = key b) : a = b := by
  by_contra different
  have : Std.Symm fun a b => key a ≠ key b := ⟨fun _ _ apart => apart.symm⟩
  have distinct : items.Pairwise fun a b => key a ≠ key b := rising.imp Nat.ne_of_lt
  exact distinct.forall first second different same

def below (key : α → Nat) (bound : Nat) (items : List α) : List α := items.filter fun a => key a < bound

theorem below_nil_of_le (above : ∀ a ∈ items, bound ≤ key a) : below key bound items = [] := by
  apply filter_eq_nil_iff.mpr
  intro a member
  have := above a member
  simp only [decide_eq_true_eq]
  omega

theorem below_eq_self (under : ∀ a ∈ items, key a < bound) : below key bound items = items := by
  apply filter_eq_self.mpr
  intro a member
  exact decide_eq_true (under a member)

theorem below_append_of_le (above : bound ≤ key a) : below key bound (items ++ [a]) = below key bound items := by
  have gone : below key bound [a] = [] := below_nil_of_le fun b only => by rwa [mem_singleton.mp only]
  calc below key bound (items ++ [a]) = below key bound items ++ below key bound [a] := filter_append ..
    _ = below key bound items := by rw [gone, append_nil]

theorem below_succ_of_absent (absent : ∀ a ∈ items, key a ≠ bound) :
    below key (bound + 1) items = below key bound items := by
  apply filter_congr
  intro a member
  have := absent a member
  apply decide_eq_decide.mpr
  omega

theorem below_prefix (rising : items.Pairwise fun a b => key a < key b) (bound : Nat) :
    below key bound items <+: items := by
  induction items with
  | nil => exact nil_prefix
  | cons a rest ih =>
    obtain ⟨later, rising⟩ := pairwise_cons.mp rising
    by_cases under : key a < bound
    · rw [below, filter_cons_of_pos (by simpa using under)]
      exact (prefix_cons_inj a).mpr (ih rising)
    · have gone : below key bound (a :: rest) = [] := by
        apply below_nil_of_le
        intro b member
        rcases mem_cons.mp member with rfl | behind
        · omega
        · have := later b behind
          omega
      rw [gone]
      exact nil_prefix

theorem below_succ_of_mem (rising : items.Pairwise fun a b => key a < key b) (member : a ∈ items) :
    below key (key a + 1) items = below key (key a) items ++ [a] := by
  induction items with
  | nil => cases member
  | cons b rest ih =>
    obtain ⟨later, rising⟩ := pairwise_cons.mp rising
    rcases mem_cons.mp member with rfl | behind
    · have gone (bound : Nat) (near : bound ≤ key a + 1) : below key bound rest = [] := by
        apply below_nil_of_le
        intro b inside
        have := later b inside
        omega
      rw [below, below, filter_cons_of_pos (by simp), filter_cons_of_neg (by simp)]
      change a :: below key (key a + 1) rest = below key (key a) rest ++ [a]
      rw [gone _ (Nat.le_refl _), gone _ (Nat.le_succ _)]
      rfl
    · have first := later a behind
      rw [below, below, filter_cons_of_pos (by simp; omega), filter_cons_of_pos (by simp; omega)]
      exact congrArg (b :: ·) (ih rising behind)

end

end Weftos.Lib.Rising
