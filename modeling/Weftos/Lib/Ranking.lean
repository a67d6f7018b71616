import Mathlib.Data.List.Sort
import Mathlib.Data.String.Basic

/-! Ranking a list: stable sorts, the nearest of some candidates, reductions by a binary operation. -/

namespace Weftos.Lib.Ranking
open List

variable {α : Type}

/-! ### Stable sorts -/

def sortBy (cmp : α → α → Ordering) (items : List α) : List α :=
  items.insertionSort fun a b => (cmp a b).isLE = true

theorem sortBy_perm (cmp : α → α → Ordering) (items : List α) : (sortBy cmp items).Perm items :=
  perm_insertionSort _ items

section
variable {cmp : α → α → Ordering} [Std.TransCmp cmp]

theorem sortBy_sorted (items : List α) : (sortBy cmp items).Pairwise fun a b => (cmp a b).isLE = true := by
  have total : Std.Total fun a b => (cmp a b).isLE = true := by
    constructor
    intro a b
    have reversed : cmp b a = (cmp a b).swap := Std.OrientedCmp.eq_swap
    rw [reversed]
    cases cmp a b with
    | lt | eq => exact .inl rfl
    | gt => exact .inr rfl
  have trans : IsTrans α fun a b => (cmp a b).isLE = true := by
    constructor
    intro a b c
    exact Std.TransCmp.isLE_trans
  exact pairwise_insertionSort _ items

theorem sortBy_eq_of_perm (apart : ∀ a ∈ xs, ∀ b ∈ xs, cmp a b = .eq → a = b) (same : ys.Perm xs) :
    sortBy cmp ys = sortBy cmp xs := by
  have sorted : (sortBy cmp ys).Perm (sortBy cmp xs) :=
    (sortBy_perm cmp ys).trans (same.trans (sortBy_perm cmp xs).symm)
  apply List.Perm.eq_of_pairwise _ (sortBy_sorted ys) (sortBy_sorted xs) sorted
  intro a b inYs inXs forth back
  have inXs' := (sortBy_perm cmp xs).subset inXs
  have inYs' := same.subset ((sortBy_perm cmp ys).subset inYs)
  exact apart a inYs' b inXs' (Std.OrientedCmp.isLE_antisymm forth back)

end

theorem sortBy_map {β : Type} {cmp : α → α → Ordering} {cmp' : β → β → Ordering} (f : α → β)
    (alike : ∀ a b, cmp a b = cmp' (f a) (f b)) (items : List α) :
    (sortBy cmp items).map f = sortBy cmp' (items.map f) :=
  map_insertionSort _ _ f items fun a _ b _ => by rw [alike]

theorem sortBy_forall₂ {cmp : α → α → Ordering} {R : α → α → Prop}
    (alike : ∀ a a' b b', R a a' → R b b' → cmp a b = cmp a' b') {xs ys : List α} (related : List.Forall₂ R xs ys) :
    List.Forall₂ R (sortBy cmp xs) (sortBy cmp ys) := by
  have insert {a a' : α} (first : R a a') {xs ys : List α} (rest : List.Forall₂ R xs ys) :
      List.Forall₂ R (xs.orderedInsert (fun a b => (cmp a b).isLE = true) a)
        (ys.orderedInsert (fun a b => (cmp a b).isLE = true) a') := by
    induction rest with
    | nil => exact .cons first .nil
    | cons head tail ih =>
      rw [orderedInsert_cons, orderedInsert_cons, alike _ _ _ _ first head]
      split_ifs
      · exact .cons first (.cons head tail)
      · exact .cons head ih
  induction related with
  | nil => exact .nil
  | cons head tail ih => exact insert head ih

/-! ### The nearest of a set of candidates -/

section
variable {ι δ : Type} [LinearOrder δ]

/-- `picked` are `k` of the candidates, or all if there are fewer, and none left out is strictly nearer than one
of them. -/
structure Nearest (k : Nat) (candidates picked : List (ι × δ)) : Prop where
  among : picked.Subperm candidates
  length : picked.length = min k candidates.length
  closest : ∀ c ∈ candidates, c ∉ picked → ∀ p ∈ picked, ¬ c.2 < p.2

theorem Nearest.perm {k : Nat} {candidates picked : List (ι × δ)} (nearest : Nearest k candidates picked)
    (room : candidates.length ≤ k) : picked.Perm candidates := by
  apply nearest.among.perm_of_length_le
  rw [nearest.length, Nat.min_eq_right room]

def byDistance (a b : ι × δ) : Ordering := compare a.2 b.2

theorem byDistance_isLE {a b : ι × δ} : (byDistance a b).isLE = true ↔ a.2 ≤ b.2 := by
  rw [byDistance, Ordering.isLE_iff_ne_gt]
  exact compare_le_iff_le

instance : Std.TransCmp fun a b : ι × δ => byDistance a b :=
  inferInstanceAs (Std.TransCmp (compareOn fun a : ι × δ => a.2))

theorem nearest_sorted (k : Nat) (candidates : List (ι × δ)) :
    Nearest k candidates ((sortBy byDistance candidates).take k) := by
  have perm : (sortBy byDistance candidates).Perm candidates := sortBy_perm byDistance candidates
  constructor
  · exact (take_sublist k _).subperm.trans perm.subperm
  · rw [length_take, perm.length_eq]
  · intro c listed left p picked closer
    have sorted : (sortBy byDistance candidates).Pairwise fun a b => (byDistance a b).isLE = true :=
      sortBy_sorted candidates
    rw [← take_append_drop k (sortBy byDistance candidates), pairwise_append] at sorted
    have among : c ∈ (sortBy byDistance candidates).take k ++ (sortBy byDistance candidates).drop k := by
      rw [take_append_drop]
      exact perm.mem_iff.mpr listed
    have later := (mem_append.mp among).resolve_left left
    exact absurd closer (not_lt_of_ge (byDistance_isLE.mp (sorted.2.2 p picked c later)))

end

def reduce (f : α → α → α) : List α → Option α
  | [] => none
  | x :: xs => some (xs.foldl f x)

theorem reduce_perm {f : α → α → α} (comm : ∀ a b, f a b = f b a) (assoc : ∀ a b c, f (f a b) c = f a (f b c))
    {xs ys : List α} (same : xs.Perm ys) : reduce f xs = reduce f ys := by
  have swap (a b c : α) : f (f a b) c = f (f a c) b := by rw [assoc, comm b c, ← assoc]
  have rest {xs ys : List α} (same : xs.Perm ys) (start : α) : xs.foldl f start = ys.foldl f start :=
    same.foldl_eq' (fun b _ c _ a => swap a b c) start
  induction same with
  | nil => rfl
  | cons x same _ => exact congrArg some (rest same x)
  | swap x y xs => exact congrArg (fun start => some (xs.foldl f start)) (comm y x)
  | trans _ _ first second => exact first.trans second

theorem filterMap_parts {β : Type} {first second third : α → Option β} {whole : α → β} {items : List α}
    (parts : ∀ a ∈ items, (first a = some (whole a) ∧ second a = none ∧ third a = none) ∨
      (first a = none ∧ second a = some (whole a) ∧ third a = none) ∨
      (first a = none ∧ second a = none ∧ third a = some (whole a))) :
    (items.filterMap first ++ (items.filterMap second ++ items.filterMap third)).Perm (items.map whole) := by
  induction items with
  | nil => exact .nil
  | cons a rest ih =>
    have tail := ih fun b listed => parts b (mem_cons_of_mem a listed)
    rcases parts a mem_cons_self with ⟨one, two, three⟩ | ⟨one, two, three⟩ | ⟨one, two, three⟩
    · simp only [filterMap_cons, one, two, three, map_cons, cons_append]
      exact tail.cons _
    · simp only [filterMap_cons, one, two, three, map_cons, cons_append]
      exact perm_middle.trans (tail.cons _)
    · simp only [filterMap_cons, one, two, three, map_cons]
      calc _ = (rest.filterMap first ++ rest.filterMap second) ++ whole a :: rest.filterMap third := by simp
        _ ~ whole a :: ((rest.filterMap first ++ rest.filterMap second) ++ rest.filterMap third) := perm_middle
        _ = whole a :: (rest.filterMap first ++ (rest.filterMap second ++ rest.filterMap third)) := by simp
        _ ~ whole a :: rest.map whole := tail.cons _

def firstDuplicate [DecidableEq α] : List α → List α → Option α
  | _, [] => none
  | seen, x :: xs => if x ∈ seen then some x else firstDuplicate (x :: seen) xs

theorem firstDuplicate_eq_none_iff [DecidableEq α] {seen xs : List α} :
    firstDuplicate seen xs = none ↔ xs.Nodup ∧ ∀ x ∈ xs, x ∉ seen := by
  induction xs generalizing seen with
  | nil => simp [firstDuplicate]
  | cons x xs ih =>
    unfold firstDuplicate
    by_cases repeated : x ∈ seen
    · simp [repeated]
    · rw [if_neg repeated, ih, nodup_cons]
      simp only [mem_cons, not_or, forall_eq_or_imp]
      constructor
      · rintro ⟨distinct, fresh⟩
        exact ⟨⟨fun inside => (fresh x inside).1 rfl, distinct⟩, repeated, fun y inside => (fresh y inside).2⟩
      · rintro ⟨⟨outside, distinct⟩, _, fresh⟩
        refine ⟨distinct, fun y inside => ⟨?_, fresh y inside⟩⟩
        rintro rfl
        exact outside inside

end Weftos.Lib.Ranking
