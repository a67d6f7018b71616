import Mathlib.Data.List.Induction
import Mathlib.Data.Nat.BitIndices
import Mathlib.Data.Nat.Pairing

/-! Merkle mountain ranges: what the root of a list of leaf digests commits to. -/

namespace Weftos.Dag.Mountain
open List Function

variable {D : Type} (hashNode : D → D → D) (zero : D)

/-- The peaks with their heights, the newest first. -/
structure MerkleMountainRange (D : Type) where
  peaks : List (D × Nat) := []
  leaves : List D := []

/-- The loop of `merge_peaks`, with the newest peak taken off. -/
def mergePeaks (h1 : D) (e1 : Nat) : List (D × Nat) → List (D × Nat)
  | [] => [(h1, e1)]
  | (h0, e0) :: rest => if e0 ≠ e1 then (h1, e1) :: (h0, e0) :: rest else mergePeaks (hashNode h0 h1) (e0 + 1) rest

/-- The loop of `root`, which starts at the oldest peak. -/
def bag : List (D × Nat) → D
  | [] => zero
  | [p] => p.1
  | p :: older => hashNode (bag older) p.1

structure MmrProof (D : Type) where
  leafIndex : Nat
  leaf : D
  allLeaves : List D

namespace MerkleMountainRange

variable (m : MerkleMountainRange D)

def push (leaf : D) : MerkleMountainRange D :=
  ⟨mergePeaks hashNode leaf 0 m.peaks, m.leaves ++ [leaf]⟩

def root : D := bag hashNode zero m.peaks

def proof (index : Nat) : Option (MmrProof D) :=
  m.leaves[index]?.map (⟨index, ·, m.leaves⟩)

end MerkleMountainRange

open MerkleMountainRange

def ofLeaves (leaves : List D) : MerkleMountainRange D := leaves.foldl (push hashNode) {}

def verify [DecidableEq D] (leaf : D) (index : Nat) (proof : MmrProof D) (expected : D) : Bool :=
  if proof.leafIndex ≠ index ∨ proof.leaf ≠ leaf then false
  else if proof.allLeaves[index]? ≠ some leaf then false
  else root hashNode zero (ofLeaves hashNode proof.allLeaves) = expected

variable {hashNode}

theorem ofLeaves_snoc (leaves : List D) (leaf : D) :
    ofLeaves hashNode (leaves ++ [leaf]) = push hashNode (ofLeaves hashNode leaves) leaf := by
  rw [ofLeaves, foldl_append]
  rfl

theorem ofLeaves_leaves (leaves : List D) : (ofLeaves hashNode leaves).leaves = leaves := by
  induction leaves using reverseRecOn with
  | nil => rfl
  | append_singleton leaves leaf ih => rw [ofLeaves_snoc, push, ih]

/-! ### What the peaks are -/

/-- `d` is the root of the perfect tree of height `e` over the leaves. -/
inductive Perfect (hashNode : D → D → D) : D → Nat → List D → Prop
  | leaf (d : D) : Perfect hashNode d 0 [d]
  | node (left : Perfect hashNode a e xs) (right : Perfect hashNode b e ys) :
    Perfect hashNode (hashNode a b) (e + 1) (xs ++ ys)

/-- Perfect trees over the leaves, the newest first and each lower than those before it. -/
inductive Range (hashNode : D → D → D) : List (D × Nat) → List D → Prop
  | nil : Range hashNode [] []
  | cons (older : Range hashNode ps xs) (lower : ∀ p ∈ ps, e < p.2) (tree : Perfect hashNode d e us) :
    Range hashNode ((d, e) :: ps) (xs ++ us)

theorem Perfect.length (tree : Perfect hashNode d e xs) : xs.length = 2 ^ e := by
  induction tree with
  | leaf d => rfl
  | node left right first second => rw [length_append, first, second, pow_succ, mul_two]

theorem Range.sortedLT (range : Range hashNode ps xs) : (ps.map (·.2)).SortedLT := by
  rw [sortedLT_iff_pairwise]
  induction range with
  | nil => exact .nil
  | cons older lower tree ih => exact .cons (by simpa using fun e d => lower (d, e)) ih

theorem Range.length (range : Range hashNode ps xs) : xs.length = ((ps.map (·.2)).map (2 ^ ·)).sum := by
  induction range with
  | nil => rfl
  | cons older lower tree ih => simp [ih, tree.length, Nat.add_comm]

theorem Range.merge (range : Range hashNode ps xs) (lower : ∀ p ∈ ps, e ≤ p.2) (tree : Perfect hashNode d e us) :
    Range hashNode (mergePeaks hashNode d e ps) (xs ++ us) := by
  induction range generalizing d e us with
  | nil => exact .cons .nil (by simp) tree
  | cons older above last ih =>
    simp only [mergePeaks]
    split_ifs with apart
    · have first := lower _ mem_cons_self
      exact .cons (.cons older above last) (by grind) tree
    · obtain rfl := not_not.mp apart
      rw [append_assoc]
      exact ih above (.node last tree)

theorem ofLeaves_range (leaves : List D) : Range hashNode (ofLeaves hashNode leaves).peaks leaves := by
  induction leaves using reverseRecOn with
  | nil => exact .nil
  | append_singleton leaves leaf ih =>
    rw [ofLeaves_snoc]
    exact ih.merge (by simp) (.leaf leaf)

/-- However many leaves were pushed, the peaks are perfect trees over them, one for each binary digit of their
number. -/
theorem peaks_binary (leaves : List D) :
    Range hashNode (ofLeaves hashNode leaves).peaks leaves ∧
      (ofLeaves hashNode leaves).peaks.map (·.2) = leaves.length.bitIndices := by
  have range : Range hashNode (ofLeaves hashNode leaves).peaks leaves := ofLeaves_range leaves
  rw [range.length, Nat.bitIndices_sum_map_two_pow range.sortedLT]
  exact ⟨range, rfl⟩

/-! ### What is under the root -/

theorem Perfect.node_or_leaf (tree : Perfect hashNode d e xs) : xs = [d] ∨ ∃ a b, d = hashNode a b := by
  cases tree with
  | leaf => exact .inl rfl
  | node => exact .inr ⟨_, _, rfl⟩

/-- Over more than one leaf the root is a node. -/
theorem Range.bag_node (range : Range hashNode ps xs) (two : 2 ≤ xs.length) :
    ∃ a b, bag hashNode zero ps = hashNode a b := by
  cases range with
  | nil => simp at two
  | cons older lower tree =>
    cases older with
    | cons => exact ⟨_, _, rfl⟩
    | nil =>
      obtain rfl | node := tree.node_or_leaf
      · simp at two
      · exact node

/-! ### What the root determines -/

/-- Two ranges of the same shape. Under peaks that are equal they have the same leaves. -/
inductive Twin : List (D × Nat) → List (D × Nat) → List D → List D → Prop
  | nil : Twin [] [] [] []
  | cons (older : Twin ps qs xs ys) (same : a = b → us = vs) : Twin ((a, e) :: ps) ((b, e) :: qs) (xs ++ us) (ys ++ vs)

section
variable (injective : Injective2 hashNode)
include injective

theorem Twin.merge (twin : Twin ps qs xs ys) (same : a = b → us = vs) (e : Nat) :
    Twin (mergePeaks hashNode a e ps) (mergePeaks hashNode b e qs) (xs ++ us) (ys ++ vs) := by
  induction twin generalizing a b us vs e with
  | nil => exact .cons .nil same
  | cons older before ih =>
    simp only [mergePeaks]
    split_ifs
    · exact .cons (.cons older before) same
    · rw [append_assoc, append_assoc]
      refine ih (fun merged => ?_) _
      obtain ⟨left, right⟩ := injective merged
      rw [before left, same right]

theorem ofLeaves_twin {leaves leaves' : List D} (same : leaves.length = leaves'.length) :
    Twin (ofLeaves hashNode leaves).peaks (ofLeaves hashNode leaves').peaks leaves leaves' := by
  induction leaves using reverseRecOn generalizing leaves' with
  | nil =>
    rw [length_eq_zero_iff.mp same.symm]
    exact .nil
  | append_singleton leaves leaf ih =>
    obtain rfl | ⟨front, last, rfl⟩ := eq_nil_or_concat leaves'
    · simp at same
    rw [concat_eq_append, ofLeaves_snoc, ofLeaves_snoc]
    exact (ih (by simpa using same)).merge injective (congrArg ([·])) 0

theorem Twin.eq_of_bag (twin : Twin ps qs xs ys) (same : bag hashNode zero ps = bag hashNode zero qs) : xs = ys := by
  induction twin with
  | nil => rfl
  | cons older alike ih =>
    -- the oldest peak is the bag itself, every other one a node over those before it
    cases older with
    | nil => rw [alike same]
    | cons =>
      obtain ⟨before, last⟩ := injective same
      rw [ih before, alike last]

end

/-! ### Proofs -/

section
variable [DecidableEq D] {zero : D} {leaves : List D} {proof : MmrProof D} {i : Nat}

theorem verify_iff : verify hashNode zero leaf i proof expected = true ↔
    (proof.leafIndex = i ∧ proof.leaf = leaf) ∧ proof.allLeaves[i]? = some leaf ∧
      root hashNode zero (ofLeaves hashNode proof.allLeaves) = expected := by
  simp [verify]

variable (hashNode zero) in
/-- What a proof that verifies ought to show. -/
def Sound (leaves : List D) : Prop :=
  ∀ i leaf proof, verify hashNode zero leaf i proof (root hashNode zero (ofLeaves hashNode leaves)) = true →
    leaves[i]? = some leaf

theorem Sound.found (sound : Sound hashNode zero leaves) (claimed : List D)
    (same : root hashNode zero (ofLeaves hashNode claimed) = root hashNode zero (ofLeaves hashNode leaves))
    (listed : claimed[i]? = some leaf) : leaves[i]? = some leaf :=
  sound i leaf ⟨i, leaf, claimed⟩ (verify_iff.mpr ⟨⟨rfl, rfl⟩, listed, same⟩)

theorem sound_single (plain : ∀ b c, a ≠ hashNode b c) : Sound hashNode zero [a] := by
  intro i leaf proof accepted
  obtain ⟨-, listed, same⟩ := verify_iff.mp accepted
  change _ = a at same
  match claimed : proof.allLeaves with
  | [] => simp [claimed] at listed
  | [b] =>
    rw [claimed] at listed same
    change b = a at same
    rwa [same] at listed
  | b :: c :: more =>
    obtain ⟨x, y, node⟩ := Range.bag_node zero (ofLeaves_range proof.allLeaves) (by simp [claimed])
    exact absurd (same.symm.trans node) (plain x y)

/-- Every leaf has a proof that verifies. That a proof that verifies is one of a leaf at its index holds, of all
proofs, exactly if there is one leaf and it is not a node, and of those that list as many leaves as there are. -/
theorem inclusion (leaves : List D) :
    (∀ i leaf, leaves[i]? = some leaf → ∃ proof, (ofLeaves hashNode leaves).proof i = some proof ∧
      verify hashNode zero leaf i proof (root hashNode zero (ofLeaves hashNode leaves)) = true) ∧
    ((∀ a b, hashNode a b ≠ a) → (Sound hashNode zero leaves ↔ ∃ a, leaves = [a] ∧ ∀ b c, a ≠ hashNode b c)) ∧
    (Injective2 hashNode → ∀ i leaf proof, proof.allLeaves.length = leaves.length →
      verify hashNode zero leaf i proof (root hashNode zero (ofLeaves hashNode leaves)) = true →
      leaves[i]? = some leaf) := by
  refine ⟨?_, ?_, ?_⟩
  · intro i leaf found
    refine ⟨⟨i, leaf, leaves⟩, ?_, verify_iff.mpr ⟨⟨rfl, rfl⟩, found, rfl⟩⟩
    simp [MerkleMountainRange.proof, ofLeaves_leaves, found]
  · intro noFixed
    constructor
    · intro sound
      match leaves, sound with
      | [], sound => cases sound.found [zero] rfl (i := 0) rfl
      | [a], sound =>
        refine ⟨a, rfl, fun b c node => ?_⟩
        cases sound.found [b, c] node.symm (i := 1) rfl
      | a :: b :: more, sound =>
        -- the first leaf would be the root, listed alone, and also the root's left child
        obtain ⟨x, y, node⟩ := Range.bag_node zero (ofLeaves_range (a :: b :: more)) (by simp)
        have top := sound.found [hashNode x y] node.symm (i := 0) rfl
        have left := sound.found [x, y] node.symm (i := 0) rfl
        exact absurd (Option.some.inj (top.symm.trans left)) (noFixed x y)
    · rintro ⟨a, rfl, plain⟩
      exact sound_single plain
  · intro injective i leaf proof count accepted
    obtain ⟨-, found, same⟩ := verify_iff.mp accepted
    rw [← (ofLeaves_twin injective count).eq_of_bag zero injective same]
    exact found

end

theorem inclusion_three : (∃ proof, (ofLeaves Nat.pair [3, 1, 4]).proof 2 = some proof ∧
      verify Nat.pair 0 4 2 proof (root Nat.pair 0 (ofLeaves Nat.pair [3, 1, 4])) = true) ∧
    ¬ Sound (fun a b => Nat.pair a b + 1) 0 [3, 1, 4] := by
  refine ⟨(inclusion [3, 1, 4]).1 2 4 rfl, fun sound => ?_⟩
  have noFixed (a b : Nat) : Nat.pair a b + 1 ≠ a := (Nat.lt_succ_of_le (Nat.left_le_pair a b)).ne'
  obtain ⟨a, single, -⟩ := ((inclusion [3, 1, 4]).2.1 noFixed).mp sound
  cases single

/-- A node passes for a leaf: one leaf that is the hash of two has their root. -/
theorem node_as_leaf : Injective2 Nat.pair ∧ [1, 2][0]? ≠ some 5 ∧
    verify Nat.pair 0 5 0 ⟨0, 5, [5]⟩ (root Nat.pair 0 (ofLeaves Nat.pair [1, 2])) = true :=
  ⟨fun _ _ _ _ => Nat.pair_eq_pair.mp, by decide, by decide⟩

end Weftos.Dag.Mountain
