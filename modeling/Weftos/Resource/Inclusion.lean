import Weftos.Resource.Current
import Weftos.Resource.Merkle

/-! Inclusion proofs: the one a tree makes for a node is accepted, and what an accepted one shows. The path a
proof names is not part of any hash, and a level does not say where its child hashes end. -/

namespace Weftos.Resource.Inclusion
open Lib Lib.Bytes Lib.Run Resource.Path Resource.Tree Shape
open Current Merkle List ResourceTree

variable {V : Type} {o : Outside V} {t : ResourceTree V} {id : ResourceId} {n : ResourceNode V}

/-! ### Child hashes -/

theorem mem_childHashes : h ∈ t.childHashes n ↔ ∃ c ∈ n.children, ∃ m, t.get c = some m ∧ m.merkleHash = h := by
  rw [childHashes, (perm_insertionSort _ _).mem_iff, mem_filterMap]
  simp only [Option.map_eq_some_iff]

theorem childHashes_length (wf : Wf t) (found : t.get id = some n) : (t.childHashes n).length = n.children.length := by
  rw [childHashes, length_insertionSort]
  have all : n.children.filterMap (fun cid => (t.get cid).map ResourceNode.merkleHash) =
      n.children.map fun cid => ((t.get cid).map ResourceNode.merkleHash).getD Digest.zero := by
    rw [← filterMap_eq_map]
    apply filterMap_congr
    intro c child
    obtain ⟨m, here, -⟩ := get_of_parentOf ((wf.listed found c).mp child)
    rw [Function.comp_apply, here]
    rfl
  rw [all, length_map]

theorem root_of_orphan (wf : Wf t) (found : t.get id = some n) (orphan : t.parentOf id = none) : id = .root := by
  by_contra notRoot
  obtain ⟨p, above, -⟩ := wf.hung found notRoot
  rw [parentOf_of_get found, above] at orphan
  exact absurd orphan nofun

theorem rootHash_eq (root : t.get .root = some r) : t.rootHash = r.merkleHash := by
  rw [rootHash, root]
  rfl

theorem proofLevels_verify (wf : Wf t) (current : HashesCurrent o t) (found : t.get id = some n)
    (enough : (t.climb fuel (t.parentOf id)).length < fuel) :
    ∃ levels, proofLevels o t fuel id = some levels ∧ verifyLevels o t.rootHash n.merkleHash levels = true ∧
      (id ≠ .root → levels ≠ []) := by
  induction fuel generalizing id n with
  | zero => exact absurd enough (Nat.not_lt_zero _)
  | succ fuel ih =>
    rw [proofLevels]
    cases above : t.parentOf id with
    | none =>
      have top := root_of_orphan wf found above
      subst top
      refine ⟨[], rfl, ?_, fun notRoot => absurd rfl notRoot⟩
      rw [verifyLevels, rootHash_eq found, decide_eq_true rfl]
    | some p =>
      obtain ⟨parent, here⟩ := Option.isSome_iff_exists.mp (wf.parent_present above)
      rw [above, climb, length_cons] at enough
      obtain ⟨rest, made, accepted, -⟩ := ih here (Nat.lt_of_succ_lt_succ enough)
      refine ⟨levelOf o t p parent :: rest, ?_, ?_, fun _ => cons_ne_nil _ _⟩
      · simp only [here, made]
        rfl
      · have listed : n.merkleHash ∈ t.childHashes parent :=
          mem_childHashes.mpr ⟨id, (wf.listed here id).mpr above, n, found, rfl⟩
        have recomputed : o.shake256 (levelOf o t p parent).input = parent.merkleHash := (current p parent here).symm
        have last : rest.isEmpty = true → parent.merkleHash = t.rootHash := by
          intro empty
          rw [isEmpty_iff.mp empty, verifyLevels] at accepted
          exact of_decide_eq_true accepted
        simp only [verifyLevels, recomputed, Bool.and_eq_true, Bool.or_eq_true, Bool.not_eq_true',
          contains_iff_mem, decide_eq_true_eq]
        refine ⟨⟨⟨listed, rfl⟩, ?_⟩, accepted⟩
        cases empty : rest.isEmpty with
        | false => exact .inl rfl
        | true => exact .inr (last empty)

theorem merkleProof_verifies (wf : Wf t) (current : HashesCurrent o t) (found : t.get id = some n) :
    ∃ proof, merkleProof o t id = some proof ∧ proof.path = id ∧ proof.nodeHash = n.merkleHash ∧
      (id ≠ .root → proof.levels ≠ []) ∧ verifyProof o t proof = true := by
  have named : id.path ≠ "" := by
    intro empty
    have slash := wf.slash found
    rw [empty] at slash
    exact absurd slash (by decide)
  rw [merkleProof, found]
  by_cases top : id = .root
  · subst top
    refine ⟨_, rfl, rfl, rfl, fun notRoot => absurd rfl notRoot, ?_⟩
    simp [verifyProof, MerkleInclusionProof.verify, ResourceId.root, ResourceId.isRoot, rootHash_eq found]
  · have notRoot : id.isRoot = false := by
      rw [ResourceId.isRoot, decide_eq_false_iff_not]
      intro same
      exact top (congrArg ResourceId.mk same)
    have enough := climb_short wf t.nodes.length (Option.isSome_iff_exists.mpr ⟨n, found⟩)
    obtain ⟨levels, made, accepted, some_⟩ := proofLevels_verify wf current found enough
    refine ⟨⟨id, n.merkleHash, levels, t.rootHash⟩, ?_, rfl, rfl, some_, ?_⟩
    · simp only [Option.bind_eq_bind, Option.bind_some, notRoot, made]
      rfl
    · have nonempty : levels.isEmpty = false := isEmpty_eq_false_iff.mpr (some_ top)
      simp [verifyProof, MerkleInclusionProof.verify, named, nonempty, accepted]

/-! ### Proofs from elsewhere -/

/-- No bytes but its own have the hash of a node. -/
def CollisionFree (o : Outside V) (t : ResourceTree V) : Prop :=
  ∀ bytes, ∀ entry ∈ t.nodes, o.shake256 bytes = o.shake256 (hashInput o t entry.2) → bytes = hashInput o t entry.2

/-- A level lists as many child hashes as the node it stands for has children, which the verifier does not check. -/
def Counted (t : ResourceTree V) (levels : List MerkleProofLevel) : Prop :=
  ∀ level ∈ levels, ∀ entry ∈ t.nodes, entry.2.merkleHash = level.parentHash →
    level.childHashesSorted.length = entry.2.children.length

/-- What an accepted proof ought to show. -/
def Sound (o : Outside V) (t : ResourceTree V) : Prop :=
  ∀ proof, verifyProof o t proof = true → ∃ n, t.get proof.path = some n ∧ n.merkleHash = proof.nodeHash

theorem verifyProof_iff {proof : MerkleInclusionProof} : verifyProof o t proof = true ↔
    proof.rootHash = t.rootHash ∧ proof.path.path ≠ "" ∧
      (proof.levels = [] ∧ proof.nodeHash = t.rootHash ∧ proof.path = .root ∨
        proof.levels ≠ [] ∧ verifyLevels o t.rootHash proof.nodeHash proof.levels = true) := by
  have isRoot : proof.path.isRoot = true ↔ proof.path = .root := by
    rw [ResourceId.isRoot, decide_eq_true_iff, ResourceId.root, ResourceId.mk.injEq]
  rw [verifyProof, Bool.and_eq_true, decide_eq_true_eq]
  refine and_congr_right fun sameRoot => ?_
  rw [MerkleInclusionProof.verify, sameRoot]
  split_ifs with empty none_
  · simp [empty]
  · simp [empty, isEmpty_iff.mp none_, isRoot]
  · simp [empty, mt List.isEmpty_iff.mpr none_]

theorem node_of_verifyLevels (wf : Wf t) (current : HashesCurrent o t) (free : CollisionFree o t)
    (counted : Counted t levels) (accepted : verifyLevels o t.rootHash expected levels = true) :
    ∃ id n, t.get id = some n ∧ n.merkleHash = expected := by
  induction levels generalizing expected with
  | nil =>
    obtain ⟨r, root, -⟩ := wf.rooted
    rw [verifyLevels, rootHash_eq root] at accepted
    exact ⟨.root, r, root, (of_decide_eq_true accepted).symm⟩
  | cons level rest ih =>
    simp only [verifyLevels, Bool.and_eq_true, contains_iff_mem, decide_eq_true_eq] at accepted
    obtain ⟨⟨⟨listed, recomputed⟩, -⟩, further⟩ := accepted
    obtain ⟨p, parent, here, hash⟩ := ih (fun l later => counted l (mem_cons_of_mem _ later)) further
    have entry : (p, parent) ∈ t.nodes := Table.mem_of_lookup here
    have same : level.input = hashInput o t parent := by
      apply free level.input (p, parent) entry
      rw [recomputed, ← current p parent here, hash]
    have count : level.childHashesSorted.length = (t.childHashes parent).length :=
      (counted level mem_cons_self (p, parent) entry hash).trans (childHashes_length wf here).symm
    rw [MerkleProofLevel.input, hashInput, partsBytes, partsBytes,
      append_assoc, append_assoc] at same
    rw [digests_append_inj count same] at listed
    obtain ⟨c, -, m, found, proven⟩ := mem_childHashes.mp listed
    exact ⟨c, m, found, proven⟩

/-- The last level has a child hash and the root's hash. -/
theorem top_of_verifyLevels (some_ : levels ≠ []) (accepted : verifyLevels o top expected levels = true) :
    ∃ level : MerkleProofLevel, level.childHashesSorted ≠ [] ∧ o.shake256 level.input = top := by
  induction levels generalizing expected with
  | nil => exact absurd rfl some_
  | cons level rest ih =>
    simp only [verifyLevels, Bool.and_eq_true, contains_iff_mem, Bool.or_eq_true, Bool.not_eq_true',
      decide_eq_true_eq] at accepted
    obtain ⟨⟨⟨listed, -⟩, last⟩, further⟩ := accepted
    cases rest with
    | nil => exact ⟨level, ne_nil_of_mem listed, last.resolve_left (by simp)⟩
    | cons next rest => exact ih (cons_ne_nil _ _) further

theorem partsBytes_length (hashes : List Digest) (scoring meta_ : Octets) :
    (partsBytes hashes scoring meta_).length = 32 * hashes.length + scoring.length + meta_.length := by
  rw [partsBytes, length_append, length_append, length_flatMap]
  congr 2
  induction hashes with
  | nil => rfl
  | cons hash hashes ih =>
    rw [map_cons, sum_cons, ih, hash.property, length_cons]
    omega

/-- A path that no node has. -/
def elsewhere (t : ResourceTree V) : ResourceId :=
  ⟨String.ofList (replicate ((t.nodes.map fun entry => entry.1.path.length).sum + 1) '/')⟩

theorem elsewhere_named (t : ResourceTree V) : (elsewhere t).path ≠ "" := by
  intro empty
  have length := congrArg String.length empty
  simp [elsewhere] at length

theorem elsewhere_absent (t : ResourceTree V) : t.get (elsewhere t) = none := by
  cases found : t.get (elsewhere t) with
  | none => rfl
  | some n =>
    have listed : (elsewhere t).path.length ∈ t.nodes.map fun entry => entry.1.path.length :=
      mem_map_of_mem (Table.mem_of_lookup found)
    have short := le_sum_of_mem listed
    simp [elsewhere] at short

theorem relabelled_verifies {proof : MerkleInclusionProof} (some_ : proof.levels ≠ []) (named : path.path ≠ "")
    (accepted : verifyProof o t proof = true) : verifyProof o t { proof with path } = true := by
  obtain ⟨sameRoot, -, ⟨none_, -⟩ | levels⟩ := verifyProof_iff.mp accepted
  · exact absurd none_ some_
  · exact verifyProof_iff.mpr ⟨sameRoot, named, .inr levels⟩

/-- The first bytes a node is hashed from, passed off as a child hash. -/
def misread (t : ResourceTree V) (path : ResourceId) (input : Octets) (long : 56 ≤ input.length) :
    MerkleInclusionProof where
  path
  nodeHash := ⟨input.take 32, by rw [length_take]; omega⟩
  levels := [⟨.root, [⟨input.take 32, by rw [length_take]; omega⟩],
    ⟨(input.drop 32).take 24, by rw [length_take, length_drop]; omega⟩, input.drop 56, t.rootHash⟩]
  rootHash := t.rootHash

theorem misread_verifies (long : 56 ≤ input.length) (named : path.path ≠ "") (hashed : o.shake256 input = t.rootHash) :
    verifyProof o t (misread t path input long) = true := by
  have whole : (input.take 32 ++ (input.drop 32).take 24) ++ input.drop 56 = input := by
    rw [append_assoc, ← drop_drop (i := 24) (j := 32), take_append_drop, take_append_drop]
  refine verifyProof_iff.mpr ⟨rfl, named, .inr ⟨cons_ne_nil _ _, ?_⟩⟩
  simp [misread, verifyLevels, MerkleProofLevel.input, partsBytes, -append_assoc, whole, hashed]

section
variable (wf : Wf t) (current : HashesCurrent o t)
include wf current

theorem lone_of_sound (sound : Sound o t) (found : t.get id = some n) : id = .root := by
  by_contra notRoot
  obtain ⟨proof, -, -, -, some_, accepted⟩ := merkleProof_verifies wf current found
  obtain ⟨other, there, -⟩ := sound _ (relabelled_verifies (some_ notRoot) (elsewhere_named t) accepted)
  cases (elsewhere_absent t).symm.trans there

omit current in
theorem childless_of_lone (lone : ∀ id n, t.get id = some n → id = .root) (root : t.get .root = some r) :
    r.children = [] := by
  refine eq_nil_iff_forall_not_mem.mpr fun c child => ?_
  have link := (wf.listed root c).mp child
  obtain ⟨m, found, -⟩ := get_of_parentOf link
  obtain rfl := lone c m found
  exact not_child_of_self wf root child

theorem sound_iff (free : CollisionFree o t) : Sound o t ↔ ∃ r, t.get .root = some r ∧
    (∀ id n, t.get id = some n → id = .root) ∧ (metaBytes o r.metadata).length < 32 := by
  obtain ⟨r, root, -⟩ := wf.rooted
  have size (lone : ∀ id n, t.get id = some n → id = .root) :
      (hashInput o t r).length = 24 + (metaBytes o r.metadata).length := by
    rw [hashInput, partsBytes_length, childHashes_length wf root, childless_of_lone wf lone root,
      r.scoring.toHashBytes_length, length_nil, Nat.mul_zero, Nat.zero_add]
  have hashed : o.shake256 (hashInput o t r) = t.rootHash := by rw [rootHash_eq root, current .root r root]
  constructor
  · intro sound
    have lone := fun id n (found : t.get id = some n) => lone_of_sound wf current sound found
    refine ⟨r, root, lone, ?_⟩
    by_contra long
    have long : 56 ≤ (hashInput o t r).length := by
      rw [size lone]
      omega
    obtain ⟨n, there, -⟩ := sound _ (misread_verifies long (elsewhere_named t) hashed)
    cases (elsewhere_absent t).symm.trans there
  · rintro ⟨_, same, lone, short⟩ proof accepted
    cases root.symm.trans same
    obtain ⟨-, -, ⟨-, hash, path⟩ | ⟨some_, levels⟩⟩ := verifyProof_iff.mp accepted
    · exact ⟨r, by rw [path]; exact root, by rw [hash, rootHash_eq root]⟩
    · obtain ⟨level, children, top⟩ := top_of_verifyLevels some_ levels
      have input := free level.input _ (Table.mem_of_lookup root) (top.trans hashed.symm)
      have length := congrArg List.length input
      rw [MerkleProofLevel.input, partsBytes_length, size lone, level.parentScoring.property] at length
      have one := length_pos_iff.mpr children
      omega

end

/-- Every node of a tree has an accepted proof. That an accepted proof names a node with the proven hash holds
exactly in a tree of the root alone whose metadata is too short to hold a hash. If the levels count their children,
the proven hash is that of a node, at whatever path. -/
theorem inclusion_proofs (o : Outside V) (t : ResourceTree V) (built : Built o t) (current : HashesCurrent o t) :
    (∀ id n, t.get id = some n → ∃ proof, merkleProof o t id = some proof ∧ proof.path = id ∧
      proof.nodeHash = n.merkleHash ∧ verifyProof o t proof = true) ∧
    (CollisionFree o t → (Sound o t ↔ ∃ r, t.get .root = some r ∧ (∀ id n, t.get id = some n → id = .root) ∧
      (metaBytes o r.metadata).length < 32)) ∧
    (CollisionFree o t → ∀ proof, Counted t proof.levels → verifyProof o t proof = true →
      ∃ id n, t.get id = some n ∧ n.merkleHash = proof.nodeHash) := by
  have wf := built.wf
  refine ⟨fun id n found => ?_, sound_iff wf current, fun free proof counted accepted => ?_⟩
  · obtain ⟨proof, made, path, hash, -, accepted⟩ := merkleProof_verifies wf current found
    exact ⟨proof, made, path, hash, accepted⟩
  · obtain ⟨-, -, ⟨-, hash, -⟩ | ⟨-, levels⟩⟩ := verifyProof_iff.mp accepted
    · obtain ⟨r, root, -⟩ := wf.rooted
      exact ⟨.root, r, root, by rw [hash, rootHash_eq root]⟩
    · exact node_of_verifyLevels wf current free counted levels

/-! ### Proofs that should not be accepted -/

def oneChild (o : Outside V) : ResourceTree V := run (step o) .new [.insert ⟨"/a"⟩ .service .root, .recomputeAll]

theorem oneChild_current (o : Outside V) : HashesCurrent o (oneChild o) :=
  (recomputeAll_current (wf_new.step (.insert ⟨"/a"⟩ .service .root))).hashes

def sample : Outside Unit where
  shake256 bytes := ⟨leBytes 32 (ofLeBytes bytes + 1), leBytes_length 32 _⟩
  text _ := ""
  aggregate scorings := scorings.headD .default

def described : ResourceTree Unit :=
  run (step sample) .new [.setMeta .root "0123456789abcdef0123456789abcdef" (), .recomputeAll]

def describedInput : Octets := NodeScoring.default.toHashBytes ++ utf8 "0123456789abcdef0123456789abcdef"

/-- Whatever the hash is, the proof of one path is accepted for a path that is not there; and bytes
that are no hash of a node pass as one. -/
theorem unbound_proofs :
    (∀ (V : Type) (o : Outside V), ∃ proof, verifyProof o (oneChild o) proof = true ∧
      (oneChild o).get proof.path = none) ∧
    verifyProof sample described (misread described .root describedInput (by decide +kernel)) = true ∧
      ∀ n, described.get .root = some n →
        n.merkleHash ≠ (misread described .root describedInput (by decide +kernel)).nodeHash := by
  refine ⟨fun V o => ?_, by decide +kernel, ?_⟩
  · have built : Built o (oneChild o) := ⟨_, rfl⟩
    obtain ⟨n, found⟩ : ∃ n, (oneChild o).get ⟨"/a"⟩ = some n := by
      have present := (recomputeAll_sameShape o (step o .new (.insert ⟨"/a"⟩ .service .root))).present ⟨"/a"⟩
      exact Option.isSome_iff_exists.mp present
    obtain ⟨proof, -, -, -, some_, accepted⟩ := merkleProof_verifies built.wf (oneChild_current o) found
    exact ⟨_, relabelled_verifies (some_ (by decide)) (elsewhere_named _) accepted, elsewhere_absent _⟩
  · have other : ∀ n ∈ described.get .root,
        n.merkleHash ≠ (misread described .root describedInput (by decide +kernel)).nodeHash := by decide +kernel
    exact other

/-- One text has a hash of its own. -/
def marked : Outside Unit where
  shake256 bytes := if bytes = NodeScoring.default.toHashBytes then ⟨leBytes 32 1, leBytes_length 32 1⟩ else Digest.zero
  text _ := ""
  aggregate scorings := scorings.headD .default

def rootOnly : ResourceTree Unit := run (step marked) .new [.recomputeAll]

theorem inclusion_proofs_rootOnly : Sound marked rootOnly := by
  have input : ∀ entry ∈ rootOnly.nodes, hashInput marked rootOnly entry.2 = NodeScoring.default.toHashBytes := by
    decide +kernel
  have free : CollisionFree marked rootOnly := by
    intro bytes entry listed same
    rw [input entry listed] at same ⊢
    by_contra differ
    simp only [marked, if_neg differ, if_true] at same
    exact absurd same (by decide)
  have lone : ∀ id n, rootOnly.get id = some n → id = .root := by
    intro id n found
    have listed : ∀ entry ∈ rootOnly.nodes, entry.1 = .root := by decide +kernel
    exact listed _ (Table.mem_of_lookup found)
  exact ((inclusion_proofs marked rootOnly ⟨_, rfl⟩ (recomputeAll_current wf_new).hashes).2.1 free).mpr
    ⟨_, rfl, lone, by decide +kernel⟩

end Weftos.Resource.Inclusion
