import Weftos.Resource.Tree

/-! Inclusion proofs and tree differences over Merkle hashes (`exo-resource-tree/src/merkle.rs`).
The order in which a hash set or map is iterated is that of its list. -/

namespace Weftos.Resource.Merkle
open Lib.Bytes Resource.Path Resource.Tree

variable {V : Type}

/-! ### Inclusion proofs -/

abbrev ScoringBytes := { bytes : Octets // bytes.length = 24 }

structure MerkleProofLevel where
  parentId : ResourceId
  childHashesSorted : List Digest
  parentScoring : ScoringBytes
  parentMetaBytes : Octets
  parentHash : Digest

structure MerkleInclusionProof where
  path : ResourceId
  nodeHash : Digest
  levels : List MerkleProofLevel
  rootHash : Digest

section
variable (o : Outside V)

/-- `hash_from_parts` over the parts of a level. -/
def MerkleProofLevel.input (level : MerkleProofLevel) : Octets :=
  ResourceTree.partsBytes level.childHashesSorted level.parentScoring.val level.parentMetaBytes

/-- The loop of `verify` from a level on, with the child hash it expects there. -/
def verifyLevels (rootHash : Digest) : Digest → List MerkleProofLevel → Bool
  | expectedChild, [] => expectedChild = rootHash
  | expectedChild, level :: rest =>
    let recomputed := o.shake256 level.input
    level.childHashesSorted.contains expectedChild && recomputed = level.parentHash &&
      (!rest.isEmpty || recomputed = rootHash) && verifyLevels rootHash level.parentHash rest

def MerkleInclusionProof.verify (proof : MerkleInclusionProof) : Bool :=
  if proof.path.path = "" then false
  else if proof.levels.isEmpty then proof.nodeHash = proof.rootHash && proof.path.isRoot
  else verifyLevels o proof.rootHash proof.nodeHash proof.levels

def levelOf (t : ResourceTree V) (parentId : ResourceId) (parent : ResourceNode V) : MerkleProofLevel where
  parentId := parentId
  childHashesSorted := t.childHashes parent
  parentScoring := ⟨parent.scoring.toHashBytes, parent.scoring.toHashBytes_length⟩
  parentMetaBytes := ResourceTree.metaBytes o parent.metadata
  parentHash := parent.merkleHash

def proofLevels (t : ResourceTree V) : Nat → ResourceId → Option (List MerkleProofLevel)
  | fuel + 1, current =>
    match t.parentOf current with
    | some parentId => do
      let parent ← t.get parentId
      let rest ← proofLevels t fuel parentId
      pure (levelOf o t parentId parent :: rest)
    | none => some []
  | 0, _ => some []

def merkleProof (t : ResourceTree V) (id : ResourceId) : Option MerkleInclusionProof := do
  let node ← t.get id
  if id.isRoot then pure ⟨id, node.merkleHash, [], t.rootHash⟩
  else
    let levels ← proofLevels o t t.nodes.length id
    pure ⟨id, node.merkleHash, levels, t.rootHash⟩

def verifyProof (t : ResourceTree V) (proof : MerkleInclusionProof) : Bool :=
  proof.rootHash = t.rootHash && proof.verify o

end

/-! ### Differences -/

inductive MerkleDiffKind where
  | added
  | modified
  | removed
  deriving DecidableEq

structure DiffNodePayload (V : Type) where
  id : ResourceId
  kind : ResourceKind
  parent : Option ResourceId
  metadata : List (String × V)
  scoring : NodeScoring
  merkleHash : Digest

def DiffNodePayload.fromNode (node : ResourceNode V) : DiffNodePayload V :=
  ⟨node.id, node.kind, node.parent, node.metadata, node.scoring, node.merkleHash⟩

structure SiblingWitness where
  id : ResourceId
  merkleHash : Digest

structure MerkleDiffEntry (V : Type) where
  id : ResourceId
  diffKind : MerkleDiffKind
  node : Option (DiffNodePayload V)
  siblingWitnesses : List SiblingWitness

structure MerkleDiff (V : Type) where
  localRoot : Digest
  remoteRoot : Digest
  entries : List (MerkleDiffEntry V)
  nodesVisited : Nat

def MerkleDiff.inSync (diff : MerkleDiff V) : Bool := diff.localRoot = diff.remoteRoot && diff.entries.isEmpty

/-- Equality of maps: as many entries, and each is found in the other with an equal value. -/
def sameMetadata [BEq V] (first second : List (String × V)) : Bool :=
  first.length = second.length && first.all fun entry => (second.lookup entry.1).any (entry.2 == ·)

def contentDiff [BEq V] (lnode rnode : ResourceNode V) : Bool :=
  rnode.kind ≠ lnode.kind || !sameMetadata rnode.metadata lnode.metadata || !rnode.scoring.eqArray lnode.scoring

section
variable (t : ResourceTree V)

def siblingWitnessesFor (id : ResourceId) : List SiblingWitness :=
  match (t.parentOf id).bind t.get with
  | some parent =>
    (parent.children.filter (· ≠ id)).filterMap fun cid => (t.get cid).map fun n => ⟨cid, n.merkleHash⟩
  | none => []

def addedEntry (cid : ResourceId) (node : ResourceNode V) : MerkleDiffEntry V :=
  ⟨cid, .added, some (.fromNode node), siblingWitnessesFor t cid⟩

def removedEntry (id : ResourceId) : MerkleDiffEntry V := ⟨id, .removed, none, []⟩

/-- The loop of `collect_subtree_added` over its stack, with the number of items popped. -/
def collectSubtreeAdded : Nat → List ResourceId → List (MerkleDiffEntry V) × Nat
  | fuel + 1, cid :: stack =>
    match t.get cid with
    | some node =>
      let rest := collectSubtreeAdded fuel (node.children ++ stack)
      (addedEntry t cid node :: rest.1, rest.2 + 1)
    | none =>
      let rest := collectSubtreeAdded fuel stack
      (rest.1, rest.2 + 1)
  | _, _ => ([], 0)

structure Visit (V : Type) where
  emitted : List (MerkleDiffEntry V)
  pushed : List ResourceId
  counted : Nat

def walk (at_ : ResourceId → Visit V) : (fuel : Nat) → (queue seen : List ResourceId) →
    List (MerkleDiffEntry V) → Nat → List (MerkleDiffEntry V) × Nat
  | fuel + 1, id :: queue, seen, entries, visited =>
    if id ∈ seen then walk at_ fuel queue seen entries visited
    else
      walk at_ fuel (queue ++ (at_ id).pushed) (id :: seen) (entries ++ (at_ id).emitted)
        (visited + 1 + (at_ id).counted)
  | _, _, _, entries, visited => (entries, visited)

/-- The pass over the remote paths that the walk did not reach. -/
def coverRemoved (result : List (MerkleDiffEntry V) × Nat) (rid : ResourceId) : List (MerkleDiffEntry V) × Nat :=
  if (t.get rid).isSome then result
  else if result.1.any fun e => e.id = rid then result
  else (result.1 ++ [removedEntry rid], result.2 + 1)

def hashMap (t : ResourceTree V) : List (ResourceId × Digest) := t.nodes.map fun entry => (entry.1, entry.2.merkleHash)

variable [BEq V]

def visit (remoteHashes : List (ResourceId × Digest)) (remoteTree : Option (ResourceTree V)) (id : ResourceId) :
    Visit V :=
  let remoteNode := remoteTree.bind fun r => r.get id
  match t.get id, remoteHashes.lookup id with
  | some lnode, some rh =>
    if lnode.merkleHash = rh then ⟨[], [], 0⟩
    else
      let differs := (remoteNode.map fun rnode => contentDiff lnode rnode).getD true
      let emitted :=
        if differs then [⟨id, .modified, some (.fromNode lnode), siblingWitnessesFor t id⟩] else []
      let remoteChildren := (remoteNode.map ResourceNode.children).getD []
      ⟨emitted, (lnode.children ++ remoteChildren).dedup, 0⟩
  | some _, none =>
    let (emitted, counted) := collectSubtreeAdded t (t.nodes.length + 1) [id]
    ⟨emitted, [], counted⟩
  | none, some _ => ⟨[removedEntry id], (remoteNode.map ResourceNode.children).getD [], 0⟩
  | none, none => ⟨[], [], 0⟩

def merkleDiffAgainstHashes (remoteHashes : List (ResourceId × Digest)) (remoteTree : Option (ResourceTree V)) :
    MerkleDiff V :=
  let localRoot := t.rootHash
  let remoteRoot := (remoteHashes.lookup .root).getD Digest.zero
  if localRoot = remoteRoot && (remoteHashes.lookup .root).isSome then ⟨localRoot, remoteRoot, [], 1⟩
  else
    let at_ := visit t remoteHashes remoteTree
    -- no path is pushed more often than it is listed as a child, so this is fuel for every pop
    let paths := t.nodes.map (·.1) ++ remoteHashes.map (·.1)
    let fuel := 2 + (paths.map fun id => (at_ id).pushed.length).sum
    let walked := walk at_ fuel [.root] [] [] 0
    let covered := (remoteHashes.map (·.1)).foldl (coverRemoved t) walked
    ⟨localRoot, remoteRoot, covered.1, covered.2⟩

def merkleDiff (other : ResourceTree V) : MerkleDiff V := merkleDiffAgainstHashes t (hashMap other) (some other)

end

end Weftos.Resource.Merkle
