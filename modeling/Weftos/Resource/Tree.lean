import Weftos.Lib.Bytes
import Weftos.Lib.Outcome
import Weftos.Lib.Table
import Weftos.Resource.Path

/-! The resource tree (`exo-resource-tree/src/tree.rs`, `model.rs`, `scoring.rs`): a flat map from
paths to nodes with links both ways, and the Merkle hashes over it. -/

namespace Weftos.Resource.Tree
open Lib Lib.Bytes Lib.Outcome Lib.Text Resource.Path

/-! ### Scoring vectors -/

structure F32 where
  bits : UInt32
  deriving DecidableEq

def F32.isNan (v : F32) : Bool := v.bits &&& 0x7f800000 = 0x7f800000 && v.bits &&& 0x007fffff ≠ 0

/-- `==` on floats: no value equals a NaN, and the two zeros are equal. -/
def F32.eq (a b : F32) : Bool :=
  !a.isNan && !b.isNan && (a.bits = b.bits || (a.bits &&& 0x7fffffff = 0 && b.bits &&& 0x7fffffff = 0))

structure NodeScoring where
  trust : F32
  performance : F32
  difficulty : F32
  reward : F32
  reliability : F32
  velocity : F32
  deriving DecidableEq

namespace NodeScoring

def default : NodeScoring :=
  ⟨⟨0x3f000000⟩, ⟨0x3f000000⟩, ⟨0x3f000000⟩, ⟨0x3f000000⟩, ⟨0x3f000000⟩, ⟨0x3f000000⟩⟩

def asArray (s : NodeScoring) : List F32 := [s.trust, s.performance, s.difficulty, s.reward, s.reliability, s.velocity]

/-- `as_array() == as_array()`. -/
def eqArray (a b : NodeScoring) : Bool := (a.asArray.zip b.asArray).all fun pair => pair.1.eq pair.2

def toHashBytes (s : NodeScoring) : Octets :=
  s.asArray.flatMap fun v => leBytes 4 (if v.isNan then 0 else v.bits.toNat)

theorem toHashBytes_length (s : NodeScoring) : s.toHashBytes.length = 24 := by
  simp [toHashBytes, asArray, leBytes_length]

end NodeScoring

/-! ### Nodes -/

structure ResourceNode (V : Type) where
  id : ResourceId
  kind : ResourceKind
  parent : Option ResourceId
  children : List ResourceId
  metadata : List (String × V)
  merkleHash : Digest
  scoring : NodeScoring
  dirty : Bool

def ResourceNode.new {V : Type} (id : ResourceId) (kind : ResourceKind) (parent : Option ResourceId) :
    ResourceNode V where
  id := id
  kind := kind
  parent := parent
  children := []
  metadata := []
  merkleHash := Digest.zero
  scoring := .default
  dirty := true

inductive TreeError where
  | notFound (id : ResourceId)
  | alreadyExists (id : ResourceId)
  | parentNotFound (parentId : ResourceId)
  | notEmpty (id : ResourceId) (childCount : Nat)
  | invalidPath (reason : String)

def TreeError.message : TreeError → String
  | .notFound id => s!"resource not found: {id.path}"
  | .alreadyExists id => s!"resource already exists: {id.path}"
  | .parentNotFound parentId => s!"parent not found: {parentId.path}"
  | .notEmpty id childCount => s!"cannot remove non-empty node: {id.path} has {childCount} children"
  | .invalidPath reason => s!"invalid path: {reason}"

structure ResourceTree (V : Type) where
  nodes : List (ResourceId × ResourceNode V)

/-- What the tree takes from outside: SHAKE-256 with a 32-byte output, the text of a metadata
value, and the reward-weighted mean of `NodeScoring::aggregate`. -/
structure Outside (V : Type) where
  shake256 : Octets → Digest
  text : V → String
  aggregate : List NodeScoring → NodeScoring

variable {V : Type}

namespace ResourceTree

def new : ResourceTree V := ⟨[(.root, .new .root .namespace_ none)]⟩

def get (t : ResourceTree V) (id : ResourceId) : Option (ResourceNode V) := t.nodes.lookup id

def modify (t : ResourceTree V) (id : ResourceId) (change : ResourceNode V → ResourceNode V) : ResourceTree V :=
  ⟨Table.modify t.nodes id change⟩

def insert (t : ResourceTree V) (id : ResourceId) (kind : ResourceKind) (parentId : ResourceId) :
    Except TreeError (ResourceTree V) := do
  ensure (startsWith id.path "/" = true) (.invalidPath s!"path must start with '/': {id.path}")
  ensure ((t.get id).isNone = true) (.alreadyExists id)
  ensure ((t.get parentId).isSome = true) (.parentNotFound parentId)
  let added : ResourceTree V := ⟨Table.insert t.nodes id (.new id kind (some parentId))⟩
  pure (added.modify parentId fun parent => { parent with children := parent.children ++ [id] })

def remove (t : ResourceTree V) (id : ResourceId) : Except TreeError (ResourceNode V × ResourceTree V) := do
  ensure (id.isRoot = false) (.invalidPath "cannot remove root node")
  let node ← require (t.get id) (.notFound id)
  ensure (node.children.length = 0) (.notEmpty id node.children.length)
  let rest : ResourceTree V := ⟨Table.remove t.nodes id⟩
  match node.parent with
  | some parentId =>
    pure (node, rest.modify parentId fun parent => { parent with children := parent.children.filter (· ≠ id) })
  | none => pure (node, rest)

def parentOf (t : ResourceTree V) (id : ResourceId) : Option ResourceId := (t.get id).bind ResourceNode.parent

/-- The loop of `ancestors`. A tree has no more ancestors on a path than it has nodes. -/
def climb (t : ResourceTree V) : Nat → Option ResourceId → List ResourceId
  | fuel + 1, some pid => pid :: t.climb fuel (t.parentOf pid)
  | _, _ => []

def ancestors (t : ResourceTree V) (id : ResourceId) : List ResourceId := t.climb t.nodes.length (t.parentOf id)

/-! ### Hashes -/

def bytesLe : Octets → Octets → Bool
  | [], _ => true
  | _ :: _, [] => false
  | a :: rest, b :: rest' => a.toNat < b.toNat || (a = b && bytesLe rest rest')

def childHashes (t : ResourceTree V) (node : ResourceNode V) : List Digest :=
  (node.children.filterMap fun cid => (t.get cid).map ResourceNode.merkleHash).insertionSort
    fun a b => bytesLe a.val b.val = true

def metaBytes (o : Outside V) (metadata : List (String × V)) : Octets :=
  (metadata.insertionSort fun a b => a.1 ≤ b.1).flatMap fun entry => utf8 entry.1 ++ utf8 (o.text entry.2)

def partsBytes (childHashes : List Digest) (scoring meta_ : Octets) : Octets :=
  childHashes.flatMap Subtype.val ++ scoring ++ meta_

def hashInput (o : Outside V) (t : ResourceTree V) (node : ResourceNode V) : Octets :=
  partsBytes (t.childHashes node) node.scoring.toHashBytes (metaBytes o node.metadata)

section
variable (o : Outside V)

def recomputeMerkle (t : ResourceTree V) (id : ResourceId) : ResourceTree V :=
  match t.get id with
  | some node => t.modify id fun n => { n with merkleHash := o.shake256 (hashInput o t node) }
  | none => t

/-- Whether the climb of `mark_dirty` may stop at a node that was dirty. -/
def parentDirty (t : ResourceTree V) : Option ResourceId → Bool
  | some pid => ((t.get pid).map ResourceNode.dirty).getD false
  | none => true

def markDirtyFrom : Nat → Option ResourceId → ResourceTree V → ResourceTree V
  | fuel + 1, some cid, t =>
    match t.get cid with
    | some node =>
      let marked := t.modify cid fun n => { n with dirty := true }
      if node.dirty && marked.parentDirty node.parent then marked else markDirtyFrom fuel node.parent marked
    | none => t
  | _, _, t => t

variable (t : ResourceTree V)

def markDirty (id : ResourceId) : ResourceTree V := markDirtyFrom (t.nodes.length + 1) (some id) t

def childScorings (node : ResourceNode V) : List NodeScoring :=
  node.children.filterMap fun cid => (t.get cid).map ResourceNode.scoring

section
variable (id : ResourceId)

def aggregateScoringFor : ResourceTree V :=
  match t.get id with
  | some node =>
    if t.childScorings node = [] then t
    else t.modify id fun n => { n with scoring := o.aggregate (t.childScorings node) }
  | none => t

def clean : ResourceTree V := t.modify id fun n => { n with dirty := false }

/-- What the recomputations do at one node: aggregate, hash, clear the flag. -/
def settle : ResourceTree V :=
  ((t.aggregateScoringFor o id).recomputeMerkle o id).clean id

def recomputePathInner (aggregateOrigin : Bool) : ResourceTree V × Nat :=
  if (t.get id).isNone then (t, 0)
  else
    let marked := t.markDirty id
    let scored := if aggregateOrigin then marked.aggregateScoringFor o id else marked
    let origin := (scored.recomputeMerkle o id).clean id
    let above := origin.ancestors id
    (above.foldl (settle o) origin, 1 + above.length)

def recomputePath : ResourceTree V := (t.recomputePathInner o id true).1

def recomputePathPreserveScoring : ResourceTree V :=
  (t.recomputePathInner o id false).1

end

def deepestFirst : List ResourceId :=
  ((t.nodes.map fun entry => (entry.1, (t.ancestors entry.1).length)).insertionSort fun a b => b.2 ≤ a.2).map (·.1)

def recomputeAll : ResourceTree V := t.deepestFirst.foldl (settle o) t

def updateScoring (id : ResourceId) (scoring : NodeScoring) : ResourceTree V :=
  match t.get id with
  | some _ => (t.modify id fun n => { n with scoring }).recomputePathPreserveScoring o id
  | none => t

end

def rootHash (t : ResourceTree V) : Digest := ((t.get .root).map ResourceNode.merkleHash).getD Digest.zero

end ResourceTree

end Weftos.Resource.Tree
