import Weftos.Lib.Bytes
import Weftos.Lib.Ranking
import Weftos.Lib.Run
import Weftos.Lib.Table

/-! The peers a node knows of, and those of them it takes to be the closest to a key. -/

namespace Weftos.Mesh.Kademlia
open List Lib Lib.Bytes Lib.Ranking Lib.Run

def K_BUCKET_SIZE : Nat := 20

abbrev DhtKey := Digest

/-- The bytes' values: distances compare as the arrays do, by the first byte that differs. -/
def xorDistance (a b : DhtKey) : List Nat := zipWith (fun x y => (x ^^^ y).toNat) a.val b.val

/-- `leading_zeros` of a distance, from byte `i` on. -/
def leadingZeros (i : Nat) : List Nat → Nat
  | [] => 256
  | byte :: rest => if byte ≠ 0 then i * 8 + (7 - byte.log2) else leadingZeros (i + 1) rest

def bucketIndex (distance : List Nat) : Nat :=
  let lz := leadingZeros 0 distance
  if lz ≥ 256 then 0 else 255 - lz

structure DhtEntry where
  nodeId : String
  address : String

structure KademliaTable where
  localKey : DhtKey
  buckets : Nat → List DhtEntry := fun _ => []
  records : List (String × DhtEntry) := []

inductive Act where
  | addPeer (peerKey : DhtKey) (entry : DhtEntry)
  | put (key : String) (entry : DhtEntry)

def KademliaTable.step (t : KademliaTable) : Act → KademliaTable
  | .addPeer peerKey entry =>
    let idx := bucketIndex (xorDistance t.localKey peerKey)
    let bucket := t.buckets idx
    let existing := bucket.findIdx (·.nodeId == entry.nodeId)
    -- a full bucket takes no new peer, the records do
    let bucket := if existing < bucket.length then bucket.set existing entry
      else if bucket.length < K_BUCKET_SIZE then bucket ++ [entry] else bucket
    { t with
      buckets := Function.update t.buckets idx bucket
      records := Table.insert t.records entry.nodeId entry }
  | .put key entry => { t with records := Table.insert t.records key entry }

/-- What `find_closest` takes a peer's key to be: the first 32 bytes of its id, filled up with zeros. -/
def idKey (nodeId : String) : DhtKey := ⟨(utf8 nodeId ++ replicate 32 0).take 32, by simp⟩

/-- `values` are the records, in whatever order the map lists them. -/
def findClosest (values : List DhtEntry) (target : DhtKey) (k : Nat) : List DhtEntry :=
  ((sortBy byDistance (values.map fun e => (e, xorDistance target (idKey e.nodeId)))).take k).map Prod.fst

def added : List Act → List (String × DhtKey) :=
  run (fun peers act => match act with
    | .addPeer peerKey entry => Table.insert peers entry.nodeId peerKey
    | .put _ _ => peers) []

/-- The records are the peers, and their keys those read off their ids. -/
def Known (records : List (String × DhtEntry)) (peers : List (String × DhtKey)) : Prop :=
  records.map (fun r => (r.2.nodeId, idKey r.2.nodeId)) = peers ∧ ∀ r ∈ records, r.2.nodeId = r.1

theorem Known.insert (known : Known records peers) (entry : DhtEntry) :
    Known (Table.insert records entry.nodeId entry) (Table.insert peers entry.nodeId (idKey entry.nodeId)) := by
  obtain ⟨rfl, named⟩ := known
  constructor
  · simp only [Table.insert, Table.remove, map_append, filter_map, map_cons, map_nil]
    congr 2
    exact filter_congr fun r listed => by simp [named r listed]
  · intro r listed
    obtain listed | listed := mem_append.mp listed
    · exact named r (mem_filter.mp listed).1
    · rw [mem_singleton.mp listed]

theorem known_run (localKey : DhtKey) (own : ∀ act ∈ acts, ∃ entry, act = .addPeer (idKey entry.nodeId) entry) :
    Known (run KademliaTable.step { localKey } acts).records (added acts) ∧ ((added acts).map (·.1)).Nodup := by
  induction acts using reverseRecOn with
  | nil => exact ⟨⟨rfl, by simp⟩, nodup_nil⟩
  | append_singleton acts act ih =>
    obtain ⟨entry, rfl⟩ := own act (by simp)
    obtain ⟨known, distinct⟩ := ih fun act listed => own act (mem_append_left _ listed)
    simp only [added, run_append] at known distinct ⊢
    exact ⟨known.insert entry, Table.nodup_insert distinct _ _⟩

/-- Among peers that are added under the keys read off their ids, with no records put beside them,
`find_closest` finds the closest, in order of distance. -/
theorem findClosest_nearest (localKey : DhtKey) (acts : List Act)
    (own : ∀ act ∈ acts, ∃ entry, act = .addPeer (idKey entry.nodeId) entry) (values : List DhtEntry)
    (listing : values.Perm ((run KademliaTable.step { localKey } acts).records.map (·.2))) (target : DhtKey) (k : Nat) :
    ∃ picked, (findClosest values target k).map (·.nodeId) = picked.map (·.1) ∧ (picked.map (·.1)).Nodup ∧
      Nearest k ((added acts).map fun p => (p.1, xorDistance target p.2)) picked ∧ picked.Pairwise (·.2 ≤ ·.2) := by
  obtain ⟨⟨same, -⟩, distinct⟩ := known_run localKey own
  set measured := values.map fun e => (e, xorDistance target (idKey e.nodeId))
  set ranked := measured.map fun c => (c.1.nodeId, c.2)
  have peers : ranked.Perm ((added acts).map fun p => (p.1, xorDistance target p.2)) := by
    have mapped := listing.map fun e => (e.nodeId, xorDistance target (idKey e.nodeId))
    rw [map_map] at mapped
    rwa [← same, map_map, show ranked = _ from map_map ..]
  have perm : (sortBy byDistance ranked).Perm ranked := sortBy_perm _ ranked
  have sorted : (sortBy byDistance ranked).Pairwise fun a b => (byDistance a b).isLE = true := sortBy_sorted ranked
  have nearest := nearest_sorted k ranked
  refine ⟨(sortBy byDistance ranked).take k, ?_, ?_, ⟨?_, ?_, ?_⟩, ?_⟩
  · -- the sort only looks at the distances, so it may as well sort the ids
    have ids : (sortBy byDistance measured).map (fun c => (c.1.nodeId, c.2)) = sortBy byDistance ranked :=
      sortBy_map _ (by intros; rfl) _
    rw [← ids, ← map_take, map_map, findClosest, map_map]
    rfl
  · refine ((take_sublist k _).map _).nodup (((perm.trans peers).map _).nodup_iff.mpr ?_)
    rwa [map_map]
  · exact nearest.among.trans peers.subperm
  · rw [nearest.length, peers.length_eq]
  · exact fun c listed => nearest.closest c (peers.mem_iff.mpr listed)
  · exact (sorted.sublist (take_sublist k _)).imp byDistance_isLE.mp

def peer (id : String) : DhtEntry := ⟨id, ""⟩

theorem findClosest_nearest_two :
    ∃ picked, (findClosest [peer "a", peer "b"] (idKey "b") 1).map (·.nodeId) = picked.map (·.1) ∧
      (picked.map (·.1)).Nodup ∧
      Nearest 1 [("a", xorDistance (idKey "b") (idKey "a")), ("b", xorDistance (idKey "b") (idKey "b"))] picked ∧
      picked.Pairwise (·.2 ≤ ·.2) :=
  findClosest_nearest .zero [.addPeer (idKey "a") (peer "a"), .addPeer (idKey "b") (peer "b")] (by simp [peer])
    [peer "a", peer "b"] (.refl _) (idKey "b") 1

/-- By the keys they were added with, the peer left out is the closer one. -/
theorem other_closer :
    let far : DhtKey := ⟨replicate 32 255, rfl⟩
    let acts := [.addPeer .zero (peer "b"), .addPeer far (peer "a")]
    (run KademliaTable.step { localKey := .zero } acts).records.map (·.2) = [peer "b", peer "a"] ∧
    added acts = [("b", .zero), ("a", far)] ∧ (findClosest [peer "b", peer "a"] .zero 1).map (·.nodeId) = ["a"] ∧
    xorDistance .zero .zero < xorDistance .zero far :=
  ⟨rfl, rfl, by decide +kernel, by decide +kernel⟩

end Weftos.Mesh.Kademlia
