import Mathlib.Data.Finset.Dedup
import Mathlib.Data.Finset.Filter
import Mathlib.Logic.Function.Basic
import Weftos.Lib.Outcome
import Weftos.Lib.Ranking
import Weftos.Lib.Run
import Weftos.Lib.Table

/-! Branchable memory (`clawft-cow-memory`): a lineage of vector stores, of which the newest is written and
the older ones are frozen. The stores are those of `rvf-runtime`, of which only what the crate's own comments
rely on is assumed. File operations succeed. -/

namespace Weftos.Memory.Lineage
open Lib Lib.Outcome Lib.Ranking

-- a component of a vector and a store stay abstract
variable {F S : Type}

/-! ### Vector stores -/

abbrev View (F : Type) := Nat → Option (List F)

def written (batch : List (Nat × List F)) (view : View F) : View F :=
  batch.foldl (fun view e => Function.update view e.1 (some e.2)) view

/-- The operations of an `RvfStore` that a lineage uses, and what it relies on. -/
class RvfStore (F : outParam Type) (S : Type) where
  create : S
  derive : S → S
  /-- A read-only handle on the file of a store. -/
  openReadonly : S → S
  ingestBatch : S → List (Nat × List F) → S
  delete : S → List Nat → S
  /-- What a query scans. -/
  live : S → List (Nat × List F)
  /-- The vectors held, deleted or not. -/
  held : S → View F
  /-- The deletion bitmap. -/
  deleted : S → Nat → Bool
  live_distinct : ∀ s, ((live s).map (·.1)).Nodup
  live_held : ∀ s id, (live s).lookup id = if deleted s id then none else held s id
  /-- A child has no vectors of its own. -/
  derive_empty : ∀ s id, held (derive s) id = none ∧ deleted (derive s) id = false
  openReadonly_same : ∀ s, held (openReadonly s) = held s ∧ deleted (openReadonly s) = deleted s
  /-- Overwrites by id, and never touches the bitmap. -/
  ingest_overwrites : ∀ s batch, held (ingestBatch s batch) = written batch (held s) ∧
    deleted (ingestBatch s batch) = deleted s
  /-- Hides the ids that are held, until a compaction; a no-op for others. -/
  delete_hides : ∀ s ids, held (delete s ids) = held s ∧
    ∀ id, deleted (delete s ids) id = (deleted s id || ids.contains id && (held s id).isSome)

/-! ### Nodes -/

abbrev CheckpointId := Nat

abbrev VectorTags := List (String × String)

structure MemoryNode (F S : Type) where
  id : CheckpointId
  label : Option String
  /-- Without the directory. -/
  fileName : String
  store : S
  editLog : List (Nat × List F)
  tombstones : List Nat
  texts : List (Nat × String)
  tags : List (Nat × VectorTags)

def MemoryNode.wrap (id : CheckpointId) (store : S) (fileName : String) (label : Option String) : MemoryNode F S :=
  ⟨id, label, fileName, store, [], [], [], []⟩

section
variable [RvfStore F S]

def baseFile (id : CheckpointId) : String := "node-" ++ toString id ++ ".base.rvf"

def workingFile (id : CheckpointId) : String := "node-" ++ toString id ++ ".working.rvf"

def MemoryNode.createRoot (id : CheckpointId) : MemoryNode F S :=
  .wrap id RvfStore.create (baseFile id) (some "base")

def MemoryNode.deriveFrom (id : CheckpointId) (parent : S) (fileName : String) (label : Option String) :
    MemoryNode F S := .wrap id (RvfStore.derive parent) fileName label

/-- The same file, read only; what was logged of it stays behind. -/
def MemoryNode.openReadonlySnapshot (n : MemoryNode F S) : MemoryNode F S :=
  { n with store := RvfStore.openReadonly n.store, editLog := [] }

end

structure BranchableMemory (F S : Type) where
  dimension : Nat
  /-- `none` while the lineage is parked. -/
  working : Option (MemoryNode F S)
  /-- Newest first. -/
  ancestors : List (MemoryNode F S)
  base : MemoryNode F S
  inherited : List (MemoryNode F S)

inductive CowMemoryError where
  /-- `RvfStore::open` or `open_readonly` of the file failed. -/
  | rvf (fileName : String)
  | io (text : String)
  | dimensionMismatch (expected got : Nat)
  | checkpointNotFound (id : CheckpointId)
  | invalidDimension
  | paused
  | manifestCorrupt (reason : String)
  deriving DecidableEq

/-- A lineage, and the process-wide counters behind `CheckpointId::alloc` and `next_vector_id`. -/
structure World (F S : Type) where
  nodeSeq : Nat
  vectorSeq : Nat
  mem : BranchableMemory F S

def chainPriorityOrder (m : BranchableMemory F S) : List (MemoryNode F S) :=
  m.working.toList ++ m.ancestors ++ m.base :: m.inherited

section
variable [RvfStore F S]

/-- A fresh working node over the newest checkpoint, or over the base. -/
def World.derive (w : World F S) (m : BranchableMemory F S) : World F S :=
  let working := .deriveFrom w.nodeSeq (m.ancestors.head?.getD m.base).store (workingFile w.nodeSeq) (some "working")
  { w with nodeSeq := w.nodeSeq + 1, mem := { m with working := some working } }

/-- `create` in a process whose counters stand at the given values. -/
def create (dimension nodeSeq vectorSeq : Nat) : Except CowMemoryError (World F S) := do
  ensure (dimension ≠ 0) .invalidDimension
  let parked : BranchableMemory F S := ⟨dimension, none, [], .createRoot nodeSeq, []⟩
  return World.derive ⟨nodeSeq + 1, vectorSeq, parked⟩ parked

end

/-! ### Writing -/

structure VectorItem (F : Type) where
  id : Option Nat
  vector : List F
  text : Option String
  tags : VectorTags

section
variable (normalize : List F → List F)

/-- Normalizes the vectors and gives an id to those that come without; the counter moves on
for each, also when a later vector is refused. -/
def assign (dimension : Nat) : List (VectorItem F) → Nat → Except CowMemoryError (List (Nat × List F)) × Nat
  | [], seq => (.ok [], seq)
  | item :: items, seq =>
    if item.vector.length ≠ dimension then (.error (.dimensionMismatch dimension item.vector.length), seq)
    else
      let rest := assign dimension items (if item.id.isNone then seq + 1 else seq)
      (rest.1.map ((item.id.getD seq, normalize item.vector) :: ·), rest.2)

/-- The bookkeeping of one ingested item; a fresh write un-hides its id. -/
def MemoryNode.note (n : MemoryNode F S) (entry : (Nat × List F) × VectorItem F) : MemoryNode F S :=
  let id := entry.1.1
  { n with
    editLog := Table.insert n.editLog id entry.1.2
    tombstones := n.tombstones.filter (· != id)
    texts := entry.2.text.elim n.texts (Table.insert n.texts id)
    tags := if entry.2.tags = [] then n.tags else Table.insert n.tags id entry.2.tags }

def MemoryNode.ingest [RvfStore F S] (n : MemoryNode F S) (batch : List (Nat × List F))
    (items : List (VectorItem F)) : MemoryNode F S :=
  (batch.zip items).foldl MemoryNode.note { n with store := RvfStore.ingestBatch n.store batch }

def ingest [RvfStore F S] (items : List (VectorItem F)) (w : World F S) :
    Except CowMemoryError (List Nat) × World F S :=
  if items.isEmpty then (.ok [], w)
  else
    match w.mem.working with
    | none => (.error .paused, w)
    | some working =>
      match assign normalize w.mem.dimension items w.vectorSeq with
      | (.error refusal, seq) => (.error refusal, { w with vectorSeq := seq })
      | (.ok batch, seq) =>
        (.ok (batch.map (·.1)),
          { w with vectorSeq := seq, mem := { w.mem with working := some (working.ingest batch items) } })

end

/-- Hides the ids by the node's own tombstones; the store is not touched. -/
def MemoryNode.delete (n : MemoryNode F S) (ids : List Nat) : MemoryNode F S :=
  { n with
    editLog := n.editLog.filter fun e => !ids.contains e.1
    tombstones := n.tombstones ∪ ids
    texts := n.texts.filter fun e => !ids.contains e.1
    tags := n.tags.filter fun e => !ids.contains e.1 }

def delete (ids : List Nat) (w : World F S) : Except CowMemoryError Unit × World F S :=
  if ids.isEmpty then (.ok (), w)
  else
    match w.mem.working with
    | none => (.error .paused, w)
    | some working => (.ok (), { w with mem := { w.mem with working := some (working.delete ids) } })

/-! ### Freezing, discarding and forking -/

section
variable [RvfStore F S]

def checkpoint (label : String) (w : World F S) : Except CowMemoryError CheckpointId × World F S :=
  match w.mem.working with
  | none => (.error .paused, w)
  | some working =>
    (.ok working.id, w.derive { w.mem with ancestors := { working with label := some label } :: w.mem.ancestors })

def pause (label : String) (w : World F S) : World F S :=
  match w.mem.working with
  | none => w
  | some working => { w with mem := { w.mem with
      working := none
      ancestors := { working with label := some label } :: w.mem.ancestors } }

def resume (w : World F S) : World F S :=
  match w.mem.working with
  | some _ => w
  | none => w.derive w.mem

omit [RvfStore F S] in
/-- Drops everything newer than the target, or every checkpoint for `none`. -/
def discardTo (target : Option CheckpointId) (ancestors : List (MemoryNode F S)) :
    Except CowMemoryError (List (MemoryNode F S)) :=
  match target with
  | none => .ok []
  | some id => do
    let idx ← require (ancestors.findIdx? (·.id == id)) (.checkpointNotFound id)
    return ancestors.drop idx

def rollback (target : Option CheckpointId) (w : World F S) : Except CowMemoryError Unit × World F S :=
  match w.mem.working with
  | none => (.error .paused, w)
  | some _ =>
    match discardTo target w.mem.ancestors with
    | .error refusal => (.error refusal, w)
    | .ok ancestors => (.ok (), w.derive { w.mem with ancestors := ancestors })

structure PromoteReport where
  ingested : Nat
  deleted : Nat

def copyOver {β : Type} (ids : List Nat) (source target : List (Nat × β)) : List (Nat × β) :=
  ids.foldl (fun target id => (source.lookup id).elim target (Table.insert target id)) target

/-- The edits of a node, and then its tombstones, into the base. -/
def replay (acc : MemoryNode F S × PromoteReport) (n : MemoryNode F S) : MemoryNode F S × PromoteReport :=
  let (base, report) := acc
  let ids := n.editLog.map (·.1)
  let ingested := if n.editLog.isEmpty then base.store else RvfStore.ingestBatch base.store n.editLog
  let store := if n.tombstones.isEmpty then ingested else RvfStore.delete ingested n.tombstones
  ({ base with
      store := store
      tombstones := base.tombstones ∪ n.tombstones
      texts := copyOver ids n.texts base.texts
      tags := copyOver ids n.tags base.tags },
    ⟨report.ingested + ids.length, report.deleted + n.tombstones.length⟩)

def promote (w : World F S) : Except CowMemoryError PromoteReport × World F S :=
  match w.mem.working with
  | none => (.error .paused, w)
  | some working =>
    let (base, report) := (w.mem.ancestors.reverse ++ [working]).foldl replay (w.mem.base, ⟨0, 0⟩)
    (.ok report, w.derive { w.mem with base := base, ancestors := [] })

/-- A new lineage that sees the given nodes, newest first, then the base and what `m` inherited. -/
def spawnIndependent (w : World F S) (source : List (MemoryNode F S)) : World F S :=
  let inherited := (source ++ w.mem.base :: w.mem.inherited).map MemoryNode.openReadonlySnapshot
  let head := (inherited.head?.map (·.store)).getD w.mem.base.store
  let base : MemoryNode F S := .deriveFrom w.nodeSeq head (baseFile w.nodeSeq) (some "base")
  World.derive { w with nodeSeq := w.nodeSeq + 1 } ⟨w.mem.dimension, none, [], base, inherited⟩

def branch (w : World F S) : Except CowMemoryError (World F S) :=
  match w.mem.working with
  | none => .error .paused
  | some working => .ok (spawnIndependent w (working :: w.mem.ancestors))

def fork (at_ : CheckpointId) (w : World F S) : Except CowMemoryError (World F S) := do
  let idx ← require (w.mem.ancestors.findIdx? (·.id == at_)) (.checkpointNotFound at_)
  return spawnIndependent w (w.mem.ancestors.drop idx)

end

/-! ### Reopening -/

inductive ManifestRole where
  | ancestor
  | base
  | inherited

structure ManifestNode where
  role : ManifestRole
  checkpointId : Nat
  label : Option String
  fileName : String
  tombstones : List Nat

def MANIFEST_SCHEMA_VERSION : Nat := 1

structure LineageManifest where
  schemaVersion : Nat
  dimension : Nat
  paused : Bool
  nextCheckpointId : Nat
  nextVectorId : Nat
  ancestors : List ManifestNode
  base : ManifestNode
  inherited : List ManifestNode

def manifestNodeFor (role : ManifestRole) (n : MemoryNode F S) : ManifestNode :=
  ⟨role, n.id, n.label, n.fileName, n.tombstones⟩

def buildManifest (w : World F S) : LineageManifest where
  schemaVersion := MANIFEST_SCHEMA_VERSION
  dimension := w.mem.dimension
  paused := w.mem.working.isNone
  nextCheckpointId := w.nodeSeq
  nextVectorId := w.vectorSeq
  ancestors := w.mem.ancestors.map (manifestNodeFor .ancestor)
  base := manifestNodeFor .base w.mem.base
  inherited := w.mem.inherited.map (manifestNodeFor .inherited)

/-- A directory as `open` reads it: the manifest, if there is one and whether or not it parses, and the
dimension and the store that opening a file gives. -/
structure Directory (S : Type) where
  path : String
  manifest : Option (Except String LineageManifest)
  files : List (String × Nat × S)

section
variable (dir : Directory S)

def readManifest : Except CowMemoryError (Option LineageManifest) :=
  match dir.manifest with
  | none => .ok none
  | some (.error e) => .error (.manifestCorrupt ("failed to parse manifest json: " ++ e))
  | some (.ok m) =>
    if m.schemaVersion = MANIFEST_SCHEMA_VERSION then .ok (some m)
    else .error (.manifestCorrupt ("unsupported manifest schema_version " ++ toString m.schemaVersion ++
      " (expected " ++ toString MANIFEST_SCHEMA_VERSION ++ ")"))

/-- The edit log, texts and tags are not restored. -/
def reopenNode (id : CheckpointId) (n : ManifestNode) : Except CowMemoryError (MemoryNode F S) := do
  let (_, store) ← require (dir.files.lookup n.fileName) (.rvf n.fileName)
  return { MemoryNode.wrap id store n.fileName n.label with tombstones := n.tombstones }

def reopenAll : CheckpointId → List ManifestNode → Except CowMemoryError (List (MemoryNode F S))
  | _, [] => .ok []
  | id, n :: rest => do
    let first ← reopenNode dir id n
    let others ← reopenAll (id + 1) rest
    return first :: others

variable [RvfStore F S]

/-- `open_with_manifest` once the manifest is read. -/
def restore (nodeSeq vectorSeq : Nat) (m : LineageManifest) : Except CowMemoryError (World F S) := do
  let first := max nodeSeq m.nextCheckpointId
  let base ← reopenNode dir first m.base
  let ancestors ← reopenAll dir (first + 1) m.ancestors
  let inherited ← reopenAll dir (first + 1 + ancestors.length) m.inherited
  let parked : World F S := ⟨first + 1 + ancestors.length + inherited.length, max vectorSeq m.nextVectorId,
    ⟨m.dimension, none, ancestors, base, inherited⟩⟩
  return if m.paused then parked else parked.derive parked.mem

omit [RvfStore F S] in
def findBaseFile : Except CowMemoryError String :=
  require (sortBy compare ((dir.files.map (·.1)).filter (·.endsWith ".base.rvf"))).head?
    (.io ("no *.base.rvf file found in " ++ dir.path))

/-- `open` in a process whose counters stand at the given values: from the manifest, or without one from the
base file alone. -/
def open_ (nodeSeq vectorSeq : Nat) : Except CowMemoryError (World F S) := do
  match ← readManifest dir with
  | some m => restore dir nodeSeq vectorSeq m
  | none =>
    let name ← findBaseFile dir
    let (dimension, store) ← require (dir.files.lookup name) (.rvf name)
    let parked : BranchableMemory F S := ⟨dimension, none, [], .wrap nodeSeq store name (some "base"), []⟩
    return World.derive ⟨nodeSeq + 1, vectorSeq, parked⟩ parked

end

/-! ### Reading -/

section
variable [RvfStore F S]

/-- What the lineage takes from `RvfStore::query` and the vector arithmetic: a query returns the exact
nearest of the vectors it scans. -/
structure Index (F S δ : Type) [RvfStore F S] [LinearOrder δ] where
  normalize : List F → List F
  distance : List F → List F → δ
  query : S → List F → Nat → List (Nat × δ)
  exact : ∀ store vector k,
    Nearest k ((RvfStore.live store).map fun e => (e.1, distance vector e.2)) (query store vector k)

def OVERSCAN_FACTOR : Nat := 4

def USIZE_MAX : Nat := 2 ^ 64 - 1

/-- How many results each node is asked for: four times as many as wanted, with saturation. -/
def overscan (k : Nat) : Nat := max (max (min (k * OVERSCAN_FACTOR) USIZE_MAX) k) 1

section
variable {δ : Type}

structure Walk (δ : Type) where
  masked : List Nat
  seen : List Nat
  merged : List (Nat × δ)

omit [RvfStore F S] in
def Walk.take (n : MemoryNode F S) (walk : Walk δ) (r : Nat × δ) : Walk δ :=
  if walk.masked.contains r.1 || n.tombstones.contains r.1 || walk.seen.contains r.1 then walk
  else { walk with seen := walk.seen.insert r.1, merged := walk.merged ++ [r] }

variable [LinearOrder δ] (index : Index F S δ)

/-- The node's results, and then its tombstones over everything older. -/
def Walk.visit (vector : List F) (overscan : Nat) (walk : Walk δ) (n : MemoryNode F S) : Walk δ :=
  let walk := (index.query n.store vector overscan).foldl (Walk.take n) walk
  { walk with masked := walk.masked ∪ n.tombstones }

def queryChain (chain : List (MemoryNode F S)) (vector : List F) (k : Nat) : List (Nat × δ) :=
  let walk := chain.foldl (Walk.visit index vector (overscan k)) ⟨[], [], []⟩
  (sortBy byDistance walk.merged).take k

def query (vector : List F) (k : Nat) (m : BranchableMemory F S) : Except CowMemoryError (List (Nat × δ)) :=
  if vector.length ≠ m.dimension then .error (.dimensionMismatch m.dimension vector.length)
  else if k = 0 then .ok []
  else .ok (queryChain index (chainPriorityOrder m) (index.normalize vector) k)

end

/-! ### What is visible -/

/-- What a node says of an id: that it is gone, or its vector. -/
def MemoryNode.tells (id : Nat) (n : MemoryNode F S) : Option (Option (List F)) :=
  if n.tombstones.contains id then some none else ((RvfStore.live n.store).lookup id).map some

/-- The newest node that contains or tombstones the id decides. -/
def visibleIn (chain : List (MemoryNode F S)) : View F := fun id =>
  (chain.findSome? (MemoryNode.tells id)).join

def visible (m : BranchableMemory F S) : View F := visibleIn (chainPriorityOrder m)

def visibleIds (chain : List (MemoryNode F S)) : Finset Nat :=
  ((chain.flatMap fun n => (RvfStore.live n.store).map (·.1)).toFinset).filter fun id => (visibleIn chain id).isSome

/-! ### Lineages over time -/

/-- Calls on one lineage, and ids that other lineages of the process take meanwhile. -/
inductive Act (F : Type) where
  | ingest (items : List (VectorItem F))
  | delete (ids : List Nat)
  | checkpoint (label : String)
  | pause (label : String)
  | resume
  | rollback (target : Option CheckpointId)
  | promote
  | branch
  | fork (at_ : CheckpointId)
  | elsewhere (nodes vectors : Nat)

omit [RvfStore F S] in
/-- The ids a new lineage took are gone for the one it comes from. -/
def World.spawned (w : World F S) (child : Except CowMemoryError (World F S)) : World F S :=
  match child with
  | .error _ => w
  | .ok child => { w with nodeSeq := child.nodeSeq }

def step (normalize : List F → List F) (w : World F S) : Act F → World F S
  | .ingest items => (ingest normalize items w).2
  | .delete ids => (delete ids w).2
  | .checkpoint label => (checkpoint label w).2
  | .pause label => pause label w
  | .resume => resume w
  | .rollback target => (rollback target w).2
  | .promote => (promote w).2
  | .branch => w.spawned (branch w)
  | .fork at_ => w.spawned (fork at_ w)
  | .elsewhere nodes vectors => { w with nodeSeq := w.nodeSeq + nodes, vectorSeq := w.vectorSeq + vectors }

inductive Reachable (normalize : List F → List F) : World F S → Prop where
  | create (made : create dimension nodeSeq vectorSeq = .ok w) :
      Reachable normalize w
  | step (act : Act F) (before : Reachable normalize w) : Reachable normalize (step normalize w act)
  | branch (before : Reachable normalize w) (made : branch w = .ok child) :
      Reachable normalize child
  | fork (at_ : CheckpointId) (before : Reachable normalize w) (made : fork at_ w = .ok child) :
      Reachable normalize child
  /-- Whatever the directory holds. -/
  | open_ (dir : Directory S) (made : open_ dir nodeSeq vectorSeq = .ok w) : Reachable normalize w

theorem Reachable.run {normalize : List F → List F} {w : World F S} (reached : Reachable normalize w)
    (acts : List (Act F)) : Reachable normalize (Run.run (Lineage.step normalize) w acts) :=
  Run.run_always (fun _ act before => .step act before) acts reached

/-- A lineage as it is made or reopened, before it gets a working node. -/
structure Parked (w : World F S) : Prop where
  working : w.mem.working = none
  distinct : (w.mem.ancestors.map (·.id)).Nodup
  reopened : ∀ n ∈ w.mem.ancestors, n.id < w.nodeSeq ∧ n.editLog = []

omit [RvfStore F S] in
theorem reopenAll_ok {dir : Directory S} {id : CheckpointId} {placed : List (MemoryNode F S)}
    (read : reopenAll dir id nodes = .ok placed) :
    placed.map (·.id) = List.range' id placed.length ∧ ∀ n ∈ placed, n.editLog = [] := by
  induction nodes generalizing id placed with
  | nil =>
    obtain rfl := Except.ok.inj read
    exact ⟨rfl, by simp⟩
  | cons n nodes ih =>
    simp only [reopenAll, reopenNode, bind_ok_iff, pure_ok_iff] at read
    obtain ⟨first, ⟨_, -, rfl⟩, others, rest, rfl⟩ := read
    obtain ⟨ids, logs⟩ := ih rest
    refine ⟨?_, List.forall_mem_cons.mpr ⟨rfl, logs⟩⟩
    rw [List.map_cons, ids]
    rfl

theorem restore_parked {dir : Directory S} {w : World F S} (made : restore dir nodeSeq vectorSeq m = .ok w) :
    ∃ parked, Parked parked ∧ (w = parked ∨ w = parked.derive parked.mem) := by
  simp only [restore, bind_ok_iff, pure_ok_iff] at made
  obtain ⟨base, -, ancestors, read, inherited, -, rfl⟩ := made
  obtain ⟨ids, logs⟩ := reopenAll_ok read
  refine ⟨⟨max nodeSeq m.nextCheckpointId + 1 + ancestors.length + inherited.length, max vectorSeq m.nextVectorId,
    ⟨m.dimension, none, ancestors, base, inherited⟩⟩, ⟨rfl, ?_, fun n listed => ⟨?_, logs n listed⟩⟩, ?_⟩
  · change (ancestors.map (·.id)).Nodup
    rw [ids]
    exact List.nodup_range'
  · have among := List.mem_map_of_mem (f := fun n : MemoryNode F S => n.id) listed
    rw [ids] at among
    exact (List.mem_range'_1.mp among).2.trans_le (Nat.le_add_right _ _)
  · split
    · exact .inl rfl
    · exact .inr rfl

/-- What holds of every parked lineage and is kept by every call holds of all that come about. -/
theorem Reachable.keeps {normalize : List F → List F} {P : World F S → Prop} (parked : ∀ w, Parked w → P w)
    (keeps : ∀ w act, P w → P (Lineage.step normalize w act)) {w : World F S} (reached : Reachable normalize w) :
    P w := by
  have derived {w : World F S} (start : Parked w) : P (w.derive w.mem) := by
    have resumed : Lineage.step normalize w .resume = w.derive w.mem := by rw [Lineage.step, resume, start.working]
    exact resumed ▸ keeps w .resume (parked w start)
  have alone (w : World F S) {m : BranchableMemory F S} (none_ : m.working = none) (empty : m.ancestors = []) :
      P (w.derive m) :=
    @derived { w with mem := m } ⟨none_, by simp [empty], by simp [empty]⟩
  induction reached with
  | create made =>
    obtain ⟨-, -, same⟩ := bind_ok_iff.mp made
    obtain rfl := pure_ok_iff.mp same
    exact alone _ rfl rfl
  | step act before ih => exact keeps _ act ih
  | branch before made ih =>
    unfold Lineage.branch at made
    split at made
    · cases made
    · obtain rfl := Except.ok.inj made
      exact alone _ rfl rfl
  | fork at_ before made ih =>
    obtain ⟨idx, -, same⟩ := bind_ok_iff.mp made
    obtain rfl := pure_ok_iff.mp same
    exact alone _ rfl rfl
  | open_ dir made =>
    simp only [Lineage.open_, bind_ok_iff] at made
    obtain ⟨found, -, made⟩ := made
    cases found with
    | some manifest =>
      obtain ⟨start, stands, rfl | rfl⟩ := restore_parked made
      · exact parked _ stands
      · exact derived stands
    | none =>
      simp only [bind_ok_iff, pure_ok_iff] at made
      obtain ⟨name, -, ⟨dimension, store⟩, -, rfl⟩ := made
      exact alone _ rfl rfl

end

/-! ### A store for samples -/

structure ListStore (F : Type) where
  vectors : List (Nat × List F)
  hidden : List Nat
  distinct : (vectors.map (·.1)).Nodup

namespace ListStore

def put (s : ListStore F) (e : Nat × List F) : ListStore F :=
  { s with
    vectors := Table.insert s.vectors e.1 e.2
    distinct := Table.nodup_insert s.distinct e.1 e.2 }

def held (s : ListStore F) : View F := fun id => s.vectors.lookup id

theorem held_put (s : ListStore F) (batch : List (Nat × List F)) :
    (batch.foldl put s).held = written batch s.held ∧ (batch.foldl put s).hidden = s.hidden := by
  induction batch generalizing s with
  | nil => exact ⟨rfl, rfl⟩
  | cons e batch ih =>
    have first : (s.put e).held = Function.update s.held e.1 (some e.2) := by
      funext id
      by_cases same : id = e.1
      · rw [same, held, put, Table.lookup_insert_self, Function.update_self]
      · rw [held, put, Table.lookup_insert_other _ _ same, Function.update_of_ne same, held]
    obtain ⟨held, hidden⟩ := ih (s.put e)
    exact ⟨held.trans (congrArg (written batch) first), hidden⟩

instance : RvfStore F (ListStore F) where
  create := ⟨[], [], List.nodup_nil⟩
  derive _ := ⟨[], [], List.nodup_nil⟩
  openReadonly s := s
  ingestBatch s batch := batch.foldl put s
  delete s ids := { s with hidden := s.hidden ∪ ids.filter fun id => (s.held id).isSome }
  live s := s.vectors.filter fun e => !s.hidden.contains e.1
  held := held
  deleted s id := s.hidden.contains id
  live_distinct s := Table.nodup_filter s.distinct _
  live_held s id := by
    rw [Table.lookup_filter_keys s.vectors (fun id => !s.hidden.contains id) id]
    by_cases hidden : id ∈ s.hidden <;> simp [hidden, held]
  derive_empty _ _ := ⟨rfl, rfl⟩
  openReadonly_same _ := ⟨rfl, rfl⟩
  ingest_overwrites s batch := by
    obtain ⟨held, hidden⟩ := held_put s batch
    exact ⟨held, by rw [hidden]⟩
  delete_hides s ids := by
    refine ⟨rfl, fun id => ?_⟩
    apply Bool.eq_iff_iff.mpr
    simp [held]

end ListStore

def madeWorld (dimension : Nat) : World Int (ListStore Int) :=
  let parked : BranchableMemory Int (ListStore Int) := ⟨dimension, none, [], .createRoot 1, []⟩
  World.derive ⟨2, 1, parked⟩ parked

theorem madeWorld_reached (normalize : List Int → List Int) (positive : dimension ≠ 0) :
    Reachable normalize (madeWorld dimension) := by
  have made : create dimension 1 1 = .ok (madeWorld dimension) := by
    simp only [create, bind_ok_iff, ensure_ok_iff, pure_ok_iff]
    exact ⟨(), positive, rfl⟩
  exact .create made

end Weftos.Memory.Lineage
