import Weftos.Memory.Promote

/-! A lineage as one map with saved versions: it is written in place, saved under an id, put back and
copied, however its vectors are spread over the nodes. -/

namespace Weftos.Memory.Versions
open Lib Lib.Outcome Lib.Run Lineage Rollback Query Promote List

variable {F S : Type}

/-- The map in use, the saved ones, newest first, and the one they are built on. -/
structure Versioned (F : Type) where
  dimension : Nat
  nodeSeq : Nat
  vectorSeq : Nat
  /-- What the next save is called; `none` while parked. -/
  working : Option CheckpointId
  current : View F
  saved : List (CheckpointId × View F)
  ground : View F

namespace Versioned

variable (v : Versioned F)

@[simp] def begin : Versioned F := { v with nodeSeq := v.nodeSeq + 1, working := some v.nodeSeq }

@[simp] def save (id : CheckpointId) : Versioned F := { v with saved := (id, v.current) :: v.saved }

@[simp] def putBack : Option CheckpointId → Versioned F
  | none => { v with current := v.ground, saved := [] }.begin
  | some id =>
    match v.saved.dropWhile (·.1 != id) with
    | [] => v
    | last :: older => { v with current := last.2, saved := last :: older }.begin

/-- A new map that starts out as `view`. -/
def spawn (view : View F) : Versioned F :=
  ⟨v.dimension, v.nodeSeq + 2, v.vectorSeq, some (v.nodeSeq + 1), view, [], view⟩

end Versioned

@[simp] def Versioned.step (normalize : List F → List F) (v : Versioned F) : Lineage.Act F → Versioned F
  | .ingest items =>
    if items.isEmpty || v.working.isNone then v
    else
      match assign normalize v.dimension items v.vectorSeq with
      | (.error _, seq) => { v with vectorSeq := seq }
      | (.ok batch, seq) => { v with vectorSeq := seq, current := written batch v.current }
  | .delete ids =>
    if v.working.isNone then v else { v with current := fun id => if id ∈ ids then none else v.current id }
  | .checkpoint _ => v.working.elim v fun id => (v.save id).begin
  | .pause _ => v.working.elim v fun id => { v.save id with working := none }
  | .resume => if v.working.isNone then v.begin else v
  | .rollback target => if v.working.isNone then v else v.putBack target
  | .promote => if v.working.isNone then v else { v with saved := [], ground := v.current }.begin
  | .branch => if v.working.isNone then v else { v with nodeSeq := v.nodeSeq + 2 }
  | .fork at_ => if (v.saved.lookup at_).isNone then v else { v with nodeSeq := v.nodeSeq + 2 }
  | .elsewhere nodes vectors => { v with nodeSeq := v.nodeSeq + nodes, vectorSeq := v.vectorSeq + vectors }

/-! ### The map a lineage shows -/

variable [RvfStore F S]

/-- The view each checkpoint gives with what is behind it. -/
@[simp] def savedIn (below : List (MemoryNode F S)) : List (MemoryNode F S) → List (CheckpointId × View F)
  | [] => []
  | n :: rest => (n.id, visibleIn (n :: (rest ++ below))) :: savedIn below rest

@[simp] def shows (w : World F S) : Versioned F where
  dimension := w.mem.dimension
  nodeSeq := w.nodeSeq
  vectorSeq := w.vectorSeq
  working := w.mem.working.map (·.id)
  current := visible w.mem
  saved := savedIn (w.mem.base :: w.mem.inherited) w.mem.ancestors
  ground := visibleIn (w.mem.base :: w.mem.inherited)

variable {n : MemoryNode F S} {below nodes : List (MemoryNode F S)} {normalize : List F → List F} {w : World F S}

theorem visible_working {m : BranchableMemory F S} (before : m.working = some n) :
    visible m = visibleIn (n :: (m.ancestors ++ m.base :: m.inherited)) := by
  rw [visible, chainPriorityOrder, before]
  rfl

/-- A fresh working node shows what is under it. -/
theorem shows_derive (m : BranchableMemory F S) : shows (w.derive m) =
    ⟨m.dimension, w.nodeSeq + 1, w.vectorSeq, some w.nodeSeq, visibleIn (m.ancestors ++ m.base :: m.inherited),
      savedIn (m.base :: m.inherited) m.ancestors, visibleIn (m.base :: m.inherited)⟩ := by
  simp only [shows, World.derive, visible, chainPriorityOrder, Option.toList, cons_append, nil_append,
    visibleIn_derived]
  rfl

/-! ### Writing -/

omit [RvfStore F S] in
/-- What a node with these tombstones and vectors tells of an id. -/
def told (tombstones : List Nat) (view : View F) (id : Nat) : Option (Option (List F)) :=
  if id ∈ tombstones then some none else (view id).map some

omit [RvfStore F S] in
theorem foldl_note (rest : Nat → Option (Option (List F))) (entries : List ((Nat × List F) × VectorItem F))
    (n : MemoryNode F S) (view : View F) :
    (fun id => ((told (entries.foldl MemoryNode.note n).tombstones (written (entries.map (·.1)) view) id).or
      (rest id)).join) =
    written (entries.map (·.1)) fun id => ((told n.tombstones view id).or (rest id)).join := by
  induction entries generalizing n view with
  | nil => rfl
  | cons entry entries ih =>
    rw [foldl_cons, map_cons, written, foldl_cons, ← written, ih, written, written, foldl_cons]
    congr 1
    funext id
    by_cases same : id = entry.1.1
    · subst same
      simp [told, MemoryNode.note]
    · simp [told, MemoryNode.note, same]

theorem tells_exact (exact_ : Exact n) (id : Nat) : n.tells id = told n.tombstones (RvfStore.held n.store) id := by
  rw [tells_eq, exact_.clean id]
  rfl

theorem visibleIn_ingest (exact_ : Exact n) (whole : batch.length = items.length) :
    visibleIn (n.ingest batch items :: below) = written batch (visibleIn (n :: below)) := by
  have noted := foldl_note (fun id => below.findSome? (MemoryNode.tells id)) (batch.zip items)
    { n with store := RvfStore.ingestBatch n.store batch } (RvfStore.held n.store)
  rw [map_fst_zip whole.le, ← (RvfStore.ingest_overwrites n.store batch).1] at noted
  funext id
  rw [visibleIn_cons, tells_exact (exact_.ingest whole), ingest_store]
  simp only [funext (visibleIn_cons n below), tells_exact exact_]
  exact congrFun noted id

theorem visibleIn_delete (ids : List Nat) :
    visibleIn (n.delete ids :: below) = fun id => if id ∈ ids then none else visibleIn (n :: below) id := by
  funext id
  rw [visibleIn_cons, visibleIn_cons]
  by_cases named : id ∈ ids <;> simp [MemoryNode.tells, MemoryNode.delete, named]

/-! ### Versions -/

omit [RvfStore F S] in
theorem discardTo_dropWhile (id : CheckpointId) (nodes : List (MemoryNode F S)) :
    discardTo (some id) nodes = match nodes.dropWhile (·.id != id) with
      | [] => .error (.checkpointNotFound id)
      | n :: rest => .ok (n :: rest) := by
  induction nodes with
  | nil => rfl
  | cons n nodes ih =>
    rw [discardTo_cons, dropWhile_cons, ih]
    by_cases same : n.id = id <;> simp [same]

theorem dropWhile_savedIn (id : CheckpointId) (nodes : List (MemoryNode F S)) :
    (savedIn below nodes).dropWhile (·.1 != id) = savedIn below (nodes.dropWhile (·.id != id)) := by
  induction nodes with
  | nil => rfl
  | cons n nodes ih =>
    rw [savedIn, dropWhile_cons, dropWhile_cons, ih]
    split <;> rfl

theorem lookup_savedIn (id : CheckpointId) (nodes : List (MemoryNode F S)) :
    (savedIn below nodes).lookup id = (nodes.findIdx? (·.id == id)).map fun i => visibleIn (nodes.drop i ++ below) := by
  induction nodes with
  | nil => rfl
  | cons n nodes ih =>
    rw [savedIn, lookup_cons, findIdx?_cons, ih]
    by_cases same : n.id = id
    · simp [same]
    · have apart : (id == n.id) = false := by simpa using Ne.symm same
      simp [same, apart, Function.comp_def]

theorem tells_snapshot (id : Nat) (n : MemoryNode F S) : MemoryNode.tells id n.openReadonlySnapshot = n.tells id := by
  obtain ⟨held, deleted⟩ := RvfStore.openReadonly_same n.store
  rw [tells_eq, tells_eq]
  simp only [MemoryNode.openReadonlySnapshot, held, deleted]

theorem shows_spawnIndependent (w : World F S) (source : List (MemoryNode F S)) :
    shows (spawnIndependent w source) = (shows w).spawn (visibleIn (source ++ w.mem.base :: w.mem.inherited)) := by
  have frozen : visibleIn ((source ++ w.mem.base :: w.mem.inherited).map MemoryNode.openReadonlySnapshot) =
      visibleIn (source ++ w.mem.base :: w.mem.inherited) := by
    funext id
    rw [visibleIn, visibleIn, findSome?_map]
    exact congrArg (fun tells => (findSome? tells _).join) (funext (tells_snapshot id))
  rw [spawnIndependent, shows_derive]
  simp only [nil_append, visibleIn_derived, frozen, savedIn]
  rfl

theorem spawnIndependent_seq (w : World F S) (source : List (MemoryNode F S)) :
    (spawnIndependent w source).nodeSeq = w.nodeSeq + 2 := rfl

theorem shows_fork (at_ : CheckpointId) : shows (step normalize w (.fork at_)) =
    (shows w).step normalize (.fork at_) := by
  have found := @lookup_savedIn _ _ _ (w.mem.base :: w.mem.inherited) at_ w.mem.ancestors
  cases here : w.mem.ancestors.findIdx? (·.id == at_) <;>
    simp [step, fork, here, World.spawned, found, spawnIndependent_seq, require]

theorem visibleIn_label (n : MemoryNode F S) (label : Option String) (below : List (MemoryNode F S)) :
    visibleIn ({ n with label := label } :: below) = visibleIn (n :: below) := rfl

/-- Every call but a promote of what cannot be replayed does to the map what its name says. -/
theorem shows_step (kept : Kept w.mem) (act : Lineage.Act F) (fine : act = .promote → Replayable w.mem) :
    shows (step normalize w act) = (shows w).step normalize act := by
  cases working : w.mem.working with
  | none =>
    cases act with
    | ingest items => cases items <;> simp [step, ingest, working]
    | delete ids => cases ids <;> simp [step, delete, working]
    | resume =>
      simp only [step, resume, working, shows_derive]
      simp [working, visible, chainPriorityOrder]
    | fork at_ => exact shows_fork at_
    | checkpoint | pause | rollback | promote | branch | elsewhere =>
      simp [step, checkpoint, pause, rollback, promote, branch, World.spawned, working]
  | some n =>
    cases act with
    | ingest items =>
      cases items with
      | nil => rfl
      | cons item items =>
        cases assigned : assign normalize w.mem.dimension (item :: items) w.vectorSeq with
        | mk outcome seq =>
          cases outcome with
          | error refusal => simp [step, ingest, working, assigned]
          | ok batch =>
            simp [step, ingest, working, assigned, visible, chainPriorityOrder,
              MemoryNode.ingest_id, visibleIn_ingest (kept.working n working) (assign_length assigned)]
    | delete ids =>
      have same : (n.delete ids).id = n.id := rfl
      cases ids with
      | nil => simp [step, delete, working]
      | cons id ids =>
        simp [step, delete, working, visible, chainPriorityOrder, visibleIn_delete, same]
    | checkpoint label =>
      simp only [step, checkpoint, working, shows_derive]
      simp [working, visible, chainPriorityOrder, visibleIn_label]
    | pause label =>
      simp [step, pause, working, visible, chainPriorityOrder, visibleIn_label]
    | rollback target =>
      cases target with
      | none =>
        simp only [step, rollback, working, discardTo, shows_derive]
        simp [working]
      | some id =>
        have older := @dropWhile_savedIn _ _ _ (w.mem.base :: w.mem.inherited) id w.mem.ancestors
        cases rest : w.mem.ancestors.dropWhile (·.id != id) with
        | nil =>
          rw [rest] at older
          simp [step, rollback, working, discardTo_dropWhile, rest, older]
        | cons last back =>
          rw [rest] at older
          simp only [step, rollback, working, discardTo_dropWhile, rest, shows_derive]
          simp [working, older]
    | promote =>
      have order : ((w.mem.ancestors.reverse ++ [n]).foldl replay (w.mem.base, ⟨0, 0⟩)).1 =
          replayed w.mem.base ⟨0, 0⟩ (own w.mem) := by
        simp [replayed, own, working]
      simp only [step, promote, working, order, shows_derive]
      simp [working, (visible_replayed_iff kept ⟨0, 0⟩).mpr (fine rfl)]
    | fork at_ => exact shows_fork at_
    | resume | branch | elsewhere =>
      simp [step, resume, branch, World.spawned, working, spawnIndependent_seq]

theorem shows_run {acts : List (Lineage.Act F)} (kept : Kept w.mem)
    (fine : Along (step normalize) (fun w act => act = .promote → Replayable w.mem) w acts) :
    shows (run (step normalize) w acts) = run (Versioned.step normalize) (shows w) acts := by
  induction acts generalizing w with
  | nil => rfl
  | cons act acts ih =>
    rw [run_cons, run_cons, ← shows_step kept act fine.1]
    exact ih (step_kept kept act) fine.2

/-- Whatever is done to a lineage, its view and those its checkpoints keep are what one map with saved versions
would be, and a branch or fork starts out as a copy of it or of the version it names. -/
theorem refines_versions {w₀ : World F S} (reached : Reachable normalize w₀) (acts : List (Lineage.Act F))
    (fine : Along (step normalize) (fun w act => act = .promote → Replayable w.mem) w₀ acts) :
    let w := run (step normalize) w₀ acts
    shows w = run (Versioned.step normalize) (shows w₀) acts ∧
      (∀ child, branch w = .ok child → shows child = (shows w).spawn (shows w).current) ∧
      ∀ at_ child, fork at_ w = .ok child →
        ∃ view, (shows w).saved.lookup at_ = some view ∧ shows child = (shows w).spawn view := by
  intro w
  refine ⟨shows_run (kept_reachable reached) fine, fun child made => ?_, fun at_ child made => ?_⟩
  · unfold branch at made
    split at made
    · cases made
    next n working =>
      obtain rfl := Except.ok.inj made
      rw [shows_spawnIndependent, cons_append, ← visible_working working]
      rfl
  · simp only [fork, bind_ok_iff, require_ok_iff, pure_ok_iff] at made
    obtain ⟨i, found, rfl⟩ := made
    refine ⟨_, ?_, shows_spawnIndependent w _⟩
    change (savedIn _ w.mem.ancestors).lookup at_ = _
    rw [lookup_savedIn, found]
    rfl

def putBack : List (Lineage.Act Int) :=
  [.ingest [seven], .checkpoint "turn", .delete [7], .checkpoint "later", .rollback (some 2)]

theorem refines_versions_putBack :
    visible (run (step id) (madeWorld 1) putBack).mem =
      (run (Versioned.step id) (shows (madeWorld 1)) putBack).current ∧
    (run (Versioned.step id) (shows (madeWorld 1)) putBack).current 7 = some [1] := by
  have made : Reachable id (madeWorld 1) := madeWorld_reached id (by decide)
  exact ⟨congrArg Versioned.current (refines_versions made putBack (by simp [Along, putBack])).1, by decide +kernel⟩

end Weftos.Memory.Versions
