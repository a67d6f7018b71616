import Weftos.Memory.Query
import Weftos.Memory.Rollback

/-! What `promote` keeps of the view. The edit logs and tombstones of the nodes above the base are replayed into
it, and a node that was reopened has no log. -/

namespace Weftos.Memory.Promote
open Lib Lib.Outcome Lineage Rollback Query List MemoryNode

variable {F S : Type} [RvfStore F S] {normalize : List F → List F}

/-! ### Reading and writing stores -/

theorem tells_eq (n : MemoryNode F S) (id : Nat) : n.tells id =
    if id ∈ n.tombstones then some none
    else (if RvfStore.deleted n.store id then none else RvfStore.held n.store id).map some := by
  rw [tells, RvfStore.live_held]
  by_cases hidden : id ∈ n.tombstones <;> simp [hidden]

omit [RvfStore F S] in
theorem written_eq {batch : List (Nat × List F)} (distinct : (batch.map (·.1)).Nodup) (view : View F) (id : Nat) :
    written batch view id = (batch.lookup id).or (view id) := by
  induction batch generalizing view with
  | nil => rfl
  | cons e batch ih =>
    rw [map_cons, nodup_cons] at distinct
    change written batch (Function.update view e.1 (some e.2)) id = _
    rw [ih distinct.2, lookup_cons]
    by_cases same : id = e.1
    · have later : batch.lookup id = none := by
        rw [lookup_eq_none_iff]
        intro o listed
        have differ : id ≠ o.1 := fun repeated => distinct.1 (mem_map.mpr ⟨o, listed, repeated.symm.trans same⟩)
        simpa using differ
      rw [later, same]
      simp
    · have apart : (id == e.1) = false := by simpa using same
      rw [apart, Function.update_of_ne same]

/-! ### Edit logs -/

/-- The node has been written in this process alone: its log is what it shows. -/
structure Exact (n : MemoryNode F S) : Prop where
  distinct : (n.editLog.map (·.1)).Nodup
  clean : ∀ id, RvfStore.deleted n.store id = false
  log : ∀ id, n.editLog.lookup id = if id ∈ n.tombstones then none else RvfStore.held n.store id

variable {n : MemoryNode F S} {items : List (VectorItem F)} {batch : List (Nat × List F)}

theorem Exact.tells (exact_ : Exact n) (id : Nat) :
    n.tells id = if id ∈ n.tombstones then some none else (n.editLog.lookup id).map some := by
  rw [tells_eq, exact_.clean id, exact_.log id]
  by_cases hidden : id ∈ n.tombstones <;> simp [hidden]

theorem exact_derived (id : CheckpointId) (parent : S) (fileName : String) (label : Option String) :
    Exact (.deriveFrom id parent fileName label : MemoryNode F S) where
  distinct := nodup_nil
  clean other := (RvfStore.derive_empty parent other).2
  log other := by
    rw [deriveFrom, wrap, (RvfStore.derive_empty parent other).1, ite_self]
    rfl

theorem Exact.label (exact_ : Exact n) (label : Option String) : Exact { n with label := label } :=
  ⟨exact_.distinct, exact_.clean, exact_.log⟩

section
variable (entries : List ((Nat × List F) × VectorItem F)) (n : MemoryNode F S)

omit [RvfStore F S] in
theorem note_all (view : View F) (log : ∀ id, n.editLog.lookup id = if id ∈ n.tombstones then none else view id)
    (id : Nat) : (entries.foldl note n).editLog.lookup id =
      if id ∈ (entries.foldl note n).tombstones then none else written (entries.map (·.1)) view id := by
  induction entries generalizing n view with
  | nil => exact log id
  | cons entry entries ih =>
    apply ih (n.note entry) (Function.update view entry.1.1 (some entry.1.2))
    intro other
    by_cases same : other = entry.1.1
    · subst same
      simp [note]
    · simp only [note, Table.lookup_insert_other _ _ same, log other]
      simp [same]

omit [RvfStore F S] in
theorem note_distinct (distinct : (n.editLog.map (·.1)).Nodup) :
    ((entries.foldl note n).editLog.map (·.1)).Nodup := by
  induction entries generalizing n with
  | nil => exact distinct
  | cons entry entries ih => exact ih (n.note entry) (Table.nodup_insert distinct _ _)

omit [RvfStore F S] in
theorem note_store : (entries.foldl note n).store = n.store := by
  induction entries generalizing n with
  | nil => rfl
  | cons entry entries ih => exact ih (n.note entry)

end

theorem ingest_store (n : MemoryNode F S) (batch : List (Nat × List F)) (items : List (VectorItem F)) :
    (n.ingest batch items).store = RvfStore.ingestBatch n.store batch := note_store _ _

theorem Exact.ingest (exact_ : Exact n) (whole : batch.length = items.length) : Exact (n.ingest batch items) where
  distinct := note_distinct _ _ exact_.distinct
  clean id := by
    rw [ingest_store, (RvfStore.ingest_overwrites n.store batch).2]
    exact exact_.clean id
  log id := by
    have noted := note_all (batch.zip items) { n with store := RvfStore.ingestBatch n.store batch }
      (RvfStore.held n.store) exact_.log id
    rw [map_fst_zip (le_of_eq whole), ← (RvfStore.ingest_overwrites n.store batch).1] at noted
    rw [ingest_store]
    exact noted

theorem Exact.delete (exact_ : Exact n) (ids : List Nat) : Exact (n.delete ids) where
  distinct := Table.nodup_filter exact_.distinct _
  clean := exact_.clean
  log id := by
    have filtered := Table.lookup_filter_keys n.editLog (fun id => !ids.contains id) id
    change (n.editLog.filter fun e => !ids.contains e.1).lookup id =
      if id ∈ n.tombstones ∪ ids then none else RvfStore.held n.store id
    rw [filtered, exact_.log id]
    by_cases named : id ∈ ids
    · simp [named]
    · simp [named]

theorem Exact.writes (exact_ : Exact n) (writes : Writes n n') : Exact n' := by
  cases writes with
  | ingest whole => exact exact_.ingest whole
  | delete ids => exact exact_.delete ids

/-! ### Every lineage that comes about -/

/-- The working node was written in this process; a checkpoint was too, or it was reopened. -/
structure Kept (m : BranchableMemory F S) : Prop where
  working : ∀ n, m.working = some n → Exact n
  ancestors : ∀ n ∈ m.ancestors, Exact n ∨ n.editLog = []

variable {m : BranchableMemory F S} {w : World F S}

theorem Kept.derive (w : World F S) (ancestors : ∀ n ∈ m.ancestors, Exact n ∨ n.editLog = []) :
    Kept (w.derive m).mem where
  working n found := by
    obtain rfl := Option.some.inj found
    exact exact_derived _ _ _ _
  ancestors := ancestors

theorem Kept.frozen (kept : Kept m) (before : m.working = some n) (label : Option String) :
    ∀ o ∈ { n with label := label } :: m.ancestors, Exact o ∨ o.editLog = [] := by
  intro o listed
  obtain rfl | listed := mem_cons.mp listed
  · exact .inl ((kept.working n before).label label)
  · exact kept.ancestors o listed

theorem Kept.write (kept : Kept m) (exact_ : Exact n) : Kept { m with working := some n } where
  working o found := by
    obtain rfl := Option.some.inj found
    exact exact_
  ancestors := kept.ancestors

theorem Kept.moves (kept : Kept w.mem) (moves : Moves w act w') : Kept w'.mem := by
  cases moves with
  | kept mem later => exact mem ▸ kept
  | @written n n' before writes mem seq =>
    rw [mem]
    exact kept.write ((kept.working n before).writes writes)
  | frozen before mem seq =>
    rw [mem]
    exact ⟨fun o found => (by cases found), kept.frozen before _⟩
  | checkpointed before derived =>
    rw [derived]
    exact .derive w (kept.frozen before _)
  | resumed before derived =>
    rw [derived]
    exact .derive w kept.ancestors
  | discarded call found derived =>
    rw [derived]
    exact .derive w fun n listed => kept.ancestors n ((discardTo_suffix found).subset listed)
  | folded call derived =>
    rw [derived]
    exact .derive w fun n listed => (not_mem_nil listed).elim

theorem step_kept (kept : Kept w.mem) (act : Act F) : Kept (step normalize w act).mem :=
  kept.moves (step_moves normalize w act)

theorem kept_reachable (reached : Reachable normalize w) : Kept w.mem := by
  refine reached.keeps (P := fun w => Kept w.mem) (fun w parked => ⟨fun n here => ?_, fun n listed => ?_⟩)
    fun w act kept => step_kept kept act
  · rw [parked.working] at here
    cases here
  · exact .inr (parked.reopened n listed).2

omit [RvfStore F S] in
theorem mem_own_working (listed : n ∈ m.working.toList) : m.working = some n := by simpa using listed

theorem Kept.silent (kept : Kept m) (id : Nat) : ∀ n ∈ own m, n.tells id = none → n.editLog.lookup id = none := by
  have written {n : MemoryNode F S} (exact_ : Exact n) (quiet : n.tells id = none) : n.editLog.lookup id = none := by
    rw [exact_.tells id] at quiet
    by_cases hidden : id ∈ n.tombstones
    · simp [hidden] at quiet
    · simpa [hidden] using quiet
  intro n listed quiet
  obtain working | ancestor := mem_append.mp listed
  · exact written (kept.working n (mem_own_working working)) quiet
  · obtain exact_ | empty := kept.ancestors n ancestor
    · exact written exact_ quiet
    · rw [empty]
      rfl

theorem Kept.distinct (kept : Kept m) : ∀ n ∈ own m, (n.editLog.map (·.1)).Nodup := by
  intro n listed
  obtain working | ancestor := mem_append.mp listed
  · exact (kept.working n (mem_own_working working)).distinct
  · obtain exact_ | empty := kept.ancestors n ancestor
    · exact exact_.distinct
    · rw [empty]
      exact nodup_nil

/-! ### The replay -/

/-- The base after the nodes, given newest first, have been replayed oldest first. -/
def replayed (base : MemoryNode F S) (report : PromoteReport) (nodes : List (MemoryNode F S)) : MemoryNode F S :=
  (nodes.foldr (fun n acc => replay acc n) (base, report)).1

/-- The newest vector that a node logged, or what the base holds, unless the base has it deleted. -/
def replays (base : MemoryNode F S) (nodes : List (MemoryNode F S)) : View F := fun id =>
  if RvfStore.deleted base.store id then none
  else (nodes.findSome? (·.editLog.lookup id)).or (RvfStore.held base.store id)

section
variable {base : MemoryNode F S} {report : PromoteReport} {nodes : List (MemoryNode F S)} {id : Nat}

theorem replay_held (acc : MemoryNode F S × PromoteReport) (n : MemoryNode F S) :
    RvfStore.held (replay acc n).1.store = written n.editLog (RvfStore.held acc.1.store) := by
  have ingested : RvfStore.held
    (if n.editLog.isEmpty then acc.1.store else RvfStore.ingestBatch acc.1.store n.editLog) =
      written n.editLog (RvfStore.held acc.1.store) := by
    split
    next empty =>
      rw [isEmpty_iff.mp empty]
      rfl
    · exact (RvfStore.ingest_overwrites acc.1.store n.editLog).1
  rw [← ingested, replay]
  dsimp only
  split
  · rfl
  · exact (RvfStore.delete_hides _ n.tombstones).1

theorem replay_deleted (acc : MemoryNode F S × PromoteReport) (spared : id ∉ n.tombstones) :
    RvfStore.deleted (replay acc n).1.store id = RvfStore.deleted acc.1.store id := by
  have ingested : RvfStore.deleted
      (if n.editLog.isEmpty then acc.1.store else RvfStore.ingestBatch acc.1.store n.editLog) =
      RvfStore.deleted acc.1.store := by
    split
    · rfl
    · exact (RvfStore.ingest_overwrites acc.1.store n.editLog).2
  rw [← ingested, replay]
  dsimp only
  split
  · rfl
  · rw [(RvfStore.delete_hides _ n.tombstones).2]
    simp [spared]

theorem mem_tombstones_replayed :
    id ∈ (replayed base report nodes).tombstones ↔ ∃ n ∈ base :: nodes, id ∈ n.tombstones := by
  induction nodes with
  | nil => simp [replayed]
  | cons n nodes ih =>
    change id ∈ (replayed base report nodes).tombstones ∪ n.tombstones ↔ _
    rw [mem_union_iff, ih]
    simp only [exists_mem_cons_iff, or_comm, or_left_comm]

theorem held_replayed (base : MemoryNode F S) (report : PromoteReport) (id : Nat)
    (distinct : ∀ n ∈ nodes, (n.editLog.map (·.1)).Nodup) :
    RvfStore.held (replayed base report nodes).store id =
      (nodes.findSome? (·.editLog.lookup id)).or (RvfStore.held base.store id) := by
  induction nodes with
  | nil => rfl
  | cons n nodes ih =>
    have before := ih fun o listed => distinct o (mem_cons_of_mem n listed)
    rw [replayed] at before
    rw [replayed, foldr_cons, replay_held, written_eq (distinct n mem_cons_self), before, findSome?_cons]
    cases n.editLog.lookup id <;> rfl

theorem deleted_replayed (spared : ∀ n ∈ nodes, id ∉ n.tombstones) :
    RvfStore.deleted (replayed base report nodes).store id = RvfStore.deleted base.store id := by
  induction nodes with
  | nil => rfl
  | cons n nodes ih =>
    exact (replay_deleted _ (spared n mem_cons_self)).trans (ih fun o listed => spared o (mem_cons_of_mem n listed))

theorem tells_replayed (distinct : ∀ n ∈ nodes, (n.editLog.map (·.1)).Nodup)
    (spared : ∀ n ∈ base :: nodes, id ∉ n.tombstones) :
    (replayed base report nodes).tells id = (replays base nodes id).map some := by
  have hides : id ∉ (replayed base report nodes).tombstones := by
    rw [mem_tombstones_replayed]
    rintro ⟨n, listed, hidden⟩
    exact spared n listed hidden
  rw [tells_eq, if_neg hides, deleted_replayed fun n listed => spared n (mem_cons_of_mem _ listed),
    held_replayed base report id distinct]
  rfl

end

/-! ### The view -/

theorem visibleIn_cons (n : MemoryNode F S) (below : List (MemoryNode F S)) (id : Nat) :
    visibleIn (n :: below) id = ((n.tells id).or (below.findSome? (MemoryNode.tells id))).join := by
  rw [visibleIn, findSome?_cons]
  cases n.tells id <;> rfl

/-- What the working node or a checkpoint shows is tombstoned nowhere from the working node down to the base,
and its replay shows it, or else what the lineage inherited does. -/
def Replayable (m : BranchableMemory F S) : Prop :=
  ∀ id v, (own m).findSome? (MemoryNode.tells id) = some (some v) →
    (∀ n ∈ m.base :: own m, id ∉ n.tombstones) ∧ (replays m.base (own m) id).or (visibleIn m.inherited id) = some v

theorem visible_replayed_eq {id : Nat} (report : PromoteReport)
    (told : (own m).findSome? (MemoryNode.tells id) = some none) :
    visibleIn (replayed m.base report (own m) :: m.inherited) id = none := by
  obtain ⟨n, listed, gone⟩ := exists_of_findSome?_eq_some told
  have hidden : id ∈ (replayed m.base report (own m)).tombstones :=
    mem_tombstones_replayed.mpr ⟨n, mem_cons_of_mem _ listed, tells_gone.mp gone⟩
  rw [visibleIn_cons, tells_gone.mpr hidden]
  rfl

/-- Where no node above the base tells of an id, the replay changes nothing of it. -/
theorem Kept.untold {id : Nat} (kept : Kept m) (report : PromoteReport)
    (told : (own m).findSome? (MemoryNode.tells id) = none) :
    (replayed m.base report (own m)).tells id = m.base.tells id := by
  have silent : ∀ n ∈ own m, n.tells id = none := fun n listed => findSome?_eq_none_iff.mp told n listed
  have unlogged : (own m).findSome? (·.editLog.lookup id) = none :=
    findSome?_eq_none_iff.mpr fun n listed => kept.silent id n listed (silent n listed)
  by_cases hidden : id ∈ m.base.tombstones
  · rw [tells_gone.mpr hidden, tells_gone]
    exact mem_tombstones_replayed.mpr ⟨m.base, mem_cons_self, hidden⟩
  · have spared : ∀ n ∈ m.base :: own m, id ∉ n.tombstones := by
      intro n listed
      obtain rfl | above := mem_cons.mp listed
      · exact hidden
      · exact (tells_eq_none.mp (silent n above)).1
    rw [tells_replayed kept.distinct spared, replays, unlogged, tells_eq, if_neg hidden]
    rfl

theorem visible_replayed_iff (kept : Kept m) (report : PromoteReport) :
    visibleIn (replayed m.base report (own m) :: m.inherited) = visible m ↔ Replayable m := by
  have chain (id : Nat) : visible m id =
      (((own m).findSome? (MemoryNode.tells id)).or ((m.base.tells id).or
        (m.inherited.findSome? (MemoryNode.tells id)))).join := by
    rw [visible, show chainPriorityOrder m = own m ++ m.base :: m.inherited from rfl, visibleIn, findSome?_append,
      findSome?_cons]
    cases (own m).findSome? (MemoryNode.tells id) <;> cases m.base.tells id <;> rfl
  have shown (id : Nat) (spared : ∀ n ∈ m.base :: own m, id ∉ n.tombstones) :
      visibleIn (replayed m.base report (own m) :: m.inherited) id =
        (replays m.base (own m) id).or (visibleIn m.inherited id) := by
    rw [visibleIn_cons, tells_replayed kept.distinct spared]
    cases replays m.base (own m) id <;> rfl
  constructor
  · intro same id v told
    have before : visible m id = some v := by rw [chain, told]; rfl
    rw [← same] at before
    have spared : ∀ n ∈ m.base :: own m, id ∉ n.tombstones := by
      intro n listed hidden
      rw [visibleIn_cons, tells_gone.mpr (mem_tombstones_replayed.mpr ⟨n, listed, hidden⟩)] at before
      cases before
    exact ⟨spared, (shown id spared).symm.trans before⟩
  · intro replayable
    funext id
    cases told : (own m).findSome? (MemoryNode.tells id) with
    | none => rw [visibleIn_cons, kept.untold report told, chain, told, Option.none_or]
    | some answer =>
      cases answer with
      | none => rw [visible_replayed_eq report told, chain, told]; rfl
      | some v =>
        obtain ⟨spared, showing⟩ := replayable id v told
        rw [shown id spared, showing, chain, told]
        rfl

theorem visibleIn_derived (id : CheckpointId) (parent : S) (fileName : String) (label : Option String)
    (below : List (MemoryNode F S)) : visibleIn (.deriveFrom id parent fileName label :: below) = visibleIn below := by
  funext other
  rw [visibleIn_cons, tells_derived]
  rfl

theorem visible_promote (before : w.mem.working = some n) : visible (promote w).2.mem =
    visibleIn (replayed w.mem.base ⟨0, 0⟩ (own w.mem) :: w.mem.inherited) := by
  have order : ((w.mem.ancestors.reverse ++ [n]).foldl replay (w.mem.base, ⟨0, 0⟩)).1 =
      replayed w.mem.base ⟨0, 0⟩ (own w.mem) := by
    simp [replayed, own, before]
  simp only [promote, before, order, World.derive, visible, chainPriorityOrder, Option.toList_some, cons_append,
    nil_append, visibleIn_derived]

/-- A promote leaves the view as it was if and only if what the nodes above the base show can be replayed. -/
theorem promote_keeps_view (reached : Reachable normalize w) {report : PromoteReport}
    (succeeds : (promote w).1 = .ok report) : visible (promote w).2.mem = visible w.mem ↔ Replayable w.mem := by
  cases before : w.mem.working with
  | none =>
    simp only [promote, before] at succeeds
    cases succeeds
  | some n => rw [visible_promote before, visible_replayed_iff (kept_reachable reached)]

theorem findSome_log {nodes : List (MemoryNode F S)} {id : Nat}
    (logged : ∀ n ∈ nodes, n.tells id = (n.editLog.lookup id).map some) :
    nodes.findSome? (MemoryNode.tells id) = (nodes.findSome? (·.editLog.lookup id)).map some := by
  induction nodes with
  | nil => rfl
  | cons n nodes ih =>
    rw [findSome?_cons, findSome?_cons, logged n mem_cons_self]
    cases n.editLog.lookup id with
    | some v => rfl
    | none => exact ih fun o listed => logged o (mem_cons_of_mem n listed)

/-- What was written in this process and never deleted can be replayed. -/
theorem Kept.replayable (kept : Kept m) (written : ∀ n ∈ m.ancestors, n.editLog ≠ [])
    (unhidden : ∀ n ∈ m.base :: own m, n.tombstones = []) (clean : ∀ id, RvfStore.deleted m.base.store id = false) :
    Replayable m := by
  intro id v told
  have logged : ∀ n ∈ own m, n.tells id = (n.editLog.lookup id).map some := by
    intro n listed
    have exact_ : Exact n := by
      obtain working | ancestor := mem_append.mp listed
      · exact kept.working n (mem_own_working working)
      · exact (kept.ancestors n ancestor).resolve_right (written n ancestor)
    rw [exact_.tells id, unhidden n (mem_cons_of_mem _ listed), if_neg not_mem_nil]
  refine ⟨fun n listed hidden => ?_, ?_⟩
  · rw [unhidden n listed] at hidden
    exact not_mem_nil hidden
  · rw [findSome_log logged, Option.map_eq_some_iff] at told
    obtain ⟨_, found, same⟩ := told
    obtain rfl := Option.some.inj same
    rw [replays, clean, found]
    rfl

/-! ### Two lineages -/

def seven : VectorItem Int := ⟨some 7, [1], none, []⟩

def overwritten : World Int (ListStore Int) :=
  Run.run (step id) (madeWorld 1) [.ingest [seven], .checkpoint "turn", .ingest [⟨some 7, [-1], none, []⟩]]

theorem promote_keeps_view_overwritten :
    visible (promote overwritten).2.mem = visible overwritten.mem ∧ visible overwritten.mem 7 = some [-1] := by
  have reached : Reachable id overwritten := (madeWorld_reached id (by decide)).run _
  have succeeds : ∃ report, (promote overwritten).1 = .ok report := ⟨_, rfl⟩
  have clean : overwritten.mem.base.store.hidden = [] := by decide +kernel
  have replayable : Replayable overwritten.mem :=
    (kept_reachable reached).replayable (by decide +kernel) (by decide +kernel) fun id => by
      change overwritten.mem.base.store.hidden.contains id = false
      rw [clean]
      rfl
  obtain ⟨report, succeeds⟩ := succeeds
  exact ⟨(promote_keeps_view reached succeeds).mpr replayable, by decide +kernel⟩

def rewritten : World Int (ListStore Int) :=
  Run.run (step id) (madeWorld 1) [.delete [7], .checkpoint "turn", .ingest [seven]]

def frozen : World Int (ListStore Int) := Run.run (step id) (madeWorld 1) [.ingest [seven], .checkpoint "turn"]

/-- The directory the lineage leaves: its manifest, and the files of its nodes. -/
def leaves (w : World Int (ListStore Int)) : Directory (ListStore Int) :=
  ⟨"turn", some (.ok (buildManifest w)), (chainPriorityOrder w.mem).map fun n => (n.fileName, w.mem.dimension, n.store)⟩

def Loses (w : World Int (ListStore Int)) : Prop :=
  (promote w).1.isOk = true ∧ visible w.mem 7 = some [1] ∧ visible (promote w).2.mem 7 = none

instance (w : World Int (ListStore Int)) : Decidable (Loses w) := inferInstanceAs (Decidable (_ ∧ _))

/-- Written again after a checkpoint that hid it, or shown by a checkpoint that was reopened, a vector is
gone after a promote. -/
theorem promote_loses :
    (Reachable id rewritten ∧ Loses rewritten) ∧
      ∃ w, open_ (leaves frozen) 1 1 = .ok w ∧ Reachable id w ∧ Loses w := by
  constructor
  · exact ⟨(madeWorld_reached id (by decide)).run _, by decide +kernel⟩
  · have evaluated : ∃ w ∈ (open_ (F := Int) (leaves frozen) 1 1).toOption, Loses w := by decide +kernel
    obtain ⟨w, made, lost⟩ := evaluated
    have opened : open_ (leaves frozen) 1 1 = .ok w := by
      cases here : open_ (F := Int) (leaves frozen) 1 1 with
      | ok other =>
        rw [here] at made
        exact congrArg Except.ok (Option.some.inj made)
      | error refusal =>
        rw [here] at made
        cases made
    exact ⟨w, opened, .open_ _ opened, lost⟩

end Weftos.Memory.Promote
