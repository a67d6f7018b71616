import Weftos.Memory.Lineage

/-! What a checkpoint keeps: it stands in the lineage with everything older behind it until a rollback passes
it or a promote folds it away, and after that its id never comes back. -/

namespace Weftos.Memory.Rollback
open Lib Lib.Outcome Lineage List

variable {F S : Type} {normalize : List F → List F}

/-! ### Node ids -/

def own (m : BranchableMemory F S) : List (MemoryNode F S) := m.working.toList ++ m.ancestors

structure Numbered (w : World F S) : Prop where
  distinct : ((own w.mem).map (·.id)).Nodup
  below : ∀ n ∈ own w.mem, n.id < w.nodeSeq

variable {w w' : World F S} {rest ancestors : List (MemoryNode F S)} {n : MemoryNode F S}

theorem Numbered.sublist (numbered : Numbered w) (fewer : ((own w'.mem).map (·.id)).Sublist ((own w.mem).map (·.id)))
    (later : w.nodeSeq ≤ w'.nodeSeq) : Numbered w' where
  distinct := numbered.distinct.sublist fewer
  below n listed := by
    obtain ⟨o, among, same⟩ := mem_map.mp (fewer.subset (mem_map_of_mem listed))
    rw [← same]
    exact (numbered.below o among).trans_le later

theorem discardTo_cons (id : CheckpointId) (n : MemoryNode F S) (rest : List (MemoryNode F S)) :
    discardTo (some id) (n :: rest) = if n.id = id then .ok (n :: rest) else discardTo (some id) rest := by
  by_cases same : n.id = id
  · simp [discardTo, findIdx?_cons, same, require]
  · rw [if_neg same]
    simp only [discardTo, findIdx?_cons, beq_eq_false_iff_ne.mpr same]
    cases rest.findIdx? (·.id == id) with
    | none => rfl
    | some idx => rfl

theorem discardTo_suffix (found : discardTo target ancestors = .ok rest) : rest <:+ ancestors := by
  cases target with
  | none =>
    cases found
    exact nil_suffix
  | some id =>
    obtain ⟨idx, -, same⟩ := bind_ok_iff.mp found
    rw [pure_ok_iff] at same
    exact same ▸ drop_suffix idx ancestors

theorem discardTo_spares {id : CheckpointId} (spared : id ∉ older.map (·.id))
    (found : discardTo (some id) (front ++ n :: older) = .ok rest) : ∃ newer, rest = newer ++ n :: older := by
  induction front with
  | nil =>
    rw [nil_append, discardTo_cons] at found
    split at found
    · exact ⟨[], (Except.ok.inj found).symm⟩
    · obtain ⟨idx, at_, -⟩ := bind_ok_iff.mp found
      rw [require_ok_iff, findIdx?_eq_some_iff_getElem] at at_
      obtain ⟨inside, same, -⟩ := at_
      exact absurd (mem_map.mpr ⟨older[idx], getElem_mem inside, beq_iff_eq.mp same⟩) spared
  | cons o front ih =>
    rw [cons_append, discardTo_cons] at found
    split at found
    · exact ⟨o :: front, (Except.ok.inj found).symm⟩
    · exact ih found

theorem discardTo_past {front back : List (MemoryNode F S)} {id : CheckpointId} (absent : id ∉ front.map (·.id)) :
    discardTo (some id) (front ++ back) = discardTo (some id) back := by
  induction front with
  | nil => rfl
  | cons o front ih =>
    rw [map_cons, mem_cons, not_or] at absent
    rw [cons_append, discardTo_cons, if_neg (Ne.symm absent.1)]
    exact ih absent.2

theorem discardTo_self (apart : n.id ∉ front.map (·.id)) :
    discardTo (some n.id) (front ++ n :: older) = .ok (n :: older) := by
  rw [discardTo_past apart, discardTo_cons, if_pos rfl]

theorem discardTo_absent (absent : ∀ n ∈ ancestors, n.id ≠ c) :
    discardTo (some c) ancestors = .error (.checkpointNotFound c) := by
  induction ancestors with
  | nil => rfl
  | cons n ancestors ih =>
    rw [discardTo_cons, if_neg (absent n mem_cons_self)]
    exact ih fun o listed => absent o (mem_cons_of_mem n listed)

theorem discardTo_mem {id : CheckpointId} (listed : id ∈ ancestors.map (·.id)) :
    ∃ rest, discardTo (some id) ancestors = .ok rest := by
  induction ancestors with
  | nil => simp at listed
  | cons n ancestors ih =>
    rw [discardTo_cons]
    by_cases same : n.id = id
    · exact ⟨_, if_pos same⟩
    · rw [if_neg same]
      exact ih ((mem_cons.mp listed).resolve_left (Ne.symm same))

variable [RvfStore F S] {m : BranchableMemory F S}

theorem Numbered.derive (numbered : Numbered w) (fewer : (m.ancestors.map (·.id)).Sublist ((own w.mem).map (·.id))) :
    Numbered (w.derive m) := by
  have older : ∀ n ∈ m.ancestors, n.id < w.nodeSeq := by
    intro n listed
    obtain ⟨o, among, same⟩ := mem_map.mp (fewer.subset (mem_map_of_mem listed))
    rw [← same]
    exact numbered.below o among
  constructor
  · refine nodup_cons.mpr ⟨?_, numbered.distinct.sublist fewer⟩
    intro listed
    obtain ⟨n, among, same⟩ := mem_map.mp listed
    exact absurd same (ne_of_lt (older n among))
  · intro n listed
    obtain rfl | listed := mem_cons.mp listed
    · exact Nat.lt_succ_self _
    · exact Nat.lt_succ_of_lt (older n listed)

/-! ### What the operations do to the nodes -/

inductive Writes (n : MemoryNode F S) : MemoryNode F S → Prop where
  | ingest (whole : batch.length = items.length) : Writes n (n.ingest batch items)
  | delete (ids : List Nat) : Writes n (n.delete ids)

/-- What an operation does to the lineage's own nodes: it writes the working node, freezes
it, derives a fresh one over some of the checkpoints, or leaves them. -/
inductive Moves (w : World F S) (act : Act F) (w' : World F S) : Prop where
  | kept (mem : w'.mem = w.mem) (later : w.nodeSeq ≤ w'.nodeSeq)
  | written {n n' : MemoryNode F S} (before : w.mem.working = some n) (writes : Writes n n')
      (mem : w'.mem = { w.mem with working := some n' }) (seq : w'.nodeSeq = w.nodeSeq)
  | frozen {n : MemoryNode F S} {label : String} (before : w.mem.working = some n)
      (mem : w'.mem = { w.mem with working := none, ancestors := { n with label := some label } :: w.mem.ancestors })
      (seq : w'.nodeSeq = w.nodeSeq)
  | checkpointed {n : MemoryNode F S} {label : String} (before : w.mem.working = some n)
      (derived : w' = w.derive { w.mem with ancestors := { n with label := some label } :: w.mem.ancestors })
  | resumed (before : w.mem.working = none) (derived : w' = w.derive w.mem)
  | discarded {rest : List (MemoryNode F S)} (call : act = .rollback target)
      (found : discardTo target w.mem.ancestors = .ok rest) (derived : w' = w.derive { w.mem with ancestors := rest })
  | folded (call : act = .promote)
      (derived : w' = w.derive { w.mem with base := base, ancestors := [] })

theorem MemoryNode.ingest_id (n : MemoryNode F S) (batch : List (Nat × List F)) (items : List (VectorItem F)) :
    (n.ingest batch items).id = n.id := by
  have folded (entries : List ((Nat × List F) × VectorItem F)) (n : MemoryNode F S) :
      (entries.foldl MemoryNode.note n).id = n.id := by
    induction entries generalizing n with
    | nil => rfl
    | cons entry entries ih => exact ih (n.note entry)
  exact folded _ _

theorem Writes.id_eq (writes : Writes n n') : n'.id = n.id := by
  cases writes with
  | ingest => exact MemoryNode.ingest_id ..
  | delete => rfl

omit [RvfStore F S] in
theorem assign_length {dimension : Nat} {seq next : Nat}
    (assigned : assign normalize dimension items seq = (.ok batch, next)) : batch.length = items.length := by
  induction items generalizing seq next batch with
  | nil =>
    obtain rfl := Except.ok.inj (Prod.mk.inj assigned).1
    rfl
  | cons item items ih =>
    rw [assign] at assigned
    split at assigned
    · cases (Prod.mk.inj assigned).1
    · cases rest : assign normalize dimension items (if item.id.isNone then seq + 1 else seq) with
      | mk outcome after =>
        simp only [rest] at assigned
        cases outcome with
        | error refusal => cases (Prod.mk.inj assigned).1
        | ok others =>
          obtain rfl : (item.id.getD seq, normalize item.vector) :: others = batch :=
            Except.ok.inj (Prod.mk.inj assigned).1
          rw [length_cons, length_cons, ih rest]

theorem spawned_moves (w : World F S) (act : Act F)
    (later : ∀ c, child = .ok c → w.nodeSeq ≤ c.nodeSeq) : Moves w act (w.spawned child) := by
  cases child with
  | error refusal => exact .kept rfl le_rfl
  | ok c => exact .kept rfl (later c rfl)

theorem step_moves (normalize : List F → List F) (w : World F S) (act : Act F) :
    Moves w act (step normalize w act) := by
  cases act with
  | ingest items =>
    simp only [step, ingest]
    split
    · exact .kept rfl le_rfl
    · split
      · exact .kept rfl le_rfl
      · next n before =>
        split
        · exact .kept rfl le_rfl
        · next assigned => exact .written before (.ingest (assign_length assigned)) rfl rfl
  | delete ids =>
    simp only [step, delete]
    split
    · exact .kept rfl le_rfl
    · split
      · exact .kept rfl le_rfl
      · next n before => exact .written before (.delete ids) rfl rfl
  | checkpoint label =>
    simp only [step, checkpoint]
    split
    · exact .kept rfl le_rfl
    · next n before => exact .checkpointed before rfl
  | pause label =>
    simp only [step, pause]
    split
    · exact .kept rfl le_rfl
    · next n before => exact .frozen before rfl rfl
  | resume =>
    simp only [step, resume]
    split
    · exact .kept rfl le_rfl
    · next before => exact .resumed before rfl
  | rollback target =>
    simp only [step, rollback]
    split
    · exact .kept rfl le_rfl
    · split
      · exact .kept rfl le_rfl
      · next found => exact .discarded rfl found rfl
  | promote =>
    simp only [step, promote]
    split
    · exact .kept rfl le_rfl
    · exact .folded rfl rfl
  | branch =>
    apply spawned_moves
    intro c made
    unfold branch at made
    split at made
    · cases made
    · obtain rfl := Except.ok.inj made
      exact Nat.le_add_right _ 2
  | fork at_ =>
    apply spawned_moves
    intro c made
    obtain ⟨idx, -, same⟩ := bind_ok_iff.mp made
    obtain rfl := pure_ok_iff.mp same
    exact Nat.le_add_right _ 2
  | elsewhere nodes vectors => exact .kept rfl (Nat.le_add_right _ _)

variable {act : Act F}

theorem Numbered.moves (numbered : Numbered w) (moves : Moves w act w') : Numbered w' := by
  have checkpoints : (w.mem.ancestors.map (·.id)).Sublist ((own w.mem).map (·.id)) :=
    (sublist_append_right _ _).map _
  cases moves with
  | kept mem later =>
    apply numbered.sublist _ later
    rw [mem]
  | @written n n' before writes mem seq =>
    apply numbered.sublist _ (le_of_eq seq.symm)
    simp [own, mem, before, writes.id_eq]
  | @frozen n label before mem seq =>
    apply numbered.sublist _ (le_of_eq seq.symm)
    simp [own, mem, before]
  | @checkpointed n label before derived =>
    rw [derived]
    apply numbered.derive
    simp [own, before]
  | resumed before derived =>
    rw [derived]
    exact numbered.derive checkpoints
  | discarded call found derived =>
    rw [derived]
    exact numbered.derive (((discardTo_suffix found).sublist.map _).trans checkpoints)
  | folded call derived =>
    rw [derived]
    exact numbered.derive (nil_sublist _)

theorem numbered_reachable (reached : Reachable normalize w) : Numbered w := by
  refine reached.keeps (fun w parked => ?_) fun w act numbered => numbered.moves (step_moves normalize w act)
  have nodes : own w.mem = w.mem.ancestors := by rw [own, parked.working]; rfl
  exact ⟨nodes ▸ parked.distinct, fun n listed => (parked.reopened n (nodes ▸ listed)).1⟩

/-! ### A checkpoint that stands -/

/-- The node `n`, frozen over the lineage `m`, stands in `m'` with everything that was behind it. -/
structure Stands (m : BranchableMemory F S) (n : MemoryNode F S) (m' : BranchableMemory F S) : Prop where
  chain : ∃ newer label, m'.ancestors = newer ++ { n with label := label } :: m.ancestors
  base : m'.base = m.base
  inherited : m'.inherited = m.inherited

/-- Not a promote, nor a rollback past a checkpoint taken over the lineage `m`. -/
def spares (m : BranchableMemory F S) : Act F → Prop
  | .promote | .rollback none => False
  | .rollback (some id) => id ∉ m.ancestors.map (·.id)
  | _ => True

omit [RvfStore F S] in
theorem Stands.newer (stands : Stands m n m')
    (chain : m''.ancestors = more ++ m'.ancestors) (base : m''.base = m'.base)
    (inherited : m''.inherited = m'.inherited) : Stands m n m'' where
  chain := by
    obtain ⟨newer, label, same⟩ := stands.chain
    exact ⟨more ++ newer, label, by rw [chain, same, append_assoc]⟩
  base := base.trans stands.base
  inherited := inherited.trans stands.inherited

theorem Stands.moves (stands : Stands m n w.mem) (spared : spares m act) (moves : Moves w act w') :
    Stands m n w'.mem := by
  cases moves with
  | kept mem later => exact mem ▸ stands
  | written before writes mem seq =>
    rw [mem]
    exact stands.newer (nil_append _).symm rfl rfl
  | frozen before mem seq =>
    rw [mem]
    exact stands.newer (singleton_append).symm rfl rfl
  | checkpointed before derived =>
    rw [derived]
    exact stands.newer (singleton_append).symm rfl rfl
  | resumed before derived =>
    rw [derived]
    exact stands.newer (nil_append _).symm rfl rfl
  | @discarded target rest call found derived =>
    subst call
    cases target with
    | none => exact spared.elim
    | some id =>
      obtain ⟨newer, label, same⟩ := stands.chain
      rw [same] at found
      obtain ⟨left, rfl⟩ := discardTo_spares spared found
      rw [derived]
      exact ⟨⟨left, label, rfl⟩, stands.base, stands.inherited⟩
  | folded call derived =>
    subst call
    exact spared.elim

theorem tells_label (n : MemoryNode F S) (label : Option String) (id : Nat) :
    MemoryNode.tells id { n with label := label } = n.tells id := rfl

theorem tells_derived (id node : Nat) (parent : S) (fileName : String) (label : Option String) :
    MemoryNode.tells id (.deriveFrom node parent fileName label : MemoryNode F S) = none := by
  obtain ⟨held, deleted⟩ := RvfStore.derive_empty (F := F) parent id
  simp [MemoryNode.tells, MemoryNode.deriveFrom, MemoryNode.wrap, RvfStore.live_held, held]

theorem visible_derived (before : m.working = some n) (working : m'.working = some (.deriveFrom node parent file fresh))
    (chain : m'.ancestors = { n with label := label } :: m.ancestors) (base : m'.base = m.base)
    (inherited : m'.inherited = m.inherited) : visible m' = visible m := by
  funext id
  have same : (chainPriorityOrder m').findSome? (MemoryNode.tells id) =
      (chainPriorityOrder m).findSome? (MemoryNode.tells id) := by
    simp only [chainPriorityOrder, before, working, chain, base, inherited, Option.toList_some, cons_append,
      nil_append, findSome?_cons, tells_derived, tells_label]
  rw [visible, visible, visibleIn, visibleIn, same]

/-! ### A checkpoint that is gone -/

/-- No node of the lineage has the id `c`, and none will get it. -/
structure Gone (c : CheckpointId) (w : World F S) : Prop where
  absent : ∀ n ∈ own w.mem, n.id ≠ c
  passed : c < w.nodeSeq

variable {c : CheckpointId}

theorem Gone.derive (passed : c < w.nodeSeq) (absent : ∀ n ∈ m.ancestors, n.id ≠ c) : Gone c (w.derive m) where
  absent n listed := by
    obtain rfl | listed := mem_cons.mp listed
    · exact (ne_of_lt passed).symm
    · exact absent n listed
  passed := Nat.lt_succ_of_lt passed

theorem Gone.moves (gone : Gone c w) (moves : Moves w act w') : Gone c w' := by
  have checkpoints : ∀ n ∈ w.mem.ancestors, n.id ≠ c := fun n listed => gone.absent n (mem_append_right _ listed)
  have working : ∀ n, w.mem.working = some n → n.id ≠ c := fun n here =>
    gone.absent n (mem_append_left _ (by simp [here]))
  have grown : ∀ n label, w.mem.working = some n →
      ∀ o ∈ ({ n with label := label } : MemoryNode F S) :: w.mem.ancestors, o.id ≠ c := by
    intro n label before o listed
    obtain rfl | listed := mem_cons.mp listed
    · exact working n before
    · exact checkpoints o listed
  cases moves with
  | kept mem later => exact ⟨mem ▸ gone.absent, gone.passed.trans_le later⟩
  | @written n n' before writes mem seq =>
    refine ⟨?_, seq ▸ gone.passed⟩
    rw [mem]
    intro o listed
    obtain rfl | listed := mem_cons.mp listed
    · exact writes.id_eq ▸ working n before
    · exact checkpoints o listed
  | @frozen n label before mem seq =>
    refine ⟨?_, seq ▸ gone.passed⟩
    rw [mem]
    exact grown n _ before
  | @checkpointed n label before derived => exact derived ▸ .derive gone.passed (grown n _ before)
  | resumed before derived => exact derived ▸ .derive gone.passed checkpoints
  | discarded call found derived =>
    exact derived ▸ .derive gone.passed fun n listed => checkpoints n ((discardTo_suffix found).subset listed)
  | folded call derived => exact derived ▸ .derive gone.passed (by simp)

theorem Gone.rollback (gone : Gone c w) : ∃ refusal, rollback (some c) w = (.error refusal, w) := by
  unfold Lineage.rollback
  split
  · exact ⟨_, rfl⟩
  · rw [discardTo_absent fun n listed => gone.absent n (mem_append_right _ listed)]
    exact ⟨_, rfl⟩

/-- A promote, or a rollback to the base or to a checkpoint older than those taken over `m`. -/
def passes (m : BranchableMemory F S) : Act F → Prop
  | .promote | .rollback none => True
  | .rollback (some id) => id ∈ m.ancestors.map (·.id)
  | _ => False

omit [RvfStore F S] in
theorem Numbered.frozen (numbered : Numbered w) : (w.mem.ancestors.map (·.id)).Nodup :=
  numbered.distinct.sublist ((sublist_append_right _ _).map _)

omit [RvfStore F S] in
/-- The id of a checkpoint that stands belongs to no other, and has been given out. -/
theorem Stands.alone (numbered : Numbered w) (stands : Stands m n w.mem) :
    ∃ newer label, w.mem.ancestors = newer ++ { n with label := label } :: m.ancestors ∧ n.id < w.nodeSeq ∧
      n.id ∉ newer.map (·.id) ∧ n.id ∉ m.ancestors.map (·.id) ∧
      ∀ id ∈ m.ancestors.map (·.id), id ∉ newer.map (·.id) := by
  obtain ⟨newer, label, same⟩ := stands.chain
  have listed : ({ n with label := label } : MemoryNode F S) ∈ own w.mem := by simp [own, same]
  have below := numbered.below _ listed
  have distinct := numbered.frozen
  rw [same, map_append, map_cons, nodup_append, nodup_cons] at distinct
  obtain ⟨-, ⟨behind, -⟩, apart⟩ := distinct
  exact ⟨newer, label, same, below, fun among => apart _ among _ mem_cons_self rfl, behind,
    fun id older among => apart id among id (mem_cons_of_mem _ older) rfl⟩

theorem Stands.passed (numbered : Numbered w) (stands : Stands m n w.mem) (open_ : w.mem.working.isSome = true)
    (past : passes m act) : Gone n.id (step normalize w act) := by
  obtain ⟨newer, label, same, later, -, behind, older⟩ := stands.alone numbered
  obtain ⟨working, here⟩ := Option.isSome_iff_exists.mp open_
  cases act with
  | promote =>
    simp only [step, promote, here]
    exact .derive later (by simp)
  | rollback target =>
    cases target with
    | none =>
      simp only [step, rollback, here, discardTo]
      exact .derive later (by simp)
    | some id =>
      -- the first node of that id is behind `n`, and so is all that is left
      have apart : id ∉ (newer ++ [({ n with label := label } : MemoryNode F S)]).map (·.id) := by
        rw [map_append, mem_append, map_singleton, mem_singleton]
        rintro (among | rfl)
        · exact older id past among
        · exact behind past
      obtain ⟨rest, found⟩ := discardTo_mem past
      have left : discardTo (some id) w.mem.ancestors = .ok rest := by
        rw [same, ← singleton_append, ← append_assoc, discardTo_past apart, found]
      simp only [step, rollback, here, left]
      apply Gone.derive later
      intro o listed number
      exact behind (number ▸ mem_map_of_mem ((discardTo_suffix found).subset listed))
  | ingest | delete | checkpoint | pause | resume | branch | fork | elsewhere => exact past.elim

theorem Stands.restored (before : m.working = some n) (numbered : Numbered w) (stands : Stands m n w.mem)
    (open_ : w.mem.working.isSome = true) :
    ∃ w', rollback (some n.id) w = (.ok (), w') ∧ visible w'.mem = visible m := by
  obtain ⟨working, here⟩ := Option.isSome_iff_exists.mp open_
  obtain ⟨newer, label, same, -, apart, -⟩ := stands.alone numbered
  have found : discardTo (some n.id) w.mem.ancestors = .ok ({ n with label := label } :: m.ancestors) := by
    rw [same]
    exact @discardTo_self _ _ { n with label := label } newer m.ancestors apart
  refine ⟨_, by simp only [rollback, here, found]; rfl, ?_⟩
  exact visible_derived before rfl rfl stands.base stands.inherited

/-- A rollback to a checkpoint restores what was visible when it was taken; once a promote or a rollback has
passed it, a rollback to it is refused and changes nothing. -/
theorem rollback_restores {w w₁ : World F S} (reached : Reachable normalize w) {label : String} {c : CheckpointId}
    (taken : checkpoint label w = (.ok c, w₁)) (later : List (Act F)) (spared : ∀ act ∈ later, spares w.mem act)
    (open_ : (Run.run (step normalize) w₁ later).mem.working.isSome = true) :
    (∃ w₂, rollback (some c) (Run.run (step normalize) w₁ later) = (.ok (), w₂) ∧ visible w₂.mem = visible w.mem) ∧
    ∀ past, passes w.mem past → ∀ rest,
      ∃ w₂ refusal, w₂ = Run.run (step normalize) w₁ (later ++ past :: rest) ∧
        rollback (some c) w₂ = (.error refusal, w₂) := by
  unfold checkpoint at taken
  split at taken
  · cases taken
  · next n before =>
    obtain ⟨same, rfl⟩ := Prod.mk.inj taken
    obtain rfl := Except.ok.inj same
    let frozen := w.derive { w.mem with ancestors := { n with label := some label } :: w.mem.ancestors }
    have numbered : Numbered frozen := by
      refine (numbered_reachable reached).derive ?_
      simp [own, before]
    have stands : Stands w.mem n frozen.mem := ⟨⟨[], some label, rfl⟩, rfl, rfl⟩
    have keeps : ∀ v act, Numbered v ∧ Stands w.mem n v.mem → spares w.mem act →
        Numbered (step normalize v act) ∧ Stands w.mem n (step normalize v act).mem := fun v act inv spared =>
      ⟨inv.1.moves (step_moves normalize v act), inv.2.moves spared (step_moves normalize v act)⟩
    obtain ⟨numbered, stands⟩ := Run.run_keeps_mem keeps ⟨numbered, stands⟩ spared
    refine ⟨stands.restored before numbered open_, fun past passed rest => ?_⟩
    have gone : Gone n.id (Run.run (step normalize) frozen (later ++ past :: rest)) := by
      rw [Run.run_append, Run.run_cons]
      exact Run.run_always (fun v act gone => gone.moves (step_moves normalize v act)) rest
        (stands.passed numbered open_ passed)
    obtain ⟨refusal, refused⟩ := gone.rollback
    exact ⟨_, refusal, rfl, refused⟩

def kept : World Int (ListStore Int) :=
  step id (madeWorld 1) (.ingest [⟨some 7, [1], none, []⟩])

def overwritten : List (Act Int) :=
  [.ingest [⟨some 7, [-1], none, []⟩], .checkpoint "later", .delete [7], .pause "parked", .resume,
    .ingest [⟨some 8, [1], none, []⟩], .rollback (some 3)]

theorem rollback_restores_overwritten :
    ∃ w₁ w₂, checkpoint "turn" kept = (.ok 2, w₁) ∧
      rollback (some 2) (Run.run (step id) w₁ overwritten) = (.ok (), w₂) ∧ visible w₂.mem 7 = some [1] := by
  have reached : Reachable id kept := .step _ (madeWorld_reached id (by decide))
  have taken : checkpoint "turn" kept = (.ok 2, (checkpoint "turn" kept).2) := rfl
  have spared : ∀ act ∈ overwritten, spares kept.mem act := by
    simp only [overwritten, forall_mem_cons, spares, true_and]
    exact ⟨by decide, by simp⟩
  obtain ⟨⟨w₂, restored, same⟩, -⟩ := rollback_restores reached taken overwritten spared (by decide +kernel)
  exact ⟨_, w₂, taken, restored, by rw [same]; decide +kernel⟩

end Weftos.Memory.Rollback
