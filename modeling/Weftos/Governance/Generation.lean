import Weftos.Governance.Rollback

/-! Gate checks beside reloads and pushed policies. Every lock acquisition and every write is a step of its
own, in any order the locks allow. -/

namespace Weftos.Governance.Generation
open Lib.Bytes Lib.Json Lib.Outcome
open Chain.Event Chain.Local
open Chain.Invariant (push_events)
open Rules Engine Policy Merge
open Gate Trust Governance.Runtime

/-- A check that holds the read lock, with what it evaluated so far. -/
structure Reader (F : Type) where
  id : Nat
  request : GovernanceRequest F
  evaluated : Option (GovernanceEngine F × GovernanceResult F)

inductive Kind (F : Type) where
  | reload
  | parentUpdate (policy : ParentPolicy F)

inductive Phase (F : Type) where
  | locked
  | planned (plan : ParentPolicy F × Overlay F) (e : Effective F)
  | pinned (plan : ParentPolicy F × Overlay F) (e : Effective F)
  | writing (plan : ParentPolicy F × Overlay F) (e : Effective F)
  | swapped (plan : ParentPolicy F × Overlay F) (e : Effective F)
  | published (plan : ParentPolicy F × Overlay F) (e : Effective F)
  | released (plan : ParentPolicy F × Overlay F) (e : Effective F)
  | stored (e : Effective F)
  | refused (refusal : OverlayError)

/-- The operation that holds the state lock; `entry` is the runtime it found. -/
structure Holder (F : Type) where
  kind : Kind F
  entry : OverlayRuntime F
  phase : Phase F

structure Decision (F : Type) where
  request : GovernanceRequest F
  engine : GovernanceEngine F
  result : GovernanceResult F
  event : ChainEvent

structure Shared (F : Type) where
  rt : OverlayRuntime F
  disk : Disk
  chain : LocalChain
  readers : List (Reader F)
  holder : Option (Holder F)
  decisions : List (Decision F)

/-- `seen` is what an operation reads from the files, `allows` what the rate limiter
answers, `written` how the write of the pin ends. -/
inductive Label (F : Type) where
  | beginCheck (id : Nat) (agentId action : String) (context : Value)
  | evaluate (id : Nat) (allows : String → Bool)
  | conclude (id : Nat) (now : Timestamp)
  | lockState (kind : Kind F)
  | plan (seen : Disk)
  | pin (written : Except String Unit)
  | lockGate
  | replaceGate
  | setCell
  | unlockGate
  | store
  | record (now : Timestamp)
  | tamper (disk : Disk)
  | append (source kind : String) (payload : Option Value) (now : Timestamp)

def Kind.source {F : Type} : Kind F → String
  | .reload => "reload"
  | .parentUpdate _ => "parent.update"

def Shared.phase {F : Type} (s : Shared F) : Option (Phase F) := s.holder.map (·.phase)

def Phase.locksGate {F : Type} : Phase F → Bool
  | .writing .. | .swapped .. | .published .. => true
  | _ => false

def Shared.writeLocked {F : Type} (s : Shared F) : Bool := s.phase.any Phase.locksGate

def Shared.setPhase {F : Type} (s : Shared F) (phase : Phase F) : Shared F :=
  { s with holder := s.holder.map fun holder => { holder with phase := phase } }

theorem append_events_subset (h : Hashing) (chain : LocalChain) (source kind : String) (payload : Option Value)
    (now : Timestamp) (stamp : Option Digest) :
    chain.events ⊆ (chain.append h source kind payload now stamp).1.events := by
  intro e listed
  rw [LocalChain.append, LocalChain.appendWithKey, push_events]
  exact List.mem_append_left _ listed

theorem record_events_subset {F : Type} (platform : Platform F) (chain : LocalChain) (rt : OverlayRuntime F)
    (result : Except OverlayError Applied) (source : String) (now : Timestamp) :
    chain.events ⊆ (Runtime.record platform chain rt result source now).events := by
  cases result <;> exact append_events_subset ..

theorem holder_of_phase {F : Type} {s : Shared F} {phase : Phase F} (found : s.phase = some phase) :
    ∃ kind entry, s.holder = some ⟨kind, entry, phase⟩ := by
  obtain ⟨⟨kind, entry, _⟩, held, rfl⟩ := Option.map_eq_some_iff.mp found
  exact ⟨kind, entry, held⟩

theorem setPhase_holder {F : Type} {s : Shared F} {kind : Kind F} {entry : OverlayRuntime F} {old : Phase F}
    (held : s.holder = some ⟨kind, entry, old⟩) (phase : Phase F) :
    (s.setPhase phase).holder = some ⟨kind, entry, phase⟩ := by
  rw [Shared.setPhase, held]
  rfl

section
variable {F : Type} [Scalar F] (platform : Platform F) (host : GateHost F) (inst : InstanceProject)

def Kind.plan (kind : Kind F) (rt : OverlayRuntime F) (seen : Disk) :
    Except OverlayError (ParentPolicy F × Overlay F) :=
  match kind with
  | .reload => reloadPlan platform rt seen
  | .parentUpdate policy => updatePlan platform rt seen policy

def Kind.decide (kind : Kind F) (rt : OverlayRuntime F) (seen : Disk) :
    Except OverlayError ((ParentPolicy F × Overlay F) × Effective F) := do
  let plan ← kind.plan platform rt seen
  let e ← mergeLocked platform rt plan
  pure (plan, e)

def Reader.evaluate (gate : GovernanceGate F) (allows : String → Bool) (reader : Reader F) : Reader F :=
  match reader.evaluated with
  | some _ => reader
  | none =>
    let engine := { gate.engine with evalAllows := allows }
    { reader with evaluated := some (engine, engine.evaluate inst reader.request) }

def decisionEvent (s : Shared F) (request : GovernanceRequest F) (result : GovernanceResult F) (now : Timestamp) :
    LocalChain × ChainEvent :=
  s.chain.append platform.hashing "governance" (s.rt.gate.verdictFields request.action result).1
    (some (s.rt.gate.eventPayload host request result)) now s.rt.cell

/-- One step. A step whose lock is taken, or that is not next for its thread, does
nothing: it waits. -/
def Shared.step (s : Shared F) : Label F → Shared F
  | .beginCheck id agentId action context =>
    if s.writeLocked || s.readers.any (·.id = id) then s
    else { s with readers := ⟨id, gateRequest host inst agentId action context, none⟩ :: s.readers }
  | .evaluate id allows =>
    { s with readers := s.readers.map fun reader =>
        if reader.id = id then reader.evaluate inst s.rt.gate allows else reader }
  | .conclude id now =>
    match s.readers.find? (·.id = id) with
    | some ⟨_, request, some (engine, result)⟩ =>
      { s with
        chain := (decisionEvent platform host s request result now).1
        readers := s.readers.filter (·.id ≠ id)
        decisions := s.decisions ++ [⟨request, engine, result, (decisionEvent platform host s request result now).2⟩] }
    | _ => s
  | .lockState kind =>
    match s.holder with
    | none => { s with holder := some ⟨kind, s.rt, .locked⟩ }
    | some _ => s
  | .plan seen =>
    match s.holder with
    | some ⟨kind, _, .locked⟩ =>
      match kind.decide platform s.rt seen with
      | .ok (plan, e) => s.setPhase (.planned plan e)
      | .error refusal => s.setPhase (.refused refusal)
    | _ => s
  | .pin written =>
    match s.phase with
    | some (.planned plan e) =>
      match pinLocked s.rt s.disk plan.1 written with
      | .ok disk => ({ s with disk := disk }).setPhase (.pinned plan e)
      | .error refusal => s.setPhase (.refused refusal)
    | _ => s
  | .lockGate =>
    match s.phase, s.readers with
    | some (.pinned plan e), [] => s.setPhase (.writing plan e)
    | _, _ => s
  | .replaceGate =>
    match s.phase with
    | some (.writing plan e) =>
      ({ s with rt := { s.rt with gate := (GovernanceGate.ofEffective e).inheritConfig s.rt.gate } }).setPhase
        (.swapped plan e)
    | _ => s
  | .setCell =>
    match s.phase with
    | some (.swapped plan e) =>
      ({ s with rt := { s.rt with cell := some e.effectiveHash } }).setPhase (.published plan e)
    | _ => s
  | .unlockGate =>
    match s.phase with
    | some (.published plan e) => s.setPhase (.released plan e)
    | _ => s
  | .store =>
    match s.phase with
    | some (.released plan e) => ({ s with rt := s.rt.store plan e }).setPhase (.stored e)
    | _ => s
  | .record now =>
    match s.holder with
    | some ⟨kind, _, .stored e⟩ =>
      { s with
        chain := Runtime.record platform s.chain s.rt (.ok (Applied.of e s.rt.boot)) kind.source now
        holder := none }
    | some ⟨kind, _, .refused refusal⟩ =>
      { s with
        chain := Runtime.record platform s.chain s.rt (.error refusal) kind.source now
        holder := none }
    | _ => s
  | .tamper disk => { s with disk := disk }
  | .append source kind payload now =>
    { s with chain := (s.chain.append platform.hashing source kind payload now s.rt.cell).1 }

def Shared.run (s : Shared F) (labels : List (Label F)) : Shared F := labels.foldl (Shared.step platform host inst) s

/-- The state a boot leaves: the gate has the prepared rules and parameters, and what
the kernel configured on top of them. -/
def Shared.boot (p : Prepared F) (config : GovernanceGate F) (disk : Disk) (chain : LocalChain) (now : Timestamp) :
    Shared F :=
  let started := p.intoRuntime platform ((GovernanceGate.ofEffective p.effective).inheritConfig config) chain now
  ⟨started.1, disk, started.2, [], none, []⟩

/-! ### The invariant -/

def core (engine : GovernanceEngine F) : List GovernanceRule × F × Bool :=
  (engine.rules, engine.riskThreshold, engine.humanApprovalRequired)

def effectiveCore (e : Effective F) : List GovernanceRule × F × Bool :=
  (e.rules, e.riskThreshold DEFAULT_RISK_THRESHOLD, e.humanApproval false)

structure Serves (rt : OverlayRuntime F) (plan : ParentPolicy F × Overlay F) (e : Effective F) : Prop where
  merged : merge platform.canon plan.1 plan.2 = .ok e
  rules : core rt.gate.engine = effectiveCore e
  cell : rt.cell = some e.effectiveHash

/-- Gate, cell and stored policy belong to the merge of the stored parent and overlay. -/
def Current (rt : OverlayRuntime F) : Prop := Serves platform rt (rt.state.parent, rt.state.overlay) rt.state.effective

def PhaseHolds (rt : OverlayRuntime F) : Option (Holder F) → Prop
  | none => Current platform rt
  | some ⟨_, entry, phase⟩ =>
    match phase with
    | .locked | .refused _ => Current platform rt ∧ rt = entry
    | .planned plan e | .pinned plan e | .writing plan e =>
      Current platform rt ∧ rt = entry ∧ merge platform.canon plan.1 plan.2 = .ok e
    | .swapped plan e => merge platform.canon plan.1 plan.2 = .ok e ∧ core rt.gate.engine = effectiveCore e
    | .published plan e | .released plan e => Serves platform rt plan e
    | .stored e => Current platform rt ∧ rt.state.effective = e

/-- The event is on the chain, the engine made the result, and the stamp is the
effective hash of the merge the engine's rules come from. -/
def Justified (chain : LocalChain) (d : Decision F) : Prop :=
  d.event ∈ chain.events ∧ d.result = d.engine.evaluate inst d.request ∧
    ∃ parent overlay e, merge platform.canon parent overlay = .ok e ∧ core d.engine = effectiveCore e ∧
      d.event.ruleHash = some e.effectiveHash

structure Inv (s : Shared F) : Prop where
  phase : PhaseHolds platform s.rt s.holder
  exclusion : s.writeLocked = true → s.readers = []
  readers : ∀ reader ∈ s.readers, ∀ engine result, reader.evaluated = some (engine, result) →
    core engine = core s.rt.gate.engine ∧ result = engine.evaluate inst reader.request
  decisions : ∀ d ∈ s.decisions, Justified platform inst s.chain d

variable {platform host inst} {s : Shared F} {kind : Kind F} {old : Phase F}

theorem Justified.later (justified : Justified platform inst chain d)
    (kept : chain.events ⊆ next.events) : Justified platform inst next d :=
  ⟨kept justified.1, justified.2⟩

/-- Whenever a check may hold the gate, gate and cell belong to one merge: the stored
one, or the one whose operation has yet to store it. -/
theorem PhaseHolds.serves (holds : PhaseHolds platform s.rt s.holder) (unlocked : s.writeLocked = false) :
    ∃ plan e, Serves platform s.rt plan e ∧
      (s.rt.state = ⟨plan.1, plan.2, e⟩ ∨ s.phase = some (.released plan e)) := by
  rcases held : s.holder with _ | ⟨kind, entry, phase⟩
  · rw [held] at holds
    exact ⟨_, _, holds, .inl rfl⟩
  · rw [held] at holds
    have here : s.phase = some phase := by rw [Shared.phase, held]; rfl
    cases phase with
    | locked | refused refusal | planned plan e | pinned plan e | stored e => exact ⟨_, _, holds.1, .inl rfl⟩
    | released plan e => exact ⟨plan, e, holds, .inr here⟩
    | writing plan e | swapped plan e | published plan e => simp [Shared.writeLocked, here, Phase.locksGate] at unlocked

section
variable (inv : Inv platform inst s)
include inv

/-- An operation moves on to its next phase: it appends nothing, and changes the gate
only while no check holds it. -/
theorem Inv.toPhase (next : Shared F) (phase : Phase F) (found : s.phase = some old)
    (holder : next.holder = s.holder) (chain : next.chain = s.chain) (decisions : next.decisions = s.decisions)
    (readers : next.readers = s.readers) (gate : next.rt.gate = s.rt.gate ∨ s.readers = [])
    (holds : ∀ kind entry, PhaseHolds platform s.rt (some ⟨kind, entry, old⟩) →
      PhaseHolds platform next.rt (some ⟨kind, entry, phase⟩))
    (exclusion : phase.locksGate = false ∨ s.readers = []) : Inv platform inst (next.setPhase phase) := by
  obtain ⟨kind, entry, held⟩ := holder_of_phase found
  have moved := setPhase_holder (holder.trans held) phase
  refine ⟨?_, ?_, ?_, ?_⟩
  · rw [moved]
    exact holds kind entry (held ▸ inv.phase)
  · rw [Shared.writeLocked, Shared.phase, moved]
    intro locked
    change phase.locksGate = true at locked
    rcases exclusion with free | empty
    · rw [free] at locked
      cases locked
    · exact readers.trans empty
  · intro reader listed engine result evaluated
    change reader ∈ next.readers at listed
    rw [readers] at listed
    rcases gate with same | empty
    · change core engine = core next.rt.gate.engine ∧ _
      rw [same]
      exact inv.readers reader listed engine result evaluated
    · rw [empty] at listed
      cases listed
  · change ∀ d ∈ next.decisions, Justified platform inst next.chain d
    rw [chain, decisions]
    exact inv.decisions

theorem evaluate_inv (id : Nat) (allows : String → Bool) :
    Inv platform inst (s.step platform host inst (.evaluate id allows)) where
  phase := inv.phase
  exclusion locked := by
    have empty := inv.exclusion locked
    simp [Shared.step, empty]
  readers := by
    intro reader listed engine result evaluated
    obtain ⟨old, member, rfl⟩ := List.mem_map.mp listed
    have earlier := inv.readers old member engine result
    split_ifs at evaluated ⊢ with same
    · unfold Reader.evaluate at evaluated ⊢
      cases done : old.evaluated with
      | some pair =>
        simp only [done] at evaluated ⊢
        exact earlier (done.trans evaluated)
      | none =>
        simp only [done, Option.some.injEq, Prod.mk.injEq] at evaluated ⊢
        obtain ⟨rfl, rfl⟩ := evaluated
        exact ⟨rfl, rfl⟩
    · exact earlier evaluated
  decisions := inv.decisions

/-- The event a check appends is stamped from the cell, and the cell cannot have moved
since the check took the read lock. -/
theorem conclude_inv (id : Nat) (now : Timestamp) :
    Inv platform inst (s.step platform host inst (.conclude id now)) := by
  rw [Shared.step]
  split
  · next request engine result found =>
    have member := List.mem_of_find?_eq_some found
    obtain ⟨sameCore, sameResult⟩ := inv.readers _ member engine result rfl
    have unlocked : s.writeLocked = false := by
      by_contra locked
      rw [Bool.not_eq_false] at locked
      rw [inv.exclusion locked] at member
      cases member
    obtain ⟨plan, e, serves, -⟩ := inv.phase.serves unlocked
    refine ⟨inv.phase, ?_, ?_, ?_⟩
    · intro locked
      have held : s.writeLocked = true := locked
      rw [unlocked] at held
      cases held
    · intro reader listed
      exact inv.readers reader (List.mem_filter.mp listed).1
    · intro d listed
      rcases List.mem_append.mp listed with earlier | last
      · exact (inv.decisions d earlier).later (append_events_subset ..)
      · rw [List.mem_singleton.mp last]
        refine ⟨?_, sameResult, plan.1, plan.2, e, serves.merged, sameCore.trans serves.rules, serves.cell⟩
        simp [decisionEvent, LocalChain.append, LocalChain.appendWithKey]
  · exact inv

theorem beginCheck_inv (id : Nat) (agentId action : String) (context : Value) :
    Inv platform inst (s.step platform host inst (.beginCheck id agentId action context)) := by
  rw [Shared.step]
  split_ifs with refused
  · exact inv
  · refine ⟨inv.phase, ?_, ?_, inv.decisions⟩
    · intro locked
      have held : s.writeLocked = true := locked
      simp [held] at refused
    · intro reader listed engine result evaluated
      rcases List.mem_cons.mp listed with rfl | earlier
      · cases evaluated
      · exact inv.readers reader earlier engine result evaluated

/-! ### Steps of an operation -/

theorem lockState_inv (kind : Kind F) :
    Inv platform inst (s.step platform host inst (.lockState kind)) := by
  rw [Shared.step]
  split
  · next free =>
    have current := inv.phase
    rw [free] at current
    exact ⟨⟨current, rfl⟩, nofun, inv.readers, inv.decisions⟩
  · exact inv

theorem plan_inv (seen : Disk) :
    Inv platform inst (s.step platform host inst (.plan seen)) := by
  rw [Shared.step]
  split
  · next kind entry held =>
    have found : s.phase = some .locked := by rw [Shared.phase, held]; rfl
    split
    · next plan e decided =>
      simp only [Kind.decide, mergeLocked, bind_ok_iff, pure_ok_iff] at decided
      obtain ⟨_, _, _, ⟨_, _, merged⟩, same⟩ := decided
      cases same
      exact inv.toPhase _ _ found rfl rfl rfl rfl (.inl rfl) (fun _ _ here => ⟨here.1, here.2, merged⟩) (.inl rfl)
    · exact inv.toPhase _ _ found rfl rfl rfl rfl (.inl rfl) (fun _ _ here => here) (.inl rfl)
  · exact inv

theorem Inv.unread (found : s.phase = some old) (locks : old.locksGate = true) : s.readers = [] := by
  apply inv.exclusion
  rw [Shared.writeLocked, found]
  exact locks

theorem record_inv (now : Timestamp) :
    Inv platform inst (s.step platform host inst (.record now)) := by
  have here := inv.phase
  rw [Shared.step]
  split
  · next kind entry e held =>
    rw [held] at here
    exact ⟨here.1, nofun, inv.readers, fun d listed =>
      (inv.decisions d listed).later (record_events_subset ..)⟩
  · next kind entry refusal held =>
    rw [held] at here
    exact ⟨here.1, nofun, inv.readers, fun d listed =>
      (inv.decisions d listed).later (record_events_subset ..)⟩
  · exact inv

theorem step_inv (label : Label F) :
    Inv platform inst (s.step platform host inst label) := by
  cases label with
  | beginCheck id agentId action context => exact beginCheck_inv inv id agentId action context
  | evaluate id allows => exact evaluate_inv inv id allows
  | conclude id now => exact conclude_inv inv id now
  | lockState kind => exact lockState_inv inv kind
  | plan seen => exact plan_inv inv seen
  | pin written =>
    rw [Shared.step]
    split
    · next plan e found =>
      split
      · exact inv.toPhase _ _ found rfl rfl rfl rfl (.inl rfl) (fun _ _ here => here) (.inl rfl)
      · exact inv.toPhase _ _ found rfl rfl rfl rfl (.inl rfl) (fun _ _ here => ⟨here.1, here.2.1⟩) (.inl rfl)
    · exact inv
  | lockGate =>
    rw [Shared.step]
    split
    · next plan e found empty =>
      exact inv.toPhase _ _ found rfl rfl rfl rfl (.inl rfl) (fun _ _ here => here) (.inr empty)
    · exact inv
  | replaceGate =>
    rw [Shared.step]
    split
    · next plan e found =>
      have empty := inv.unread found rfl
      exact inv.toPhase _ _ found rfl rfl rfl rfl (.inr empty) (fun _ _ here => ⟨here.2.2, rfl⟩) (.inr empty)
    · exact inv
  | setCell =>
    rw [Shared.step]
    split
    · next plan e found =>
      exact inv.toPhase _ _ found rfl rfl rfl rfl (.inl rfl) (fun _ _ here => ⟨here.1, here.2, rfl⟩)
        (.inr (inv.unread found rfl))
    · exact inv
  | unlockGate =>
    rw [Shared.step]
    split
    · next plan e found =>
      exact inv.toPhase _ _ found rfl rfl rfl rfl (.inl rfl) (fun _ _ here => here) (.inl rfl)
    · exact inv
  | store =>
    rw [Shared.step]
    split
    · next plan e found =>
      exact inv.toPhase _ _ found rfl rfl rfl rfl (.inl rfl)
        (fun _ _ here => ⟨⟨here.merged, here.rules, here.cell⟩, rfl⟩) (.inl rfl)
    · exact inv
  | record now => exact record_inv inv now
  | tamper disk => exact ⟨inv.phase, inv.exclusion, inv.readers, inv.decisions⟩
  | append =>
    exact ⟨inv.phase, inv.exclusion, inv.readers, fun d listed =>
      (inv.decisions d listed).later (append_events_subset ..)⟩

theorem run_inv (labels : List (Label F)) :
    Inv platform inst (s.run platform host inst labels) := by
  induction labels generalizing s with
  | nil => exact inv
  | cons label rest ih => exact ih (step_inv inv label)

end

theorem boot_inv (prepared : prepareWith platform disk nested paths key userPin parent = .ok p)
    (config : GovernanceGate F) (left : Disk) (chain : LocalChain) (now : Timestamp) :
    Inv platform inst (Shared.boot platform p config left chain now) := by
  obtain ⟨merged, cell, _⟩ := prepareWith_carries platform prepared
  refine ⟨⟨merged, rfl, cell⟩, ?_, ?_, ?_⟩
  · intro locked
    cases locked
  · intro reader listed
    cases listed
  · intro d listed
    cases listed

/-! ### One operation -/

def operation (kind : Kind F) (seen : Disk) (written : Except String Unit) (now : Timestamp) : List (Label F) :=
  [.lockState kind, .plan seen, .pin written, .lockGate, .replaceGate, .setCell, .unlockGate, .store, .record now]

theorem operation_eq_attempt (free : s.holder = none) (idle : s.readers = []) (kind : Kind F)
    (written : Except String Unit) (now : Timestamp) :
    let left := attempt platform s.rt s.disk s.chain (kind.plan platform s.rt s.disk) kind.source written now
    s.run platform host inst (operation kind s.disk written now) =
      { s with rt := left.1, disk := left.2.1, chain := left.2.2.1 } := by
  obtain ⟨rt, disk, chain, readers, holder, decisions⟩ := s
  cases free
  cases idle
  -- the outcome of each fallible stage, in both descriptions
  rcases planned : kind.plan platform rt disk with refusal | plan
  · have decided : kind.decide platform rt disk = .error refusal := by rw [Kind.decide, planned]; rfl
    simp only [Shared.run, operation, List.foldl, Shared.step, decided]
    rfl
  rcases merged : mergeLocked platform rt plan with refusal | e
  · have decided : kind.decide platform rt disk = .error refusal := by
      simp only [Kind.decide, planned, merged, bind, Except.bind]
    have refused : applyLocked platform rt disk plan written = .error refusal := by rw [applyLocked, merged]; rfl
    simp only [Shared.run, operation, List.foldl, Shared.step, decided, attempt, bind, Except.bind, refused]
    rfl
  have decided : kind.decide platform rt disk = .ok (plan, e) := by
    simp only [Kind.decide, planned, merged, bind, Except.bind]
    rfl
  rcases pinned : pinLocked rt disk plan.1 written with refusal | left
  · have refused : applyLocked platform rt disk plan written = .error refusal := by
      simp only [applyLocked, merged, pinned, bind, Except.bind]
    simp only [Shared.run, operation, List.foldl, Shared.step, decided, attempt, bind, Except.bind, refused,
      Shared.setPhase, Shared.phase, Option.map, pinned]
  · have applied : applyLocked platform rt disk plan written =
        .ok ((rt.swap e).store plan e, left, Applied.of e rt.boot) := by
      simp only [applyLocked, merged, pinned, bind, Except.bind]
      rfl
    simp only [Shared.run, operation, List.foldl, Shared.step, decided, attempt, bind, Except.bind, applied,
      Shared.setPhase, Shared.phase, Option.map, pinned]
    rfl

theorem step_entry {entry : OverlayRuntime F} (held : s.holder = some ⟨kind, entry, old⟩) {label : Label F}
    (busy : ∀ now, label ≠ .record now) :
    ∃ phase, (s.step platform host inst label).holder = some ⟨kind, entry, phase⟩ := by
  cases label with
  | record now => exact absurd rfl (busy now)
  | beginCheck | conclude =>
    rw [Shared.step]
    split <;> exact ⟨old, held⟩
  | evaluate | tamper | append => exact ⟨old, held⟩
  | lockState =>
    rw [Shared.step, held]
    exact ⟨old, held⟩
  | plan | pin =>
    rw [Shared.step]
    split
    · split <;> exact ⟨_, setPhase_holder (by exact held) _⟩
    · exact ⟨old, held⟩
  | lockGate | replaceGate | setCell | unlockGate | store =>
    rw [Shared.step]
    split
    · exact ⟨_, setPhase_holder (by exact held) _⟩
    · exact ⟨old, held⟩

theorem run_entry (held : s.holder = some ⟨kind, entry, old⟩)
    (busy : ∀ label ∈ labels, ∀ now, label ≠ .record now) :
    ∃ phase, (s.run platform host inst labels).holder = some ⟨kind, entry, phase⟩ := by
  induction labels generalizing s old with
  | nil => exact ⟨old, held⟩
  | cons label rest ih =>
    rw [List.forall_mem_cons] at busy
    obtain ⟨phase, next⟩ := step_entry held busy.1
    exact ih next busy.2

variable (platform host inst)

/-- One generation at a time, from any boot and along any interleaving: gate, cell and stored policy belong to
one merge, a refusal changes nothing but the chain, and every decision is stamped with the hash of the rules
that made it. -/
theorem one_generation {disk : Disk} {nested userPin : Bool} {paths : RuntimePaths} {key : Digest}
    {parent : ParentPolicy F} {p : Prepared F}
    (prepared : prepareWith platform disk nested paths key userPin parent = .ok p) (config : GovernanceGate F)
    (left : Disk) (chain : LocalChain) (start : Timestamp) (labels : List (Label F)) :
    let s := (Shared.boot platform p config left chain start).run platform host inst labels
    (s.holder = none → Current platform s.rt) ∧
      (s.writeLocked = false → ∃ plan e, Serves platform s.rt plan e ∧
        (s.rt.state = ⟨plan.1, plan.2, e⟩ ∨ s.phase = some (.released plan e))) ∧
      (∀ kind during refusal, s.holder = none → (∀ label ∈ during, ∀ now, label ≠ .record now) →
        let failed := s.run platform host inst (.lockState kind :: during)
        failed.phase = some (.refused refusal) →
          failed.rt = s.rt ∧ ∀ now, failed.step platform host inst (.record now) =
            { failed with
              chain := Runtime.record platform failed.chain s.rt (.error refusal) kind.source now
              holder := none }) ∧
      ∀ d ∈ s.decisions, Justified platform inst s.chain d := by
  intro s
  have inv : Inv platform inst s :=
    run_inv (boot_inv prepared config left chain start) labels
  refine ⟨?_, inv.phase.serves, ?_, inv.decisions⟩
  · intro free
    have current := inv.phase
    rw [free] at current
    exact current
  · intro kind during refusal free busy failed ended
    have locked : (s.step platform host inst (.lockState kind)).holder = some ⟨kind, s.rt, .locked⟩ := by
      rw [Shared.step, free]
    obtain ⟨phase, held⟩ := run_entry locked busy
    change failed.holder = _ at held
    rw [Shared.phase, held] at ended
    cases ended
    have here : PhaseHolds platform failed.rt failed.holder := (run_inv inv (.lockState kind :: during)).phase
    rw [held] at here
    refine ⟨here.2, fun now => ?_⟩
    rw [Shared.step, held, here.2]

end

open Rollback (samplePlatform samplePolicy samplePaths sampleFile sampleDisk)

def bootDisk : Disk := sampleDisk (sampleFile "1") (sampleFile "ipc.send") .missing
def newerDisk : Disk := sampleDisk (sampleFile "2") (sampleFile "exec") (sampleFile "1")

def sampleHost : GateHost ℚ := ⟨fun _ => none, fun _ => .null, fun _ => ""⟩

def sampleBoot (p : Prepared ℚ) : Shared ℚ :=
  Shared.boot samplePlatform p ⟨⟨[], 7 / 10, false, fun _ => true, none⟩, []⟩ bootDisk
    (ChainManager.new .sample 0 0 .epoch) .epoch

/-- A reload comes up to the gate while a check holds it, waits for the check, and a
second check follows. -/
def interleaved : List (Label ℚ) :=
  [.beginCheck 0 "a" "ipc.send" .null, .lockState .reload, .evaluate 0 fun _ => true, .plan newerDisk, .pin (.ok ()),
    .lockGate, .conclude 0 .epoch, .lockGate, .beginCheck 1 "a" "ipc.send" .null, .replaceGate, .setCell, .unlockGate,
    .beginCheck 1 "a" "ipc.send" .null, .store, .evaluate 1 fun _ => true, .record .epoch, .conclude 1 .epoch]

def interleavedEnd (p : Prepared ℚ) : Shared ℚ := (sampleBoot p).run samplePlatform sampleHost none interleaved

theorem one_generation_interleaved :
    ∃ p, prepareWith samplePlatform bootDisk false samplePaths Digest.zero true (samplePolicy 1) = .ok p ∧
      (interleavedEnd p).rt.state.parent.version = 2 ∧ (interleavedEnd p).decisions.length = 2 ∧
      ((interleavedEnd p).decisions.map (·.event.ruleHash)).Nodup ∧
      Current samplePlatform (interleavedEnd p).rt ∧
      ∀ d ∈ (interleavedEnd p).decisions, Justified samplePlatform none (interleavedEnd p).chain d := by
  have boots : ∃ p, prepareWith samplePlatform bootDisk false samplePaths Digest.zero true (samplePolicy 1) = .ok p ∧
      (interleavedEnd p).rt.state.parent.version = 2 ∧ (interleavedEnd p).decisions.length = 2 ∧
      ((interleavedEnd p).decisions.map (·.event.ruleHash)).Nodup ∧ (interleavedEnd p).holder.isNone = true := by
    decide +kernel
  obtain ⟨p, prepared, version, two, distinct, free⟩ := boots
  have holds := one_generation samplePlatform sampleHost none prepared
    ⟨⟨[], 7 / 10, false, fun _ => true, none⟩, []⟩ bootDisk (ChainManager.new .sample 0 0 .epoch) .epoch interleaved
  exact ⟨p, prepared, version, two, distinct, holds.1 (Option.isNone_iff_eq_none.mp free), holds.2.2.2⟩

end Weftos.Governance.Generation
