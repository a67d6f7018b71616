import Weftos.Chain.Local

/-! The invariant every chain keeps from its genesis on, whatever is appended to it
and whoever built the event. -/

namespace Weftos.Chain.Invariant
open Lib.Bytes Lib.Json Lib.Log Event Local List LocalChain

variable (chain : LocalChain) (event : ChainEvent) (sequence since : UInt64) (now : Timestamp)

structure Sound (h : Hashing) (chain : LocalChain) : Prop where
  numbered : Numbered (fun e : ChainEvent => e.sequence.toNat) 0 chain.events
  oneChain : ∀ e ∈ chain.events, e.chainId = chain.chainId
  linked : Linked ChainEvent.prevHash ChainEvent.hash Digest.zero chain.events
  committed : ∀ e ∈ chain.events, Committed h e
  lastHash : chain.lastHash = tip ChainEvent.hash Digest.zero chain.events
  sequence : chain.sequence.toNat = chain.events.length
  counted : (chain.checkpoints.map (·.eventsSinceLast.toNat)).sum + chain.eventsSinceCheckpoint.toNat =
    chain.events.length

theorem new_sound (h : Hashing) (chainId : UInt32) (interval : UInt64) :
    Sound h (new chainId interval) where
  numbered := trivial
  oneChain := fun _ listed => absurd listed not_mem_nil
  linked := trivial
  committed := fun _ listed => absurd listed not_mem_nil
  lastHash := rfl
  sequence := rfl
  counted := rfl

variable {h : Hashing} {chain : LocalChain}

section
variable (chain : LocalChain) (now : Timestamp)

theorem createCheckpoint_sound (sound : Sound h chain) : Sound h (chain.createCheckpoint now) where
  numbered := sound.numbered
  oneChain := sound.oneChain
  linked := sound.linked
  committed := sound.committed
  lastHash := sound.lastHash
  sequence := sound.sequence
  counted := by
    have counted := sound.counted
    simpa [createCheckpoint] using counted

@[simp] theorem autoCheckpoint_events : (chain.autoCheckpoint now).events = chain.events := by
  unfold autoCheckpoint
  split_ifs <;> rfl

theorem autoCheckpoint_sound (sound : Sound h chain) : Sound h (chain.autoCheckpoint now) := by
  unfold autoCheckpoint
  split_ifs
  · exact createCheckpoint_sound chain now sound
  · exact sound

end

/-! ### Appends -/

theorem toNat_succ {value : UInt64} (room : value.toNat + 1 < 2 ^ 64) : (value + 1).toNat = value.toNat + 1 := by
  rw [UInt64.toNat_add]
  exact Nat.mod_eq_of_lt room

theorem saturatingSucc_toNat {value : UInt64} (room : value.toNat + 1 < 2 ^ 64) :
    (saturatingSucc value).toNat = value.toNat + 1 := by
  have below : value ≠ UInt64.ofNat (2 ^ 64 - 1) := by
    rintro rfl
    revert room
    decide
  rw [saturatingSucc, if_neg below, toNat_succ room]

/-- An event that continues the chain: what the local path builds and the signed path checks. -/
structure Continues (h : Hashing) (chain : LocalChain) (event : ChainEvent) : Prop where
  sequence : event.sequence = chain.sequence
  chainId : event.chainId = chain.chainId
  prevHash : event.prevHash = chain.lastHash
  committed : Committed h event

@[simp] theorem push_events :
    (chain.push event sequence since now).events = chain.events ++ [event] := by
  simp [push]

theorem push_sound {event : ChainEvent} {sequence since : UInt64} (sound : Sound h chain)
    (continues : Continues h chain event) (next : sequence.toNat = chain.sequence.toNat + 1)
    (counter : since.toNat = chain.eventsSinceCheckpoint.toNat + 1) :
    Sound h (chain.push event sequence since now) := by
  apply autoCheckpoint_sound
  constructor
  · refine (numbered_concat _ 0 chain.events event).mpr ⟨sound.numbered, ?_⟩
    rw [continues.sequence, sound.sequence, Nat.zero_add]
  · intro e listed
    rcases mem_append.mp listed with earlier | last
    · exact sound.oneChain e earlier
    · rw [mem_singleton.mp last, continues.chainId]
  · refine (linked_concat _ _ _ chain.events event).mpr ⟨sound.linked, ?_⟩
    rw [continues.prevHash, sound.lastHash]
  · intro e listed
    rcases mem_append.mp listed with earlier | last
    · exact sound.committed e earlier
    · rw [mem_singleton.mp last]
      exact continues.committed
  · simp
  · simp only [next, sound.sequence, length_append, length_singleton]
  · have counted := sound.counted
    simp only [counter, length_append, length_singleton]
    omega

theorem counters_room (sound : Sound h chain) (room : chain.events.length + 1 < 2 ^ 64) :
    chain.sequence.toNat + 1 < 2 ^ 64 ∧ chain.eventsSinceCheckpoint.toNat + 1 < 2 ^ 64 := by
  have sequence := sound.sequence
  have counted := sound.counted
  omega

theorem appendWithKey_sound (sound : Sound h chain) (room : chain.events.length + 1 < 2 ^ 64)
    (source kind : String) (payload : Option Value) (key : Option Digest) (now : Timestamp) (stamp : Option Digest) :
    Sound h (chain.appendWithKey h source kind payload key now stamp).1 := by
  obtain ⟨next, counter⟩ := counters_room sound room
  exact push_sound now sound ⟨rfl, rfl, rfl, rfl, rfl⟩ (toNat_succ next) (toNat_succ counter)

/-- A signed append either refuses and leaves the chain as it was, or pushes an event
that continues it. -/
theorem appendSigned_cases (h : Hashing) (chain : LocalChain) (event : ChainEvent) (now : Timestamp) :
    (∃ refusal, chain.appendSigned h event now = (chain, .error refusal)) ∨
      Continues h chain event ∧ chain.appendSigned h event now =
        (chain.push event (saturatingSucc event.sequence) (saturatingSucc chain.eventsSinceCheckpoint) now,
          .ok event) := by
  unfold appendSigned
  by_cases reserved : (isReservedSource event.source || isReservedKind event.kind) = true
  · rw [if_pos reserved]
    exact .inl ⟨_, rfl⟩
  rw [if_neg reserved]
  cases chain.events.find? (·.sequence = event.sequence) with
  | some existing =>
    dsimp only
    split_ifs <;> exact .inl ⟨_, rfl⟩
  | none =>
    split_ifs with otherChain behind ahead unlinked payload hash
    case neg =>
      have same : event.sequence = chain.sequence := by
        rw [← UInt64.toNat_inj]
        rw [UInt64.lt_iff_toNat_lt] at behind ahead
        omega
      exact .inr ⟨⟨same, not_not.mp otherChain, not_not.mp unlinked, not_not.mp payload, not_not.mp hash⟩, rfl⟩
    all_goals exact .inl ⟨_, rfl⟩

/-! ### Whole runs -/

/-- One call on the manager, with the clock and the provider's answer at that moment. -/
inductive Operation where
  | append (source kind : String) (payload : Option Value) (now : Timestamp) (stamp : Option Digest)
  | appendIdempotent (source kind : String) (payload : Option Value) (key : Option Digest) (now : Timestamp)
      (stamp : Option Digest)
  | appendSigned (event : ChainEvent) (now : Timestamp)
  | checkpoint (now : Timestamp)

def step (h : Hashing) (chain : LocalChain) : Operation → LocalChain
  | .append source kind payload now stamp => (chain.append h source kind payload now stamp).1
  | .appendIdempotent source kind payload key now stamp =>
    (chain.appendIdempotent h source kind payload key now stamp).1
  | .appendSigned event now => (chain.appendSigned h event now).1
  | .checkpoint now => chain.createCheckpoint now

def run (h : Hashing) (chain : LocalChain) (operations : List Operation) : LocalChain :=
  operations.foldl (step h) chain

theorem appendIdempotent_cases (h : Hashing) (chain : LocalChain) (source kind : String) (payload : Option Value)
    (key : Option Digest) (now : Timestamp) (stamp : Option Digest) :
    (chain.appendIdempotent h source kind payload key now stamp).1 = chain ∨
      chain.appendIdempotent h source kind payload key now stamp =
        chain.appendWithKey h source kind payload key now stamp := by
  unfold appendIdempotent
  split
  · exact .inl rfl
  · exact .inr rfl

/-- What a call does: nothing, a checkpoint, or an event that continues the chain. -/
inductive Calls (h : Hashing) (chain : LocalChain) : LocalChain → Prop
  | kept : Calls h chain chain
  | checkpointed (now : Timestamp) : Calls h chain (chain.createCheckpoint now)
  | pushed {event : ChainEvent} {sequence since : UInt64} (now : Timestamp) (continues : Continues h chain event)
      (next : chain.sequence.toNat + 1 < 2 ^ 64 → sequence.toNat = chain.sequence.toNat + 1)
      (counter : chain.eventsSinceCheckpoint.toNat + 1 < 2 ^ 64 →
        since.toNat = chain.eventsSinceCheckpoint.toNat + 1) : Calls h chain (chain.push event sequence since now)

theorem step_calls (h : Hashing) (chain : LocalChain) (operation : Operation) :
    Calls h chain (step h chain operation) := by
  cases operation with
  | append source kind payload now => exact .pushed now ⟨rfl, rfl, rfl, rfl, rfl⟩ toNat_succ toNat_succ
  | appendIdempotent source kind payload key now stamp =>
    rw [step]
    rcases appendIdempotent_cases h chain source kind payload key now stamp with same | appended
    · rw [same]
      exact .kept
    · rw [appended]
      exact .pushed now ⟨rfl, rfl, rfl, rfl, rfl⟩ toNat_succ toNat_succ
  | appendSigned event now =>
    rw [step]
    rcases appendSigned_cases h chain event now with ⟨refusal, refused⟩ | ⟨continues, accepted⟩
    · rw [refused]
      exact .kept
    · rw [accepted]
      refine .pushed now continues (fun room => ?_) saturatingSucc_toNat
      rw [continues.sequence, saturatingSucc_toNat room]
  | checkpoint now => exact .checkpointed now

variable {next : LocalChain}

theorem Calls.events_kept (calls : Calls h chain next) : chain.events <+: next.events := by
  cases calls with
  | kept | checkpointed => exact prefix_refl _
  | pushed =>
    rw [push_events]
    exact prefix_append _ _

theorem Calls.sound (calls : Calls h chain next) (sound : Sound h chain) (few : next.events.length < 2 ^ 64) :
    Sound h next := by
  cases calls with
  | kept => exact sound
  | checkpointed now => exact createCheckpoint_sound chain now sound
  | pushed now continues next counter =>
    rw [push_events, length_append, length_singleton] at few
    obtain ⟨nextRoom, counterRoom⟩ := counters_room sound few
    exact push_sound now sound continues (next nextRoom) (counter counterRoom)

theorem run_events_kept (h : Hashing) (chain : LocalChain) (operations : List Operation) :
    chain.events <+: (run h chain operations).events := by
  induction operations generalizing chain with
  | nil => exact prefix_refl _
  | cons operation rest ih => exact (step_calls h chain operation).events_kept.trans (ih (step h chain operation))

theorem run_sound (sound : Sound h chain) (operations : List Operation)
    (few : (run h chain operations).events.length < 2 ^ 64) : Sound h (run h chain operations) := by
  induction operations generalizing chain with
  | nil => exact sound
  | cons operation rest ih =>
    have earlier := (run_events_kept h (step h chain operation) rest).length_le
    exact ih ((step_calls h chain operation).sound sound (lt_of_le_of_lt earlier few)) few

theorem Sound.last (sound : Sound h chain) (nonempty : chain.events ≠ []) :
    ∃ last, chain.events.getLast? = some last ∧ chain.lastHash = last.hash ∧
      chain.sequence.toNat = last.sequence.toNat + 1 := by
  have isLast := getLast?_eq_some_getLast nonempty
  refine ⟨chain.events.getLast nonempty, isLast, ?_, ?_⟩
  · rw [sound.lastHash, tip, isLast]
    rfl
  · have positive := length_pos_iff.mpr nonempty
    have numbered := (numbered_iff_getElem _ 0 chain.events).mp sound.numbered (chain.events.length - 1) (by omega)
    rw [getLast_eq_getElem, sound.sequence]
    omega

theorem genesis_sound (h : Hashing) (chainId : UInt32) (interval : UInt64) (now : Timestamp) :
    Sound h (ChainManager.new h chainId interval now) :=
  appendWithKey_sound (new_sound h chainId interval) (show 0 + 1 < 2 ^ 64 by decide) _ _ _ none now none

/-! ### The invariant in full -/

@[simp] theorem autoCheckpoint_chainId :
    (chain.autoCheckpoint now).chainId = chain.chainId := by
  unfold autoCheckpoint
  split_ifs <;> rfl

@[simp] theorem push_chainId :
    (chain.push event sequence since now).chainId = chain.chainId := by
  simp [push]

@[simp] theorem push_sequence :
    (chain.push event sequence since now).sequence = sequence := by
  simp only [push, autoCheckpoint]
  split_ifs <;> rfl

theorem Calls.chainId_eq (calls : Calls h chain next) : next.chainId = chain.chainId := by
  cases calls with
  | kept | checkpointed => rfl
  | pushed => exact push_chainId ..

theorem run_chainId (h : Hashing) (chain : LocalChain) (operations : List Operation) :
    (run h chain operations).chainId = chain.chainId := by
  induction operations generalizing chain with
  | nil => rfl
  | cons operation rest ih => exact (ih (step h chain operation)).trans (step_calls h chain operation).chainId_eq

theorem appendSigned_error_unchanged {event : ChainEvent} {now : Timestamp}
    (refused : (chain.appendSigned h event now).2 = .error refusal) :
    (chain.appendSigned h event now).1 = chain := by
  rcases appendSigned_cases h chain event now with ⟨_, outcome⟩ | ⟨_, outcome⟩
  · rw [outcome]
  · rw [outcome] at refused
    cases refused

theorem run_nonempty (h : Hashing) (chainId : UInt32) (interval : UInt64) (start : Timestamp)
    (operations : List Operation) : (run h (ChainManager.new h chainId interval start) operations).events ≠ [] := by
  intro empty
  have kept := run_events_kept h (ChainManager.new h chainId interval start) operations
  rw [empty, prefix_nil] at kept
  simp [ChainManager.new, append, appendWithKey] at kept

/-- Under any sequence of operations, hostile signed events included: numbers, chain id, links, digests, tip and
checkpoint counts all agree, and a refused signed append changes nothing. -/
theorem chain_invariant (h : Hashing) (chainId : UInt32) (interval : UInt64) (start : Timestamp)
    (operations : List Operation) (chain : LocalChain)
    (reached : chain = run h (ChainManager.new h chainId interval start) operations)
    (few : chain.events.length < 2 ^ 64) :
    (∀ i, (bound : i < chain.events.length) → chain.events[i].sequence.toNat = i) ∧
    (chain.chainId = chainId ∧ ∀ e ∈ chain.events, e.chainId = chainId) ∧
    (∀ bound : 0 < chain.events.length, chain.events[0].prevHash = Digest.zero) ∧
    (∀ i, (bound : i + 1 < chain.events.length) → chain.events[i + 1].prevHash = chain.events[i].hash) ∧
    (∀ e ∈ chain.events, e.payloadHash = computePayloadHash h e.payload ∧ e.hash = e.recomputedHash h) ∧
    (∃ last, chain.events.getLast? = some last ∧ chain.lastHash = last.hash ∧
      chain.sequence.toNat = last.sequence.toNat + 1) ∧
    (chain.verifyIntegrity h).valid = true ∧
    (chain.checkpoints.map (·.eventsSinceLast.toNat)).sum + chain.eventsSinceCheckpoint.toNat =
      chain.events.length ∧
    ∀ event now refusal, (chain.appendSigned h event now).2 = .error refusal →
      (chain.appendSigned h event now).1 = chain := by
  subst reached
  have sound := run_sound (genesis_sound h chainId interval start) operations few
  have identity : (run h (ChainManager.new h chainId interval start) operations).chainId = chainId :=
    (run_chainId h _ operations).trans (push_chainId ..)
  have nonempty := run_nonempty h chainId interval start operations
  generalize run h (ChainManager.new h chainId interval start) operations = chain at *
  have numbered := (numbered_iff_getElem _ 0 chain.events).mp sound.numbered
  refine ⟨fun i bound => by rw [numbered i bound, Nat.zero_add],
    ⟨identity, fun e listed => (sound.oneChain e listed).trans identity⟩,
    linked_first _ _ sound.linked, linked_next _ _ sound.linked,
    fun e listed => ⟨(sound.committed e listed).payload, (sound.committed e listed).event⟩, sound.last nonempty,
    (verifyIntegrity_valid h chain).mpr ⟨sound.linked, sound.committed⟩, sound.counted,
    fun event now refusal => appendSigned_error_unchanged⟩

def sampleOperations : List Operation :=
  [.append "kernel" "boot" none .epoch none,
    .appendSigned
      { sequence := 2, chainId := 0, timestamp := .epoch, prevHash := Digest.zero, hash := Digest.zero
        payloadHash := Digest.zero, source := "kernel", kind := "governance.overlay.applied", payload := none
        idempotencyKey := none, ruleHash := none } .epoch,
    .appendIdempotent "mesh" "peer.join" none (some Digest.zero) .epoch none,
    .appendIdempotent "mesh" "peer.join" none (some Digest.zero) .epoch none,
    .checkpoint .epoch]

theorem chain_invariant_sample :
    (run .sample (ChainManager.new .sample 0 2 .epoch) sampleOperations).events.length = 3 ∧
      ((run .sample (ChainManager.new .sample 0 2 .epoch) sampleOperations).verifyIntegrity .sample).valid =
        true := by
  have count : (run .sample (ChainManager.new .sample 0 2 .epoch) sampleOperations).events.length = 3 := by
    decide +kernel
  obtain ⟨-, -, -, -, -, -, valid, -⟩ :=
    chain_invariant .sample 0 2 .epoch sampleOperations _ rfl (by rw [count]; decide)
  exact ⟨count, valid⟩

end Weftos.Chain.Invariant
