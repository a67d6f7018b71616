import Weftos.Chain.Lookup
import Weftos.Chain.RvfRoundTrip

/-! Chains restored from stored events. Each way in ends with `verify_integrity`, which compares neither the
stored numbers nor the chain ids with anything. -/

namespace Weftos.Chain.Restored
open Lib.Bytes Lib.Json Lib.Text Lib.Outcome Lib.Log
open Event Local Invariant Lookup Rvf List LocalChain
open RvfRoundTrip (segmentWire)

def fromEvents (h : Hashing) (events : List ChainEvent) (interval : UInt64) : Except LoadError LocalChain :=
  restore h interval events []

/-- `ChainManager::load_from_file`, with the JSON reader of one event as a parameter. -/
def loadFromFile (h : Hashing) (parse : String → Option ChainEvent) (contents : String) (interval : UInt64) :
    Except LoadError LocalChain := do
  let written := ((lines contents).map trim).filter (· ≠ "")
  let events ← written.mapM fun line => require (parse line) (.json line)
  restore h interval events []

inductive Accepted (h : Hashing) (w : Wire) (parse : String → Option ChainEvent) (interval : UInt64)
    (chain : LocalChain) : Prop
  | events (events : List ChainEvent) (ok : fromEvents h events interval = .ok chain)
  | file (contents : String) (ok : loadFromFile h parse contents interval = .ok chain)
  | rvf (data : Octets) (ok : loadFromRvf h w data interval = .ok chain)

variable {h : Hashing} {chain : LocalChain}

theorem accepted_restored (accepted : Accepted h w parse interval chain) :
    ∃ events witnesses, restore h interval events witnesses = .ok chain := by
  cases accepted with
  | events events ok => exact ⟨events, [], ok⟩
  | file contents ok =>
    rw [loadFromFile, bind_ok_iff] at ok
    obtain ⟨events, -, restored⟩ := ok
    exact ⟨events, [], restored⟩
  | rvf data ok =>
    rw [loadFromRvf, bind_ok_iff] at ok
    obtain ⟨segments, -, restored⟩ := ok
    exact ⟨_, _, restored⟩

/-! ### Real chains -/

structure Appended where
  source : String
  kind : String
  payload : Option Value
  key : Option Digest
  now : Timestamp
  stamp : Option Digest

def appendAll (h : Hashing) (chainId : UInt32) (interval : UInt64) (inputs : List Appended) : LocalChain :=
  inputs.foldl (fun chain input =>
    (chain.appendWithKey h input.source input.kind input.payload input.key input.now input.stamp).1)
    (new chainId interval)

/-- A chain whose events appends produce, whose next number is their count, and on which every lookup by number
finds what stands in that position. -/
structure RealChain (h : Hashing) (search : PartitionPoint ChainEvent) (chain : LocalChain) : Prop where
  produced : ∃ interval inputs, (appendAll h chain.chainId interval inputs).events = chain.events
  counted : chain.sequence.toNat = chain.events.length
  found : ∀ n : UInt64, chain.events.find? (·.sequence = n) = chain.events[n.toNat]?
  pages : ∀ start stop kindPrefix limit scan, start ≤ stop →
    PageRight chain.events start stop kindPrefix (chain.replayPage search start stop kindPrefix limit scan)
  tails : ∀ after : UInt64, chain.tailFrom after = chain.events.drop (after.toNat + 1)

structure WellNumbered (events : List ChainEvent) : Prop where
  numbers : ∀ i, (bound : i < events.length) → events[i].sequence.toNat = i
  oneChain : ∀ e ∈ events, ∀ other ∈ events, e.chainId = other.chainId

section
variable (h : Hashing) (chainId : UInt32) (interval : UInt64) (inputs : List Appended)

@[simp] theorem appendAll_concat (input : Appended) :
    (appendAll h chainId interval (inputs ++ [input])).events =
      (appendAll h chainId interval inputs).events ++
        [(appendAll h chainId interval inputs).nextEvent h input.source input.kind input.payload input.key
          input.now input.stamp] := by
  rw [appendAll, foldl_append]
  exact push_events ..

theorem appendAll_chainId : (appendAll h chainId interval inputs).chainId = chainId := by
  induction inputs using reverseRecOn with
  | nil => rfl
  | append_singleton inputs input ih =>
    rw [appendAll, foldl_append]
    exact (push_chainId ..).trans ih

theorem appendAll_sound (few : (appendAll h chainId interval inputs).events.length < 2 ^ 64) :
    Sound h (appendAll h chainId interval inputs) := by
  induction inputs using reverseRecOn with
  | nil => exact new_sound h chainId interval
  | append_singleton inputs input ih =>
    rw [appendAll_concat, length_append, length_singleton] at few
    rw [appendAll, foldl_append]
    exact appendWithKey_sound (ih (by omega)) few ..

end

def inputOf (event : ChainEvent) : Appended :=
  ⟨event.source, event.kind, event.payload, event.idempotencyKey, event.timestamp, event.ruleHash⟩

theorem nextEvent_inputOf (continues : Continues h chain event) :
    chain.nextEvent h event.source event.kind event.payload event.idempotencyKey event.timestamp event.ruleHash =
      event := by
  have digest := continues.committed.payload
  have hash := continues.committed.event
  unfold ChainEvent.recomputedHash at hash
  unfold nextEvent
  rw [← continues.sequence, ← continues.chainId, ← continues.prevHash, ← digest]
  dsimp only
  rw [← hash]

variable {events : List ChainEvent}

theorem appendAll_inputOf {chainId : UInt32} (numbered : Numbered number 0 events)
    (oneChain : ∀ e ∈ events, e.chainId = chainId)
    (linked : Linked ChainEvent.prevHash ChainEvent.hash Digest.zero events) (committed : ∀ e ∈ events, Committed h e)
    (few : events.length < 2 ^ 64) :
    (appendAll h chainId 0 (events.map inputOf)).events = events := by
  induction events using reverseRecOn with
  | nil => rfl
  | append_singleton front event ih =>
    obtain ⟨numberedFront, position⟩ := (numbered_concat number 0 front event).mp numbered
    obtain ⟨linkedFront, link⟩ := (linked_concat _ _ _ front event).mp linked
    rw [length_append, length_singleton] at few
    have produced := ih numberedFront (fun e listed => oneChain e (mem_append_left _ listed)) linkedFront
      (fun e listed => committed e (mem_append_left _ listed)) (by omega)
    have sound := appendAll_sound h chainId 0 (front.map inputOf) (by rw [produced]; omega)
    have continues : Continues h (appendAll h chainId 0 (front.map inputOf)) event := by
      have listed : event ∈ front ++ [event] := mem_append_right front mem_cons_self
      refine ⟨?_, ?_, ?_, committed event listed⟩
      · apply UInt64.toNat_inj.mp
        rw [sound.sequence, produced]
        exact position.trans (Nat.zero_add _)
      · rw [appendAll_chainId, oneChain event listed]
      · rw [sound.lastHash, produced, link]
    rw [map_append, map_singleton, appendAll_concat, produced]
    exact congrArg (fun last => front ++ [last]) (nextEvent_inputOf continues)

theorem wellNumbered_of_sound (sound : Sound h chain) : WellNumbered chain.events where
  numbers i bound := by
    rw [(numbered_iff_getElem _ 0 chain.events).mp sound.numbered i bound, Nat.zero_add]
  oneChain e listed other listed' := by rw [sound.oneChain e listed, sound.oneChain other listed']

/-- A restored chain is a real one exactly when its stored events are numbered from
zero on and name one chain; no way of restoring checks that. -/
theorem restored_real_iff (h : Hashing) (w : Wire) (parse : String → Option ChainEvent)
    (search : PartitionPoint ChainEvent) (interval : UInt64) (chain : LocalChain)
    (accepted : Accepted h w parse interval chain) (few : chain.events.length < 2 ^ 64) :
    RealChain h search chain ↔ WellNumbered chain.events := by
  obtain ⟨events, witnesses, restored⟩ := accepted_restored accepted
  obtain ⟨first, rest, starts, linked, committed, rfl⟩ := restore_ok_iff.mp restored
  constructor
  · intro real
    obtain ⟨interval', inputs, produced⟩ := real.produced
    have sound := appendAll_sound h _ interval' inputs (by rw [produced]; exact few)
    have numbered := wellNumbered_of_sound sound
    rwa [produced] at numbered
  · intro numbered
    have positions : Numbered number 0 events :=
      (numbered_iff_getElem number 0 events).mpr fun i bound => by
        rw [Nat.zero_add]
        exact numbered.numbers i bound
    have firstListed : first ∈ events := starts ▸ mem_cons_self
    refine ⟨⟨0, events.map inputOf, ?_⟩, ?_, find_eq_getElem positions, ?_, tailFrom_eq positions⟩
    · exact appendAll_inputOf positions (fun e listed => numbered.oneChain e listed first firstListed) linked
        committed few
    · have nonempty : events ≠ [] := ne_nil_of_mem firstListed
      have positive := length_pos_iff.mpr nonempty
      have last : (events.getLast nonempty).sequence.toNat = events.length - 1 := by
        rw [getLast_eq_getElem]
        exact numbered.numbers _ _
      change events.length < 2 ^ 64 at few
      rw [LocalChain.fromEvents, getLast?_eq_some_getLast nonempty]
      change (_ + 1 : UInt64).toNat = events.length
      rw [toNat_succ (by omega), last]
      omega
    · intro start stop kindPrefix limit scan ordered
      exact replayPage_right search positions ordered kindPrefix limit scan

/-! ### A renumbered file -/

def renumbered (sequence : UInt64) : ChainEvent :=
  ({ new 7 0 with sequence := sequence }).nextEvent .sample "app" "note" none none .epoch none

theorem fromEvents_renumbered (sequence : UInt64) :
    fromEvents .sample [renumbered sequence] 0 = .ok (LocalChain.fromEvents 7 0 [renumbered sequence] []) := by
  refine restore_ok_iff.mpr ⟨_, _, rfl, ⟨rfl, trivial⟩, ?_, rfl⟩
  intro e listed
  rw [mem_singleton.mp listed]
  exact ⟨rfl, rfl⟩

/-- One event numbered 5 is accepted: the count is one, the next number six, and a
replay of what follows position two yields the event in position zero. -/
theorem renumbered_accepted :
    ∃ chain, fromEvents .sample [renumbered 5] 0 = .ok chain ∧ chain.events.length = 1 ∧ chain.sequence = 6 ∧
      chain.tailFrom 2 = chain.events ∧ chain.events.find? (·.sequence = 0) = none ∧
      ¬ WellNumbered chain.events := by
  refine ⟨_, fromEvents_renumbered 5, rfl, rfl, rfl, rfl, ?_⟩
  intro numbered
  exact absurd (numbered.numbers 0 (by decide)) (by decide)

theorem restored_first_event :
    fromEvents .sample [renumbered 0] 0 = .ok (LocalChain.fromEvents 7 0 [renumbered 0] []) ∧
      RealChain .sample (.linear ChainEvent) (LocalChain.fromEvents 7 0 [renumbered 0] []) := by
  have accepted := fromEvents_renumbered 0
  refine ⟨accepted, (restored_real_iff .sample (segmentWire []) (fun _ => none) _ 0 _
    (.events [renumbered 0] accepted) (show 1 < 2 ^ 64 by decide)).mpr ⟨?_, ?_⟩⟩
  · intro i bound
    have zero : i = 0 := Nat.lt_one_iff.mp bound
    subst zero
    rfl
  · intro e listed other listed'
    rw [mem_singleton.mp listed, mem_singleton.mp listed']

end Weftos.Chain.Restored
