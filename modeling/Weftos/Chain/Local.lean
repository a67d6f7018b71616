import Weftos.Chain.Event
import Weftos.Lib.Log

/-! The local chain and the operations of its manager (`clawft-kernel/src/chain.rs`).
The clock and the rule-hash provider are inputs of an append; the live fan-out and
the key material play no part here. -/

namespace Weftos.Chain.Local
open Lib.Bytes Lib.Json Lib.Text Lib.Log Event

def IDEMPOTENCY_LOOKBACK : Nat := 1000
def DEFAULT_MAX_REPLAY_WINDOW : UInt64 := 100000

structure LocalChain where
  chainId : UInt32
  events : List ChainEvent
  lastHash : Digest
  sequence : UInt64
  checkpointInterval : UInt64
  eventsSinceCheckpoint : UInt64
  checkpoints : List ChainCheckpoint
  witnessEntries : List WitnessEntry
  maxReplayWindow : UInt64

def LocalChain.new (chainId : UInt32) (checkpointInterval : UInt64) : LocalChain where
  chainId := chainId
  events := []
  lastHash := Digest.zero
  sequence := 0
  checkpointInterval := checkpointInterval
  eventsSinceCheckpoint := 0
  checkpoints := []
  witnessEntries := []
  maxReplayWindow := DEFAULT_MAX_REPLAY_WINDOW

/-- Restores a chain from stored events, which are not looked at here. -/
def LocalChain.fromEvents (chainId : UInt32) (checkpointInterval : UInt64) (events : List ChainEvent)
    (witnessEntries : List WitnessEntry) : LocalChain where
  chainId := chainId
  events := events
  lastHash := (events.getLast?.map (·.hash)).getD Digest.zero
  sequence := (events.getLast?.map (·.sequence + 1)).getD 0
  checkpointInterval := checkpointInterval
  eventsSinceCheckpoint := 0
  checkpoints := []
  witnessEntries := witnessEntries
  maxReplayWindow := DEFAULT_MAX_REPLAY_WINDOW

/-! ### Appending -/

def LocalChain.createCheckpoint (chain : LocalChain) (now : Timestamp) : LocalChain :=
  let cp : ChainCheckpoint :=
    { chainId := chain.chainId
      sequence := if chain.sequence = 0 then 0 else chain.sequence - 1
      lastHash := chain.lastHash
      timestamp := now
      eventsSinceLast := chain.eventsSinceCheckpoint }
  { chain with eventsSinceCheckpoint := 0, checkpoints := chain.checkpoints ++ [cp] }

def LocalChain.autoCheckpoint (chain : LocalChain) (now : Timestamp) : LocalChain :=
  if 0 < chain.checkpointInterval ∧ chain.checkpointInterval ≤ chain.eventsSinceCheckpoint then
    chain.createCheckpoint now
  else chain

def LocalChain.nextEvent (h : Hashing) (chain : LocalChain) (source kind : String) (payload : Option Value)
    (idempotencyKey : Option Digest) (now : Timestamp) (stamp : Option Digest) : ChainEvent :=
  let payloadHash := computePayloadHash h payload
  { sequence := chain.sequence
    chainId := chain.chainId
    timestamp := now
    prevHash := chain.lastHash
    hash := computeEventHash h chain.sequence chain.chainId chain.lastHash source kind now payloadHash stamp
    payloadHash
    source
    kind
    payload
    idempotencyKey
    ruleHash := stamp }

/-- What both append paths do with an event once it is settled. -/
def LocalChain.push (chain : LocalChain) (event : ChainEvent) (sequence eventsSinceCheckpoint : UInt64)
    (now : Timestamp) : LocalChain :=
  let chain := { chain with
    witnessEntries := chain.witnessEntries ++ [witnessOf event]
    lastHash := event.hash
    sequence := sequence
    eventsSinceCheckpoint := eventsSinceCheckpoint
    events := chain.events ++ [event] }
  chain.autoCheckpoint now

def LocalChain.appendWithKey (h : Hashing) (chain : LocalChain) (source kind : String)
    (payload : Option Value) (idempotencyKey : Option Digest) (now : Timestamp) (stamp : Option Digest) :
    LocalChain × ChainEvent :=
  let event := chain.nextEvent h source kind payload idempotencyKey now stamp
  (chain.push event (chain.sequence + 1) (chain.eventsSinceCheckpoint + 1) now, event)

def LocalChain.append (h : Hashing) (chain : LocalChain) (source kind : String) (payload : Option Value)
    (now : Timestamp) (stamp : Option Digest) : LocalChain × ChainEvent :=
  chain.appendWithKey h source kind payload none now stamp

/-- The newest event within the lookback that carries the key. -/
def LocalChain.recentByKey (chain : LocalChain) (key : Digest) : Option ChainEvent :=
  (chain.events.drop (chain.events.length - IDEMPOTENCY_LOOKBACK)).reverse.find?
    (·.idempotencyKey = some key)

def LocalChain.appendIdempotent (h : Hashing) (chain : LocalChain) (source kind : String)
    (payload : Option Value) (idempotencyKey : Option Digest) (now : Timestamp) (stamp : Option Digest) :
    LocalChain × ChainEvent :=
  match idempotencyKey.bind chain.recentByKey with
  | some existing => (chain, existing)
  | none => chain.appendWithKey h source kind payload idempotencyKey now stamp

inductive AppendSignedError where
  | alreadyPresent (sequence : UInt64)
  | fork (sequence : UInt64) (localHash remoteHash : Digest)
  | gap (expected got : UInt64)
  | reservedSource (eventSource : String)
  | chainIdMismatch (localId remote : UInt32)
  | prevHashMismatch (expected got : Digest)
  | payloadHashMismatch (sequence : UInt64)
  | hashMismatch (sequence : UInt64) (recomputed stored : Digest)

/-- `saturating_add(1)`. -/
def saturatingSucc (value : UInt64) : UInt64 := if value = UInt64.ofNat (2 ^ 64 - 1) then value else value + 1

/-- Accepts a prebuilt event as it is, after the checks in their order. -/
def LocalChain.appendSigned (h : Hashing) (chain : LocalChain) (event : ChainEvent) (now : Timestamp) :
    LocalChain × Except AppendSignedError ChainEvent :=
  if isReservedSource event.source || isReservedKind event.kind then
    (chain, .error (.reservedSource event.source))
  else
    match chain.events.find? (·.sequence = event.sequence) with
    | some existing =>
      if existing.hash = event.hash then (chain, .error (.alreadyPresent event.sequence))
      else (chain, .error (.fork event.sequence existing.hash event.hash))
    | none =>
      if event.chainId ≠ chain.chainId then
        (chain, .error (.chainIdMismatch chain.chainId event.chainId))
      else if event.sequence < chain.sequence then
        let known := (chain.events.find? (·.sequence = event.sequence)).map (·.hash)
        (chain, .error (.fork event.sequence (known.getD Digest.zero) event.hash))
      else if chain.sequence < event.sequence then
        (chain, .error (.gap chain.sequence event.sequence))
      else if event.prevHash ≠ chain.lastHash then
        (chain, .error (.prevHashMismatch chain.lastHash event.prevHash))
      else if event.payloadHash ≠ computePayloadHash h event.payload then
        (chain, .error (.payloadHashMismatch event.sequence))
      else if event.hash ≠ event.recomputedHash h then
        (chain, .error (.hashMismatch event.sequence (event.recomputedHash h) event.hash))
      else
        (chain.push event (saturatingSucc event.sequence) (saturatingSucc chain.eventsSinceCheckpoint) now,
          .ok event)

def ChainManager.new (h : Hashing) (chainId : UInt32) (checkpointInterval : UInt64) (now : Timestamp) :
    LocalChain :=
  ((LocalChain.new chainId checkpointInterval).append h "chain" "genesis"
    (some (.obj [("chain_id", .nat chainId.toUInt64)])) now none).1

/-! ### Verification -/

private def shortHex (digest : Digest) : String := hexEncode (digest.val.take 2)

def eventErrors (h : Hashing) (expectedPrev : Digest) (event : ChainEvent) : List String :=
  let seq := toString event.sequence.toNat
  (if event.prevHash ≠ expectedPrev then
    ["seq " ++ seq ++ ": prev_hash mismatch (expected " ++ shortHex expectedPrev ++ "..., got " ++
      shortHex event.prevHash ++ "...)"] else []) ++
  (if event.payloadHash ≠ computePayloadHash h event.payload then
    ["seq " ++ seq ++ ": payload_hash mismatch (recomputed " ++
      shortHex (computePayloadHash h event.payload) ++ "..., stored " ++ shortHex event.payloadHash ++ "...)"]
    else []) ++
  (if event.hash ≠ event.recomputedHash h then
    ["seq " ++ seq ++ ": hash mismatch (recomputed " ++ shortHex (event.recomputedHash h) ++
      "..., stored " ++ shortHex event.hash ++ "...)"] else [])

def integrityErrors (h : Hashing) : Digest → List ChainEvent → List String
  | _, [] => []
  | expectedPrev, event :: rest => eventErrors h expectedPrev event ++ integrityErrors h event.hash rest

def LocalChain.verifyIntegrity (h : Hashing) (chain : LocalChain) : ChainVerifyResult :=
  let errors := integrityErrors h Digest.zero chain.events
  { valid := errors.isEmpty
    eventCount := chain.events.length
    errors
    signatureVerified := none }

theorem eventErrors_nil (h : Hashing) (expectedPrev : Digest) (event : ChainEvent) :
    eventErrors h expectedPrev event = [] ↔ event.prevHash = expectedPrev ∧ Committed h event := by
  have committed : Committed h event ↔
      event.payloadHash = computePayloadHash h event.payload ∧ event.hash = event.recomputedHash h :=
    ⟨fun c => ⟨c.payload, c.event⟩, fun c => ⟨c.1, c.2⟩⟩
  simp [eventErrors, committed]

/-- Verification finds nothing exactly when the events are linked and committed. It
looks at no number and no chain id. -/
theorem integrityErrors_nil (h : Hashing) (expectedPrev : Digest) (events : List ChainEvent) :
    integrityErrors h expectedPrev events = [] ↔
      Linked ChainEvent.prevHash ChainEvent.hash expectedPrev events ∧ ∀ e ∈ events, Committed h e := by
  induction events generalizing expectedPrev with
  | nil => simp [integrityErrors, Linked]
  | cons event rest ih =>
    simp only [integrityErrors, List.append_eq_nil_iff, eventErrors_nil, ih, Linked, List.mem_cons,
      forall_eq_or_imp]
    tauto

theorem verifyIntegrity_valid (h : Hashing) (chain : LocalChain) :
    (chain.verifyIntegrity h).valid = true ↔
      Linked ChainEvent.prevHash ChainEvent.hash Digest.zero chain.events ∧ ∀ e ∈ chain.events, Committed h e := by
  rw [LocalChain.verifyIntegrity, ← integrityErrors_nil, List.isEmpty_iff]

/-! ### Lookups -/

def LocalChain.tail (chain : LocalChain) (n : Nat) : List ChainEvent :=
  if n = 0 ∨ chain.events.length ≤ n then chain.events
  else chain.events.drop (chain.events.length - n)

def LocalChain.tailFrom (chain : LocalChain) (after : UInt64) : List ChainEvent :=
  chain.events.filter fun e => after < e.sequence

/-- `kind_prefix.is_none_or(|p| e.kind.starts_with(p))`. -/
def kindMatches (kindPrefix : Option String) (event : ChainEvent) : Bool :=
  match kindPrefix with
  | none => true
  | some front => startsWith event.kind front

/-- The loop of `replay_page` over the events still to be looked at. -/
def replayLoop (stop : UInt64) (kindPrefix : Option String) (limit scan : Nat) :
    List ChainEvent → (scanned : Nat) → (out : List ChainEvent) → (next : UInt64) → List ChainEvent × UInt64
  | [], _, out, _ => (out, stop)
  | event :: rest, scanned, out, next =>
    if stop ≤ event.sequence then (out, stop)
    else if scan ≤ scanned ∨ limit ≤ out.length then (out, next)
    else
      replayLoop stop kindPrefix limit scan rest (scanned + 1)
        (if kindMatches kindPrefix event then out ++ [event] else out) (event.sequence + 1)

def LocalChain.replayPage (search : PartitionPoint ChainEvent) (chain : LocalChain) (start stop : UInt64)
    (kindPrefix : Option String) (limit scan : Nat) : List ChainEvent × UInt64 :=
  let position := search.find (fun e => e.sequence < start) chain.events
  replayLoop stop kindPrefix limit scan (chain.events.drop position) 0 [] start

end Weftos.Chain.Local
