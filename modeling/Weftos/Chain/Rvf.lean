import Weftos.Chain.Local
import Weftos.Lib.Frames

/-! The chain as a file of RVF segments: `save_to_rvf` and `load_from_rvf`
(`clawft-kernel/src/chain.rs`). The segment format, CBOR and the witness encoding
belong to other crates and are parameters. -/

namespace Weftos.Chain.Rvf
open Lib.Bytes Lib.Json Lib.Outcome Lib.Log Lib.Frames
open Event Local

/-- The functions of the wire, CBOR and crypto crates the chain file is made with. A
padded size covers the header and the payload. -/
structure Wire where
  Header : Type
  payloadLength : Header → Nat
  headerSize : Nat
  paddedSize : Nat → Nat → Nat
  writeSegment : UInt8 → Octets → UInt64 → Octets
  readSegment : Octets → Option (Header × Octets)
  validateSegment : Header → Octets → Except String Unit
  encodeCbor : Value → Octets
  decodeCbor : Octets → Option Value
  createWitnessChain : List WitnessEntry → Octets
  verifyWitnessChain : Octets → Option (List WitnessEntry)
  headerSize_pos : 0 < headerSize
  paddedSize_ge : ∀ size, headerSize + size ≤ paddedSize headerSize size

/-! ### The header inside a segment -/

def EXOCHAIN_MAGIC : UInt32 := 0x45584F43
def EXOCHAIN_HEADER_SIZE : Nat := 64
def EXO_FLAG_HAS_RULE_HASH : UInt16 := 0x0001
def EXO_FLAGS_KNOWN : UInt16 := EXO_FLAG_HAS_RULE_HASH

structure ExoChainHeader where
  magic : UInt32
  version : UInt8
  subtype : UInt8
  flags : UInt16
  chainId : UInt32
  reserved : UInt32
  sequence : UInt64
  timestampSecs : UInt64
  prevHash : Digest

def ExoChainHeader.toBytes (header : ExoChainHeader) : Octets :=
  leBytes 4 header.magic.toNat ++ [header.version] ++ [header.subtype] ++ leBytes 2 header.flags.toNat ++
    leBytes 4 header.chainId.toNat ++ leBytes 4 header.reserved.toNat ++ leBytes 8 header.sequence.toNat ++
    leBytes 8 header.timestampSecs.toNat ++ header.prevHash.val

def digestOf (bytes : Octets) : Option Digest :=
  if length : bytes.length = 32 then some ⟨bytes, length⟩ else none

def ExoChainHeader.fromBytes (data : Octets) : Option ExoChainHeader :=
  if data.length < EXOCHAIN_HEADER_SIZE then none
  else
    let magic := UInt32.ofNat (ofLeBytes (slice data 0 4))
    if magic ≠ EXOCHAIN_MAGIC then none
    else do
      let version ← data[4]?
      let subtype ← data[5]?
      let prevHash ← digestOf (slice data 32 64)
      some {
        magic
        version
        subtype
        flags := UInt16.ofNat (ofLeBytes (slice data 6 8))
        chainId := UInt32.ofNat (ofLeBytes (slice data 8 12))
        reserved := UInt32.ofNat (ofLeBytes (slice data 12 16))
        sequence := UInt64.ofNat (ofLeBytes (slice data 16 24))
        timestampSecs := UInt64.ofNat (ofLeBytes (slice data 24 32))
        prevHash }

def decodeExochainPayload (payload : Octets) : Option (ExoChainHeader × Octets) := do
  let header ← ExoChainHeader.fromBytes payload
  some (header, payload.drop EXOCHAIN_HEADER_SIZE)

def writeExochainEvent (w : Wire) (header : ExoChainHeader) (cbor : Octets) (segmentId : UInt64) : Octets :=
  w.writeSegment 0x10 (header.toBytes ++ cbor) segmentId

/-! ### The CBOR part of an event -/

structure RvfChainPayload where
  source : String
  kind : String
  payload : Option Value
  payloadHash : String
  hash : String
  ruleHash : Option String

/-- The derived `Serialize`: absent options are left out. -/
def RvfChainPayload.toValue (p : RvfChainPayload) : Value :=
  .obj ([("source", .str p.source), ("kind", .str p.kind)] ++ optionalField "payload" p.payload ++
    [("payload_hash", .str p.payloadHash), ("hash", .str p.hash)] ++
    optionalField "rule_hash" (p.ruleHash.map .str))

/-- An optional field: a missing one and a `null` are both read as absent. -/
def optionField (value : Value) (key : String) : Option Value :=
  match value.get key with
  | none | some .null => none
  | some present => some present

/-- The derived `Deserialize`. -/
def RvfChainPayload.fromValue (value : Value) : Option RvfChainPayload := do
  let source ← (← value.get "source").asStr
  let kind ← (← value.get "kind").asStr
  let payloadHash ← (← value.get "payload_hash").asStr
  let hash ← (← value.get "hash").asStr
  let ruleHash ← match optionField value "rule_hash" with
    | none => some none
    | some text => text.asStr.map some
  some ⟨source, kind, optionField value "payload", payloadHash, hash, ruleHash⟩

/-! ### Hex -/

inductive LoadError where
  | validate (offset : Nat) (message : String)
  | exochain (offset : Nat)
  | cbor (offset : Nat)
  | oddHex
  | hexLength (got : Nat)
  | hexChar (c : UInt8)
  | unknownFlags (offset : Nat) (flags : UInt16)
  | ruleHashFlag (offset : Nat)
  | timestamp (secs : UInt64) (offset : Nat)
  | json (line : String)
  | noEvents
  | integrity (errors : Nat)
  deriving DecidableEq

def hexNibble (c : UInt8) : Except LoadError UInt8 :=
  if 48 ≤ c ∧ c ≤ 57 then .ok (c - 48)
  else if 97 ≤ c ∧ c ≤ 102 then .ok (c - 97 + 10)
  else if 65 ≤ c ∧ c ≤ 70 then .ok (c - 65 + 10)
  else .error (.hexChar c)

def hexDecode (text : String) : Except LoadError Octets := hexPairs .oddHex hexNibble (utf8 text)

def parseHexHash (text : String) : Except LoadError Digest := do
  ensure ((utf8 text).length = 64) (.hexLength (utf8 text).length)
  let bytes ← hexPairs .oddHex hexNibble (utf8 text)
  -- 64 digits always give 32 bytes
  require (digestOf bytes) (.hexLength (utf8 text).length)

/-- `map(parse_hex_hash).transpose()`. -/
def parseRuleHash : Option String → Except LoadError (Option Digest)
  | none => .ok none
  | some text => some <$> parseHexHash text

/-! ### Saving -/

def eventHeader (event : ChainEvent) : ExoChainHeader where
  magic := EXOCHAIN_MAGIC
  version := 1
  subtype := 0x40
  flags := if event.ruleHash.isSome then EXO_FLAG_HAS_RULE_HASH else 0
  chainId := event.chainId
  reserved := 0
  sequence := event.sequence
  timestampSecs := event.timestamp.word
  prevHash := event.prevHash

def eventFields (event : ChainEvent) : RvfChainPayload where
  source := event.source
  kind := event.kind
  payload := event.payload
  payloadHash := event.payloadHash.hex
  hash := event.hash.hex
  ruleHash := event.ruleHash.map Digest.hex

def eventBody (w : Wire) (event : ChainEvent) : Octets :=
  (eventHeader event).toBytes ++ w.encodeCbor (eventFields event).toValue

def eventSegment (w : Wire) (event : ChainEvent) : Octets :=
  writeExochainEvent w (eventHeader event) (w.encodeCbor (eventFields event).toValue) event.sequence

def checkpointHeader (chain : LocalChain) (now : Timestamp) : ExoChainHeader where
  magic := EXOCHAIN_MAGIC
  version := 1
  subtype := 0x41
  flags := 0
  chainId := chain.chainId
  reserved := 0
  sequence := if chain.sequence = 0 then 0 else chain.sequence - 1
  timestampSecs := now.word
  prevHash := chain.lastHash

def checkpointFields (w : Wire) (chain : LocalChain) : Value :=
  let witnessHex : Value :=
    if chain.witnessEntries.isEmpty then .null
    else .str (hexEncode (w.createWitnessChain chain.witnessEntries))
  .obj [("event_count", .nat (UInt64.ofNat chain.events.length)), ("last_hash", .str chain.lastHash.hex),
    ("witness_chain", witnessHex), ("witness_entries", .nat (UInt64.ofNat chain.witnessEntries.length))]

def checkpointBody (w : Wire) (chain : LocalChain) (now : Timestamp) : Octets :=
  (checkpointHeader chain now).toBytes ++ w.encodeCbor (checkpointFields w chain)

def checkpointSegment (w : Wire) (chain : LocalChain) (now : Timestamp) : Octets :=
  writeExochainEvent w (checkpointHeader chain now) (w.encodeCbor (checkpointFields w chain)) chain.sequence

/-- The signing keys of a manager, as what they make of the checkpoint segment: one
encoded footer each. The second key is used only beside the first. -/
structure Keys (w : Wire) where
  ed25519 : Option (w.Header → Octets → Octets) := none
  mlDsa : Option (w.Header → Octets → Octets) := none

/-- The trailing signature footers; saving fails when the checkpoint just written
cannot be read back for signing. -/
def footers (w : Wire) (keys : Keys w) (checkpoint : Octets) : Option Octets :=
  match keys.ed25519 with
  | none => some []
  | some sign => do
    let (header, payload) ← w.readSegment checkpoint
    some (sign header payload ++
      match keys.mlDsa with
      | none => []
      | some signMl => signMl header payload)

def saveToRvf (w : Wire) (keys : Keys w) (chain : LocalChain) (now : Timestamp) : Option Octets := do
  let checkpoint := checkpointSegment w chain now
  let signatures ← footers w keys checkpoint
  some (chain.events.flatMap (eventSegment w) ++ checkpoint ++ signatures)

/-! ### Loading -/

def checkExoFlags (offset : Nat) (flags : UInt16) (hasRuleHash : Bool) : Except LoadError Unit := do
  ensure (flags &&& ~~~EXO_FLAGS_KNOWN = 0) (.unknownFlags offset flags)
  ensure ((flags &&& EXO_FLAG_HAS_RULE_HASH ≠ 0) ↔ hasRuleHash = true) (.ruleHashFlag offset)

inductive Segment where
  | event (event : ChainEvent)
  | checkpoint (witnesses : Option (List WitnessEntry))
  | other

def decodeEvent (w : Wire) (offset : Nat) (header : ExoChainHeader) (cbor : Octets) :
    Except LoadError ChainEvent := do
  let fields ← require (w.decodeCbor cbor >>= RvfChainPayload.fromValue) (.cbor offset)
  let payloadHash ← parseHexHash fields.payloadHash
  let hash ← parseHexHash fields.hash
  let ruleHash ← parseRuleHash fields.ruleHash
  checkExoFlags offset header.flags ruleHash.isSome
  let timestamp ← require (Timestamp.ofWord header.timestampSecs) (.timestamp header.timestampSecs offset)
  pure {
    sequence := header.sequence
    chainId := header.chainId
    timestamp
    prevHash := header.prevHash
    hash
    payloadHash
    source := fields.source
    kind := fields.kind
    payload := fields.payload
    idempotencyKey := none
    ruleHash }

/-- The witnesses a checkpoint carries, when they are readable and verify. -/
def checkpointWitnesses (w : Wire) (cbor : Octets) : Option (List WitnessEntry) := do
  let fields := (w.decodeCbor cbor).getD .null
  let text ← (← fields.get "witness_chain").asStr
  let bytes ← (hexDecode text).toOption
  w.verifyWitnessChain bytes

def decodeSegment (w : Wire) (offset : Nat) (header : w.Header) (payload : Octets) :
    Except LoadError Segment := do
  (w.validateSegment header payload).mapError (.validate offset)
  let (exo, cbor) ← require (decodeExochainPayload payload) (.exochain offset)
  if exo.subtype = 0x40 then .event <$> decodeEvent w offset exo cbor
  else if exo.subtype = 0x41 then pure (.checkpoint (checkpointWitnesses w cbor))
  else pure .other

/-- One turn of the reading loop. Anything that does not read as a segment ends it. -/
def segmentHead (w : Wire) (offset : Nat) (rest : Octets) : Head LoadError Segment :=
  if rest.length < w.headerSize then .stop
  else
    match w.readSegment rest with
    | none => .stop
    | some (header, payload) =>
      match decodeSegment w offset header payload with
      | .error refusal => .fail refusal
      | .ok segment => .item segment (w.paddedSize w.headerSize (w.payloadLength header))

def segmentEvents (segments : List Segment) : List ChainEvent :=
  segments.filterMap fun
    | .event event => some event
    | _ => none

def segmentWitnesses (segments : List Segment) : List WitnessEntry :=
  (segments.filterMap fun
    | .checkpoint witnesses => witnesses
    | _ => none).getLast?.getD []

def restore (h : Hashing) (interval : UInt64) (events : List ChainEvent) (witnesses : List WitnessEntry) :
    Except LoadError LocalChain :=
  match events with
  | [] => .error .noEvents
  | first :: _ => do
    let chain := LocalChain.fromEvents first.chainId interval events witnesses
    let result := chain.verifyIntegrity h
    ensure (result.valid = true) (.integrity result.errors.length)
    pure chain

theorem restore_ok_iff : restore h interval events witnesses = .ok chain ↔ ∃ first rest, events = first :: rest ∧
        Linked ChainEvent.prevHash ChainEvent.hash Digest.zero events ∧ (∀ e ∈ events, Committed h e) ∧
        chain = LocalChain.fromEvents first.chainId interval events witnesses := by
  cases events with
  | nil => simp [restore]
  | cons first rest =>
    simp only [restore, bind_ok_iff, ensure_ok_iff, pure_ok_iff, verifyIntegrity_valid]
    constructor
    · rintro ⟨_, ⟨linked, committed⟩, rfl⟩
      exact ⟨first, rest, rfl, linked, committed, rfl⟩
    · rintro ⟨_, _, same, linked, committed, rfl⟩
      cases same
      exact ⟨(), ⟨linked, committed⟩, rfl⟩

def loadFromRvf (h : Hashing) (w : Wire) (data : Octets) (interval : UInt64) : Except LoadError LocalChain := do
  let segments ← scanAll (segmentHead w) 0 data
  restore h interval (segmentEvents segments) (segmentWitnesses segments)

end Weftos.Chain.Rvf
