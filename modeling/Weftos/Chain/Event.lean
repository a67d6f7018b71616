import Weftos.Project.Canon

/-! Chain events and the two digests they carry (`clawft-kernel/src/chain.rs`). -/

namespace Weftos.Chain.Event
open Lib.Bytes Lib.Json Lib.Text

/-- What the chain takes from outside the workspace: SHAKE-256 with a 32-byte output
and the `serde_json` rendering of a value. -/
structure Hashing where
  shake256 : Octets → Digest
  toVec : Value → Octets

def Hashing.sample : Hashing where
  shake256 bytes := ⟨leBytes 32 (ofLeBytes bytes), leBytes_length 32 _⟩
  toVec value := utf8 (Weftos.Project.Canon.canonicalJson .plain value)

/-! ### Timestamps -/

def minSecs : Int := -8334601228800
def maxSecs : Int := 8210266876799

/-- A `DateTime<Utc>`: seconds within the calendar `chrono` supports, and a
sub-second part that may count a leap second. -/
structure Timestamp where
  secs : Int
  nanos : Nat
  low : minSecs ≤ secs
  high : secs ≤ maxSecs
  fraction : nanos < 2000000000
  deriving DecidableEq

def Timestamp.epoch : Timestamp := ⟨0, 0, by decide, by decide, by decide⟩

/-- `timestamp() as u64`: the two's complement word of the seconds. -/
def Timestamp.word (t : Timestamp) : UInt64 := UInt64.ofNat (t.secs % 2 ^ 64).toNat

/-- `DateTime::from_timestamp(word as i64, 0)`. -/
def Timestamp.ofWord (word : UInt64) : Option Timestamp :=
  let secs : Int := if word.toNat < 2 ^ 63 then word.toNat else (word.toNat : Int) - 2 ^ 64
  if bounds : minSecs ≤ secs ∧ secs ≤ maxSecs then
    some ⟨secs, 0, bounds.1, bounds.2, by decide⟩
  else none

/-- `timestamp_nanos_opt().unwrap_or(0) as u64`. -/
def Timestamp.nanosWord (t : Timestamp) : UInt64 :=
  let total := t.secs * 1000000000 + t.nanos
  if -2 ^ 63 ≤ total ∧ total < 2 ^ 63 then UInt64.ofNat (total % 2 ^ 64).toNat else 0

theorem Timestamp.word_toNat (t : Timestamp) : (t.word.toNat : Int) = t.secs % 2 ^ 64 := by
  have low := Int.emod_nonneg t.secs (show (2 : Int) ^ 64 ≠ 0 by decide)
  have high := Int.emod_lt_of_pos t.secs (show (0 : Int) < 2 ^ 64 by decide)
  rw [Timestamp.word, UInt64.toNat_ofNat', Nat.mod_eq_of_lt (by omega), Int.toNat_of_nonneg low]

theorem Timestamp.ofWord_word (t : Timestamp) :
    Timestamp.ofWord t.word = some ⟨t.secs, 0, t.low, t.high, by decide⟩ := by
  have word := t.word_toNat
  have low := t.low
  have high := t.high
  unfold minSecs at low
  unfold maxSecs at high
  have secs : (if t.word.toNat < 2 ^ 63 then (t.word.toNat : Int) else (t.word.toNat : Int) - 2 ^ 64) =
      t.secs := by
    split_ifs <;> omega
  simp only [Timestamp.ofWord, secs, t.low, t.high, and_self, dite_true]

/-! ### Events -/

structure ChainEvent where
  sequence : UInt64
  chainId : UInt32
  timestamp : Timestamp
  prevHash : Digest
  hash : Digest
  payloadHash : Digest
  source : String
  kind : String
  payload : Option Value
  idempotencyKey : Option Digest
  ruleHash : Option Digest

def RESERVED_SOURCES : List String := ["user.projects", "project.anchor", "auth.token"]
def EVENT_KIND_WORKLOAD_JOURNAL : String := "workload.journal"
def RESERVED_KINDS : List String := ["governance.overlay.applied", EVENT_KIND_WORKLOAD_JOURNAL]

def isReservedSource (source : String) : Bool := RESERVED_SOURCES.contains (trim source)

def isReservedKind (kind : String) : Bool := RESERVED_KINDS.contains (trim kind)

def computePayloadHash (h : Hashing) : Option Value → Digest
  | some value => h.shake256 (h.toVec value)
  | none => Digest.zero

def eventPreimage (sequence : UInt64) (chainId : UInt32) (prevHash : Digest) (source kind : String)
    (timestamp : Timestamp) (payloadHash : Digest) (ruleHash : Option Digest) : Octets :=
  leBytes 8 sequence.toNat ++ leBytes 4 chainId.toNat ++ prevHash.val ++
    utf8 source ++ [0x00] ++ utf8 kind ++ [0x00] ++
    leBytes 8 timestamp.word.toNat ++ payloadHash.val ++
    (match ruleHash with
      | some rule => 0x01 :: rule.val
      | none => [])

def computeEventHash (h : Hashing) (sequence : UInt64) (chainId : UInt32) (prevHash : Digest)
    (source kind : String) (timestamp : Timestamp) (payloadHash : Digest) (ruleHash : Option Digest) : Digest :=
  h.shake256 (eventPreimage sequence chainId prevHash source kind timestamp payloadHash ruleHash)

def ChainEvent.recomputedHash (h : Hashing) (event : ChainEvent) : Digest :=
  computeEventHash h event.sequence event.chainId event.prevHash event.source event.kind event.timestamp
    event.payloadHash event.ruleHash

structure Committed (h : Hashing) (event : ChainEvent) : Prop where
  payload : event.payloadHash = computePayloadHash h event.payload
  event : event.hash = event.recomputedHash h

structure ChainCheckpoint where
  chainId : UInt32
  sequence : UInt64
  lastHash : Digest
  timestamp : Timestamp
  eventsSinceLast : UInt64

structure WitnessEntry where
  prevHash : Digest
  actionHash : Digest
  timestampNs : UInt64
  witnessType : UInt8

def WITNESS_PROVENANCE : UInt8 := 0x01

/-- The witness of an event; its link is filled in when the witnesses are serialized. -/
def witnessOf (event : ChainEvent) : WitnessEntry :=
  ⟨Digest.zero, event.hash, event.timestamp.nanosWord, WITNESS_PROVENANCE⟩

structure ChainVerifyResult where
  valid : Bool
  eventCount : Nat
  errors : List String
  signatureVerified : Option Bool

end Weftos.Chain.Event
