import Weftos.Chain.Invariant
import Weftos.Chain.Rvf
import Weftos.Lib.Segment

/-! Saving a chain and loading it again. -/

namespace Weftos.Chain.RvfRoundTrip
open Lib.Bytes Lib.Json Lib.Outcome Lib.Log Lib.Frames
open Event Local Invariant Rvf List Weftos.Lib.Segment ExoChainHeader

variable (header : ExoChainHeader) (known : List Value)

/-- What the wire crate documents: a written segment whose payload length fits reads back as its payload,
whatever follows it, and its size is the padded size. -/
structure WireLaws (w : Wire) : Prop where
  read_write : ∀ kind payload id rest, payload.length < 2 ^ 64 → ∃ header,
    w.readSegment (w.writeSegment kind payload id ++ rest) = some (header, payload) ∧
      w.payloadLength header = payload.length ∧ w.validateSegment header payload = .ok ()
  size_write : ∀ kind payload id,
    (w.writeSegment kind payload id).length = w.paddedSize w.headerSize payload.length

/-- An event whose segment the format can hold: its length fits, and CBOR returns the
fields it was given. -/
structure Writable (w : Wire) (event : ChainEvent) : Prop where
  fits : (eventBody w event).length < 2 ^ 64
  cbor : w.decodeCbor (w.encodeCbor (eventFields event).toValue) = some (eventFields event).toValue

/-- Signature footers do not read as segments, whatever follows them. -/
def FootersUnread {w : Wire} (keys : Keys w) : Prop :=
  ∀ sign, keys.ed25519 = some sign → ∀ header payload rest, w.readSegment (sign header payload ++ rest) = none

/-! ### The segment header -/

theorem digestOf_val (digest : Digest) : digestOf digest.val = some digest := by
  simp [digestOf, digest.property]

theorem ofLeBytes_leBytes64 (value : UInt64) : UInt64.ofNat (ofLeBytes (leBytes 8 value.toNat)) = value := by
  rw [ofLeBytes_leBytes 8 _ value.toNat_lt, UInt64.ofNat_toNat]

theorem ofLeBytes_leBytes32 (value : UInt32) : UInt32.ofNat (ofLeBytes (leBytes 4 value.toNat)) = value := by
  rw [ofLeBytes_leBytes 4 _ value.toNat_lt, UInt32.ofNat_toNat]

theorem ofLeBytes_leBytes16 (value : UInt16) : UInt16.ofNat (ofLeBytes (leBytes 2 value.toNat)) = value := by
  rw [ofLeBytes_leBytes 2 _ value.toNat_lt, UInt16.ofNat_toNat]

theorem toBytes_length : header.toBytes.length = EXOCHAIN_HEADER_SIZE := by
  simp [toBytes, header.prevHash.property, EXOCHAIN_HEADER_SIZE]

theorem fromBytes_toBytes (rest : Octets) (magic : header.magic = EXOCHAIN_MAGIC) :
    fromBytes (header.toBytes ++ rest) = some header := by
  have long : ¬ (header.toBytes ++ rest).length < EXOCHAIN_HEADER_SIZE := by
    rw [length_append, toBytes_length]
    omega
  have atMagic : slice (header.toBytes ++ rest) 0 4 = leBytes 4 header.magic.toNat := by
    simp [slice, toBytes]
  have atVersion : (header.toBytes ++ rest)[4]? = some header.version := by
    simp [toBytes]
  have atSubtype : (header.toBytes ++ rest)[5]? = some header.subtype := by
    simp [toBytes, getElem?_append]
  have atFlags : slice (header.toBytes ++ rest) 6 8 = leBytes 2 header.flags.toNat := by
    simp [slice, toBytes, drop_append, drop_of_length_le]
  have atChainId : slice (header.toBytes ++ rest) 8 12 = leBytes 4 header.chainId.toNat := by
    simp [slice, toBytes, drop_append, drop_of_length_le]
  have atReserved : slice (header.toBytes ++ rest) 12 16 = leBytes 4 header.reserved.toNat := by
    simp [slice, toBytes, drop_append, drop_of_length_le]
  have atSequence : slice (header.toBytes ++ rest) 16 24 = leBytes 8 header.sequence.toNat := by
    simp [slice, toBytes, drop_append, drop_of_length_le]
  have atTime : slice (header.toBytes ++ rest) 24 32 = leBytes 8 header.timestampSecs.toNat := by
    simp [slice, toBytes, drop_append, drop_of_length_le]
  have atPrev : slice (header.toBytes ++ rest) 32 64 = header.prevHash.val := by
    simp [slice, toBytes, drop_append, drop_of_length_le, header.prevHash.property]
  simp only [fromBytes, if_neg long, atMagic, atVersion, atSubtype, atFlags, atChainId,
    atReserved, atSequence, atTime, atPrev, ofLeBytes_leBytes64, ofLeBytes_leBytes32, ofLeBytes_leBytes16,
    digestOf_val, magic]
  cases header
  simp_all

theorem decodeExochainPayload_toBytes (cbor : Octets) (magic : header.magic = EXOCHAIN_MAGIC) :
    decodeExochainPayload (header.toBytes ++ cbor) = some (header, cbor) := by
  simp [decodeExochainPayload, fromBytes_toBytes header cbor magic, ← toBytes_length header]

/-! ### The CBOR part -/

theorem hexNibble_digits (n : Fin 16) :
    hexNibble (UInt8.ofNat (Nat.digitChar n.val).toNat) = .ok (UInt8.ofNat n.val) := by
  revert n
  decide

theorem parseHexHash_hex (digest : Digest) : parseHexHash digest.hex = .ok digest := by
  have width : (utf8 digest.hex).length = 64 := by
    rw [Digest.hex, utf8_hexEncode_length, digest.property]
  have bytes : hexPairs .oddHex hexNibble (utf8 digest.hex) = .ok digest.val :=
    hexPairs_hexEncode _ _ hexNibble_digits digest.val
  simp [parseHexHash, width, bytes, digestOf_val]

def throughOption : Option Value → Option Value
  | some .null => none
  | other => other

theorem fromValue_toValue (p : RvfChainPayload) :
    RvfChainPayload.fromValue p.toValue = some { p with payload := throughOption p.payload } := by
  obtain ⟨source, kind, payload, payloadHash, hash, ruleHash⟩ := p
  rcases payload with _ | payload
  · rcases ruleHash with _ | ruleHash <;>
      simp [RvfChainPayload.toValue, RvfChainPayload.fromValue, Value.get, optionField, optionalField,
        Value.asStr, throughOption, lookup_cons, lookup_nil]
  · cases payload <;> rcases ruleHash with _ | ruleHash <;>
      simp [RvfChainPayload.toValue, RvfChainPayload.fromValue, Value.get, optionField, optionalField,
        Value.asStr, throughOption, lookup_cons, lookup_nil]

/-! ### Events -/

theorem zero_fraction : (0 : Nat) < 2000000000 := by decide

/-- An event as the file keeps it: whole seconds, no idempotency key. -/
def stored (event : ChainEvent) : ChainEvent :=
  { event with
    timestamp := ⟨event.timestamp.secs, 0, event.timestamp.low, event.timestamp.high, zero_fraction⟩
    idempotencyKey := none }

def reread (event : ChainEvent) : ChainEvent :=
  { stored event with payload := throughOption event.payload }

theorem checkExoFlags_written (offset : Nat) (event : ChainEvent) :
    checkExoFlags offset (eventHeader event).flags event.ruleHash.isSome = .ok () := by
  cases rule : event.ruleHash <;>
    simp [checkExoFlags, eventHeader, rule, EXO_FLAG_HAS_RULE_HASH, EXO_FLAGS_KNOWN, ensure]

variable {event : ChainEvent} {w : Wire}

theorem decodeEvent_written (offset : Nat) (writable : Writable w event) :
    decodeEvent w offset (eventHeader event) (w.encodeCbor (eventFields event).toValue) = .ok (reread event) := by
  simp only [decodeEvent, bind_ok_iff, require_ok_iff, pure_ok_iff]
  refine ⟨{ eventFields event with payload := throughOption event.payload }, ?_, event.payloadHash,
    parseHexHash_hex _, event.hash, parseHexHash_hex _, event.ruleHash, ?_, (), checkExoFlags_written offset event,
    _, event.timestamp.ofWord_word, rfl⟩
  · simp only [writable.cbor, Option.bind_eq_bind, Option.bind_some]
    exact fromValue_toValue (eventFields event)
  · cases rule : event.ruleHash with
    | none => simp [eventFields, rule, parseRuleHash]
    | some digest =>
      simp only [eventFields, rule, Option.map_some, parseRuleHash, parseHexHash_hex]
      rfl

theorem segmentHead_read {segment : Segment} {header : w.Header}
    (long : w.headerSize ≤ bytes.length) (read : w.readSegment bytes = some (header, payload))
    (decoded : decodeSegment w offset header payload = .ok segment) :
    segmentHead w offset bytes = .item segment (w.paddedSize w.headerSize (w.payloadLength header)) := by
  rw [segmentHead, if_neg (not_lt.mpr long), read]
  simp only [decoded]

theorem decodeSegment_event (offset : Nat) (writable : Writable w event)
    (valid : w.validateSegment outer (eventBody w event) = .ok ()) :
    decodeSegment w offset outer (eventBody w event) = .ok (.event (reread event)) := by
  have payload : decodeExochainPayload (eventBody w event) = some (eventHeader event, _) :=
    decodeExochainPayload_toBytes (eventHeader event) _ rfl
  simp only [decodeSegment, valid, Except.mapError, payload, require]
  change Segment.event <$> decodeEvent w offset (eventHeader event) _ = _
  rw [decodeEvent_written offset writable]
  rfl

theorem decodeSegment_checkpoint (w : Wire) (offset : Nat) (chain : LocalChain) (now : Timestamp) {outer : w.Header}
    (valid : w.validateSegment outer (checkpointBody w chain now) = .ok ()) :
    decodeSegment w offset outer (checkpointBody w chain now) =
      .ok (.checkpoint (checkpointWitnesses w (w.encodeCbor (checkpointFields w chain)))) := by
  have payload : decodeExochainPayload (checkpointBody w chain now) = some (checkpointHeader chain now, _) :=
    decodeExochainPayload_toBytes (checkpointHeader chain now) _ rfl
  simp only [decodeSegment, valid, Except.mapError, payload, require]
  rfl

section
variable {w : Wire} (laws : WireLaws w)
include laws

theorem segmentHead_written {segment : Segment} {offset : Nat} {id : UInt64}
    (fits : payload.length < 2 ^ 64) (decoded : ∀ outer, w.validateSegment outer payload = .ok () →
      decodeSegment w offset outer payload = .ok segment) :
    segmentHead w offset (w.writeSegment 0x10 payload id ++ rest) =
      .item segment (w.writeSegment 0x10 payload id).length := by
  obtain ⟨outer, read, size, valid⟩ := laws.read_write 0x10 payload id rest fits
  have written := laws.size_write 0x10 payload id
  have long : w.headerSize ≤ (w.writeSegment 0x10 payload id ++ rest).length := by
    have covers := w.paddedSize_ge payload.length
    rw [length_append, written]
    omega
  rw [segmentHead_read long read (decoded outer valid), size, written]

theorem segmentHead_event (offset : Nat) (writable : Writable w event) (rest : Octets) :
    segmentHead w offset (eventSegment w event ++ rest) =
      .item (.event (reread event)) (eventSegment w event).length :=
  segmentHead_written laws writable.fits fun _ valid => decodeSegment_event offset writable valid

end

theorem segmentHead_advancing (w : Wire) : Advancing (segmentHead w) where
  ends offset := by
    simp [segmentHead, w.headerSize_pos]
  moves := by
    intro offset bytes value size found
    unfold segmentHead at found
    split_ifs at found
    split at found
    · cases found
    · split at found
      · cases found
      · cases found
        exact lt_of_lt_of_le w.headerSize_pos (le_trans (Nat.le_add_right _ _) (w.paddedSize_ge _))

variable {events : List ChainEvent}

theorem scanAll_events (laws : WireLaws w) (writable : ∀ e ∈ events, Writable w e) (offset : Nat) (rest : Octets) :
    scanAll (segmentHead w) offset (events.flatMap (eventSegment w) ++ rest) =
      (events.map (fun event => Segment.event (reread event)) ++ ·) <$>
        scanAll (segmentHead w) (offset + (events.flatMap (eventSegment w)).length) rest := by
  induction events generalizing offset with
  | nil => simp
  | cons event later ih =>
    rw [flatMap_cons, append_assoc,
      scanAll_item (segmentHead_advancing w)
        (segmentHead_event laws offset (writable event mem_cons_self) _),
      drop_left, ih fun e listed => writable e (mem_cons_of_mem event listed)]
    simp [Nat.add_assoc, Functor.map_map]

theorem checkpoint_reads (laws : WireLaws w) (fits : (checkpointBody w chain now).length < 2 ^ 64) :
    ∃ header payload, w.readSegment (checkpointSegment w chain now) = some (header, payload) := by
  obtain ⟨header, read, -, -⟩ := laws.read_write 0x10 (checkpointBody w chain now) chain.sequence [] fits
  rw [append_nil] at read
  exact ⟨header, _, read⟩

section
variable {h : Hashing} {w : Wire} (laws : WireLaws w) {keys : Keys w} (unread : FootersUnread keys)
variable {chain : LocalChain} {now : Timestamp} (fits : (checkpointBody w chain now).length < 2 ^ 64)
include laws unread fits

theorem saveToRvf_some :
    ∃ signatures, saveToRvf w keys chain now =
        some (chain.events.flatMap (eventSegment w) ++ checkpointSegment w chain now ++ signatures) ∧
      ∀ offset, segmentHead w offset signatures = .stop := by
  obtain ⟨header, payload, read⟩ := checkpoint_reads laws fits
  cases sign : keys.ed25519 with
  | none =>
    refine ⟨[], ?_, (segmentHead_advancing w).ends⟩
    simp [saveToRvf, footers, sign]
  | some sign' =>
    refine ⟨_, by simp only [saveToRvf, footers, sign, read]; rfl, ?_⟩
    intro offset
    rw [segmentHead, unread sign' sign]
    split_ifs <;> rfl

theorem loadFromRvf_saved (writable : ∀ e ∈ chain.events, Writable w e) (interval : UInt64) :
    ∃ data, saveToRvf w keys chain now = some data ∧ ∃ witnesses,
      loadFromRvf h w data interval = restore h interval (chain.events.map reread) witnesses := by
  obtain ⟨signatures, saved, stops⟩ := saveToRvf_some laws unread fits
  refine ⟨_, saved, ?_⟩
  obtain ⟨witnesses, checkpoint⟩ : ∃ witnesses, segmentHead w (0 + (chain.events.flatMap (eventSegment w)).length)
      (checkpointSegment w chain now ++ signatures) = .item (.checkpoint witnesses)
        (checkpointSegment w chain now).length :=
    ⟨_, segmentHead_written laws fits fun _ valid => decodeSegment_checkpoint w _ chain now valid⟩
  have segments : scanAll (segmentHead w) 0
      (chain.events.flatMap (eventSegment w) ++ checkpointSegment w chain now ++ signatures) =
        .ok (chain.events.map (fun event => Segment.event (reread event)) ++ [.checkpoint witnesses]) := by
    rw [append_assoc, scanAll_events laws writable, scanAll_item (segmentHead_advancing w) checkpoint,
      drop_left, scanAll_stop (segmentHead_advancing w) (stops _)]
    rfl
  have events : segmentEvents (chain.events.map (fun event => Segment.event (reread event)) ++
      [.checkpoint witnesses]) = chain.events.map reread := by
    simp [segmentEvents, filterMap_map]
  exact ⟨_, by rw [loadFromRvf, segments]; simp only [bind, Except.bind, events]; rfl⟩

end

/-! ### Null payloads -/

theorem throughOption_of_ne_null (present : payload ≠ some .null) : throughOption payload = payload := by
  unfold throughOption
  split
  · exact absurd rfl present
  · rfl

theorem reread_eq_stored (present : event.payload ≠ some .null) : reread event = stored event := by
  rw [reread, throughOption_of_ne_null present]
  rfl

theorem committed_reread_iff (nullDigest : h.shake256 (h.toVec .null) ≠ Digest.zero)
    (committed : Committed h event) : Committed h (reread event) ↔ event.payload ≠ some .null := by
  constructor
  · intro again null
    have digest : event.payloadHash = h.shake256 (h.toVec .null) := by
      rw [committed.payload, null, computePayloadHash]
    have zero : event.payloadHash = Digest.zero := by
      have read := again.payload
      simpa [reread, stored, null, throughOption, computePayloadHash] using read
    exact nullDigest (digest ▸ zero)
  · intro present
    rw [reread_eq_stored present]
    exact ⟨committed.payload, committed.event⟩

theorem linked_reread : Linked ChainEvent.prevHash ChainEvent.hash root (events.map reread) ↔
      Linked ChainEvent.prevHash ChainEvent.hash root events := by
  induction events generalizing root with
  | nil => exact Iff.rfl
  | cons event rest ih => exact and_congr Iff.rfl ih

theorem map_reread_eq_stored (present : ∀ e ∈ events, e.payload ≠ some .null) : events.map reread = events.map stored :=
  map_congr_left fun e listed => reread_eq_stored (present e listed)

theorem restore_reread_iff (nullDigest : h.shake256 (h.toVec .null) ≠ Digest.zero) (starts : events = first :: rest)
    (linked : Linked ChainEvent.prevHash ChainEvent.hash Digest.zero events) (committed : ∀ e ∈ events, Committed h e) :
    restore h interval (events.map reread) witnesses = .ok loaded ↔
      (∀ e ∈ events, e.payload ≠ some .null) ∧
        loaded = LocalChain.fromEvents first.chainId interval (events.map stored) witnesses := by
  constructor
  · intro accepted
    obtain ⟨_, _, again, _, digests, rfl⟩ := restore_ok_iff.mp accepted
    have present : ∀ e ∈ events, e.payload ≠ some .null := fun e listed =>
      (committed_reread_iff nullDigest (committed e listed)).mp (digests _ (mem_map_of_mem listed))
    rw [starts] at again
    cases again
    exact ⟨present, by rw [map_reread_eq_stored present]; rfl⟩
  · rintro ⟨present, rfl⟩
    refine restore_ok_iff.mpr ⟨reread first, rest.map reread, by rw [starts]; rfl, linked_reread.mpr linked, ?_,
      by rw [map_reread_eq_stored present]; rfl⟩
    intro e listed
    obtain ⟨original, member, rfl⟩ := mem_map.mp listed
    exact (committed_reread_iff nullDigest (committed original member)).mpr (present original member)

def RoundTrips (h : Hashing) (w : Wire) (keys : Keys w) (chain : LocalChain) (now : Timestamp)
    (interval : UInt64) : Prop :=
  ∃ data, saveToRvf w keys chain now = some data ∧ ∃ loaded, loadFromRvf h w data interval = .ok loaded ∧
    loaded.events = chain.events.map stored ∧ loaded.lastHash = chain.lastHash ∧
    loaded.sequence = chain.sequence

/-- A saved chain loads again, with any signature footers, exactly when none of its
events carries the JSON value `null` as its payload. -/
theorem rvf_round_trip_iff (h : Hashing) (w : Wire) (laws : WireLaws w) (keys : Keys w) (unread : FootersUnread keys)
    (nullDigest : h.shake256 (h.toVec .null) ≠ Digest.zero) (chainId : UInt32) (interval interval' : UInt64)
    (start now : Timestamp) (operations : List Operation) (chain : LocalChain)
    (reached : chain = run h (ChainManager.new h chainId interval start) operations)
    (few : chain.events.length < 2 ^ 64) (writable : ∀ e ∈ chain.events, Writable w e)
    (fits : (checkpointBody w chain now).length < 2 ^ 64) :
    RoundTrips h w keys chain now interval' ↔ ∀ e ∈ chain.events, e.payload ≠ some .null := by
  subst reached
  have sound := run_sound (genesis_sound h chainId interval start) operations few
  have nonempty := run_nonempty h chainId interval start operations
  generalize run h (ChainManager.new h chainId interval start) operations = chain at *
  obtain ⟨data, saved, witnesses, load⟩ := loadFromRvf_saved (h := h) laws unread fits writable interval'
  obtain ⟨first, rest, starts⟩ := exists_cons_of_ne_nil nonempty
  constructor
  · rintro ⟨data', saved', loaded, accepted, -⟩
    cases saved.symm.trans saved'
    rw [load] at accepted
    exact ((restore_reread_iff nullDigest starts sound.linked sound.committed).mp accepted).1
  · intro present
    have accepted : restore h interval' (chain.events.map reread) witnesses = .ok _ :=
      (restore_reread_iff nullDigest starts sound.linked sound.committed).mpr ⟨present, rfl⟩
    obtain ⟨last, isLast, tipHash, next⟩ := sound.last nonempty
    refine ⟨data, saved, _, load.trans accepted, rfl, ?_, ?_⟩
    · simp only [LocalChain.fromEvents, getLast?_map, isLast, Option.map_some, Option.getD_some]
      exact tipHash.symm
    · simp only [LocalChain.fromEvents, getLast?_map, isLast, Option.map_some, Option.getD_some]
      have room := chain.sequence.toNat_lt
      change last.sequence + 1 = chain.sequence
      rw [← UInt64.toNat_inj, toNat_succ (by omega), next]

/-! ### A concrete format -/

def segmentWire (known : List Value) : Wire where
  Header := Weftos.Lib.Segment.Header
  payloadLength := Weftos.Lib.Segment.Header.payloadLength
  headerSize := headerSize
  paddedSize := paddedSize
  writeSegment := write
  readSegment := read
  validateSegment := validate
  encodeCbor := Value.cbor
  decodeCbor bytes := known.find? fun value => value.cbor = bytes
  createWitnessChain entries := entries.flatMap fun entry =>
    entry.prevHash.val ++ entry.actionHash.val ++ leBytes 8 entry.timestampNs.toNat ++ [entry.witnessType]
  verifyWitnessChain _ := none
  headerSize_pos := by decide
  paddedSize_ge := paddedSize_ge

theorem segmentWire_read : (segmentWire known).readSegment = read := rfl

theorem segmentWire_write : (segmentWire known).writeSegment = write := rfl

theorem segmentWire_laws : WireLaws (segmentWire known) where
  read_write kind payload id rest fits := by
    refine ⟨⟨payload.length, checksum payload⟩, ?_, rfl,
      validate_checksum payload.length payload⟩
    rw [segmentWire_read, segmentWire_write, read_write kind id fits rest]
    rfl
  size_write := write_length

theorem segmentWire_cbor {known : List Value} (distinct : (known.map Value.cbor).Nodup) (listed : value ∈ known) :
    (segmentWire known).decodeCbor ((segmentWire known).encodeCbor value) = some value := by
  change known.find? (fun candidate => candidate.cbor = value.cbor) = some value
  induction known with
  | nil => cases listed
  | cons first rest ih =>
    rw [map_cons, nodup_cons] at distinct
    rcases mem_cons.mp listed with rfl | later
    · exact find?_cons_of_pos (by simp)
    · rw [find?_cons_of_neg]
      · exact ih distinct.2 later
      · have other : first.cbor ≠ value.cbor := fun same =>
          distinct.1 (same ▸ mem_map_of_mem later)
        simpa using other

def noteChain (payload : Option Value) : LocalChain :=
  run .sample (ChainManager.new .sample 7 0 .epoch) [.append "app" "note" payload .epoch (some Digest.zero)]

def wireOf (chain : LocalChain) : Wire := segmentWire (chain.events.map fun event => (eventFields event).toValue)

theorem wireOf_writable
    (distinct : ((chain.events.map fun event => (eventFields event).toValue).map Value.cbor).Nodup)
    (fit : ∀ event ∈ chain.events, (eventBody (wireOf chain) event).length < 2 ^ 64) :
    ∀ e ∈ chain.events, Writable (wireOf chain) e := by
  intro e listed
  exact ⟨fit e listed, segmentWire_cbor distinct (mem_map_of_mem listed)⟩

def footerKeys (w : Wire) : Keys w where
  ed25519 := some fun _ body => 0xa5 :: body.take 95
  mlDsa := some fun _ body => 0xa6 :: body.take 127

/-- A `null` payload is saved, read back as absent, and refused. -/
theorem null_payload_not_loaded :
    ∃ data, saveToRvf (wireOf (noteChain (some .null))) {} (noteChain (some .null)) .epoch = some data ∧
      loadFromRvf .sample (wireOf (noteChain (some .null))) data 0 = .error (.integrity 1) := by
  have refused : ((saveToRvf (wireOf (noteChain (some .null))) {} (noteChain (some .null)) .epoch).bind fun data =>
      match loadFromRvf .sample (wireOf (noteChain (some .null))) data 0 with
      | .error refusal => some refusal
      | .ok _ => none) = some (.integrity 1) := by
    decide +kernel
  obtain ⟨data, saved, outcome⟩ := Option.bind_eq_some_iff.mp refused
  refine ⟨data, saved, ?_⟩
  split at outcome
  · next refusal load => rw [load, Option.some.inj outcome]
  · cases outcome

theorem note_round_trip :
    RoundTrips .sample (wireOf (noteChain (some (.str "hi")))) (footerKeys _) (noteChain (some (.str "hi")))
      .epoch 0 := by
  refine (rvf_round_trip_iff .sample _ (segmentWire_laws _) (footerKeys _) ?_ (by decide +kernel) 7 0 0 .epoch
    .epoch [.append "app" "note" (some (.str "hi")) .epoch (some Digest.zero)] _ rfl (by decide +kernel)
    (wireOf_writable (by decide +kernel) (by decide +kernel)) (by decide +kernel)).mpr ?_
  · intro sign same header payload rest
    cases same
    exact read_other (by decide : (0xa5 : UInt8) ≠ 0x53)
  · intro e listed null
    have kept : ∀ e ∈ (noteChain (some (.str "hi"))).events, ¬(e.payload matches some .null) := by decide +kernel
    exact kept e listed (by rw [null])

end Weftos.Chain.RvfRoundTrip
