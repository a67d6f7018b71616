import Weftos.Chain.RvfRoundTrip

/-! Loading a chain file that was cut short or overwritten. The reading loop takes whatever does not read as a
segment for the signature footers. -/

namespace Weftos.Chain.RvfDamage
open Lib.Bytes Lib.Json Lib.Outcome Lib.Log Lib.Frames
open Event Local Invariant Rvf RvfRoundTrip List Weftos.Lib.Segment

variable (events : List ChainEvent) {event : ChainEvent}

/-- What the wire crate documents about incomplete input: a header and its payload are
enough to read a segment, less is not, and the header says how long the payload is. -/
structure CutLaws (w : Wire) : Prop extends WireLaws w where
  read_front : ∀ kind payload id rest, payload.length < 2 ^ 64 → ∃ header,
    w.readSegment ((w.writeSegment kind payload id).take (w.headerSize + payload.length) ++ rest) =
      some (header, payload) ∧ w.validateSegment header payload = .ok ()
  read_cut : ∀ kind payload id n, payload.length < 2 ^ 64 → n < w.headerSize + payload.length →
    w.readSegment ((w.writeSegment kind payload id).take n) = none
  read_length : ∀ bytes header payload, w.readSegment bytes = some (header, payload) →
    w.payloadLength header = payload.length

/-! ### What is left of the event section -/

def readable (w : Wire) (bytes : Octets) : Bool :=
  decide (w.headerSize ≤ bytes.length) && (w.readSegment bytes).isSome

def holds (w : Wire) (event : ChainEvent) (bytes : Octets) : Bool :=
  decide (w.headerSize ≤ bytes.length) &&
    match w.readSegment bytes with
    | none => false
    | some (header, payload) =>
      decide (payload = eventBody w event) && decide (w.validateSegment header payload = .ok ())

def intact (w : Wire) : List ChainEvent → Octets → Nat
  | [], _ => 0
  | event :: later, bytes =>
    if holds w event bytes then intact w later (bytes.drop (eventSegment w event).length) + 1 else 0

def extent (w : Wire) (events : List ChainEvent) : Nat := (events.flatMap (eventSegment w)).length

theorem intact_le (w : Wire) (events : List ChainEvent) (bytes : Octets) :
    intact w events bytes ≤ events.length := by
  induction events generalizing bytes with
  | nil => exact le_refl 0
  | cons event later ih =>
    rw [intact]
    split
    · exact Nat.succ_le_succ (ih _)
    · exact Nat.zero_le _

theorem extent_cons (w : Wire) (event : ChainEvent) (later : List ChainEvent) :
    extent w (event :: later) = (eventSegment w event).length + extent w later := by
  simp [extent]

variable {w : Wire} {bytes : Octets}

theorem holds_iff : holds w event bytes = true ↔ w.headerSize ≤ bytes.length ∧ ∃ header,
      w.readSegment bytes = some (header, eventBody w event) ∧
        w.validateSegment header (eventBody w event) = .ok () := by
  unfold holds
  cases read : w.readSegment bytes with
  | none => simp
  | some segment =>
    obtain ⟨header, payload⟩ := segment
    simp only [Bool.and_eq_true, decide_eq_true_eq]
    constructor
    · rintro ⟨long, rfl, valid⟩
      exact ⟨long, header, rfl, valid⟩
    · rintro ⟨long, other, same, valid⟩
      cases same
      exact ⟨long, rfl, valid⟩

theorem intact_break {events : List ChainEvent} (missing : intact w events bytes < events.length) :
    ∃ event after, events = events.take (intact w events bytes) ++ event :: after ∧
      holds w event (bytes.drop (extent w (events.take (intact w events bytes)))) = false := by
  induction events generalizing bytes with
  | nil => cases missing
  | cons event later ih =>
    by_cases kept : holds w event bytes = true
    · rw [intact, if_pos kept, length_cons, Nat.succ_lt_succ_iff] at missing
      obtain ⟨lost, after, split, gone⟩ := ih missing
      rw [intact, if_pos kept, take_succ_cons]
      refine ⟨lost, after, by rw [cons_append, ← split], ?_⟩
      rwa [extent_cons, ← drop_drop]
    · rw [intact, if_neg kept]
      exact ⟨event, later, rfl, by simpa [extent] using kept⟩

section
variable {w : Wire} (laws : CutLaws w)
include laws

theorem segmentHead_holds (offset : Nat) (writable : Writable w event) (kept : holds w event bytes = true) :
    segmentHead w offset bytes = .item (.event (reread event)) (eventSegment w event).length := by
  obtain ⟨long, header, read, valid⟩ := holds_iff.mp kept
  have size : (eventSegment w event).length = w.paddedSize w.headerSize (eventBody w event).length :=
    laws.size_write 0x10 (eventBody w event) event.sequence
  rw [segmentHead_read long read (decodeSegment_event offset writable valid), laws.read_length _ _ _ read, size]

theorem scanAll_intact {events : List ChainEvent} (writable : ∀ e ∈ events, Writable w e) (offset : Nat)
    (bytes : Octets) :
    scanAll (segmentHead w) offset bytes =
      ((events.take (intact w events bytes)).map (fun event => Segment.event (reread event)) ++ ·) <$>
        scanAll (segmentHead w) (offset + extent w (events.take (intact w events bytes)))
          (bytes.drop (extent w (events.take (intact w events bytes)))) := by
  induction events generalizing offset bytes with
  | nil => simp [intact, extent]
  | cons event later ih =>
    by_cases kept : holds w event bytes = true
    · rw [scanAll_item (segmentHead_advancing w)
        (segmentHead_holds laws offset (writable event mem_cons_self) kept),
        ih fun e listed => writable e (mem_cons_of_mem event listed)]
      simp only [intact, if_pos kept, take_succ_cons, extent_cons, map_cons, ← drop_drop,
        Nat.add_assoc, Functor.map_map, cons_append]
    · simp [intact, if_neg kept, extent]

end

/-! ### The outcome -/

def Reported (h : Hashing) (w : Wire) (events : List ChainEvent) (bytes : Octets) (interval : UInt64) : Prop :=
  (∃ refusal, loadFromRvf h w bytes interval = .error refusal) ∨
    ∃ loaded, loadFromRvf h w bytes interval = .ok loaded ∧ events.map stored <+: loaded.events

theorem segmentEvents_append (more : List Segment) :
    segmentEvents (events.map (fun event => Segment.event (reread event)) ++ more) =
      events.map reread ++ segmentEvents more := by
  simp [segmentEvents, filterMap_map]

/-- The loop reads the bytes to its end and takes these events from them, the first after `prev`. -/
inductive Passes (h : Hashing) (w : Wire) : Digest → Octets → List ChainEvent → Prop
  | ends {prev : Digest} {bytes : Octets} (unreadable : readable w bytes = false) : Passes h w prev bytes []
  | skip {prev : Digest} {bytes : Octets} {header : w.Header} {segment : Segment} (long : w.headerSize ≤ bytes.length)
      (read : w.readSegment bytes = some (header, payload))
      (decodes : decodeSegment w 0 header payload = .ok segment) (other : segmentEvents [segment] = [])
      (rest : Passes h w prev (bytes.drop (w.paddedSize w.headerSize (w.payloadLength header))) more) :
      Passes h w prev bytes more
  | event {prev : Digest} {bytes : Octets} {header : w.Header} (long : w.headerSize ≤ bytes.length)
      (read : w.readSegment bytes = some (header, payload))
      (decodes : decodeSegment w 0 header payload = .ok (.event e)) (linked : e.prevHash = prev)
      (committed : Committed h e)
      (rest : Passes h w e.hash (bytes.drop (w.paddedSize w.headerSize (w.payloadLength header))) more) :
      Passes h w prev bytes (e :: more)

variable {prev : Digest} {segment : Segment}

/-- Where it stands in the file says nothing about a segment but in the refusal. -/
theorem decodeSegment_ok_iff {header : w.Header} (offset : Nat) :
    decodeSegment w offset header payload = .ok segment ↔ decodeSegment w 0 header payload = .ok segment := by
  have event (exo : ExoChainHeader) (cbor : Octets) (e : ChainEvent) :
      decodeEvent w offset exo cbor = .ok e ↔ decodeEvent w 0 exo cbor = .ok e := by
    simp only [decodeEvent, checkExoFlags, bind_ok_iff, require_ok_iff, ensure_ok_iff, pure_ok_iff]
  simp only [decodeSegment, bind_ok_iff, mapError_ok_iff, require_ok_iff]
  refine exists_congr fun _ => and_congr_right fun _ => exists_congr fun _ => and_congr_right fun _ => ?_
  split_ifs
  · simp only [map_ok_iff, event]
  · exact Iff.rfl
  · exact Iff.rfl

theorem segmentHead_stop_iff (offset : Nat) : segmentHead w offset bytes = .stop ↔ readable w bytes = false := by
  unfold segmentHead readable
  split_ifs with short
  · simp [short]
  · cases read : w.readSegment bytes with
    | none => simp
    | some segment =>
      obtain ⟨header, payload⟩ := segment
      dsimp only
      split <;> simp [not_lt.mp short]

theorem segmentHead_item (found : segmentHead w offset bytes = .item segment size) :
    w.headerSize ≤ bytes.length ∧ ∃ header payload, w.readSegment bytes = some (header, payload) ∧
      decodeSegment w offset header payload = .ok segment ∧ size = w.paddedSize w.headerSize
        (w.payloadLength header) := by
  unfold segmentHead at found
  split_ifs at found with short
  split at found
  · cases found
  next header payload read =>
    split at found
    · cases found
    next decoded =>
      cases found
      exact ⟨not_lt.mp short, header, payload, read, decoded, rfl⟩

section
variable {h : Hashing} {w : Wire} {bytes : Octets}

theorem Passes.scan (passes : Passes h w prev bytes more) (offset : Nat) : ∃ segments,
    scanAll (segmentHead w) offset bytes = .ok segments ∧ segmentEvents segments = more ∧
      Linked ChainEvent.prevHash ChainEvent.hash prev more ∧ ∀ e ∈ more, Committed h e := by
  induction passes generalizing offset with
  | ends unreadable =>
    exact ⟨[], scanAll_stop (segmentHead_advancing w) ((segmentHead_stop_iff offset).mpr unreadable), rfl,
      trivial, by simp⟩
  | skip long read decodes other _ ih =>
    have head := segmentHead_read long read ((decodeSegment_ok_iff offset).mpr decodes)
    obtain ⟨segments, scanned, rfl, linked, committed⟩ := ih _
    refine ⟨_ :: segments, by rw [scanAll_item (segmentHead_advancing w) head, scanned]; rfl, ?_, linked, committed⟩
    rw [segmentEvents, ← singleton_append, filterMap_append]
    exact congrArg (· ++ _) other
  | event long read decodes linked committed _ ih =>
    have head := segmentHead_read long read ((decodeSegment_ok_iff offset).mpr decodes)
    obtain ⟨segments, scanned, rfl, others, digests⟩ := ih _
    exact ⟨.event _ :: segments, by rw [scanAll_item (segmentHead_advancing w) head, scanned]; rfl, rfl,
      ⟨linked, others⟩,
      forall_mem_cons.mpr ⟨committed, digests⟩⟩

theorem passes_of_scan (scanned : scanAll (segmentHead w) offset bytes = .ok segments)
    (linked : Linked ChainEvent.prevHash ChainEvent.hash prev (segmentEvents segments))
    (committed : ∀ e ∈ segmentEvents segments, Committed h e) : Passes h w prev bytes (segmentEvents segments) := by
  induction segments generalizing offset bytes prev with
  | nil =>
    cases head : segmentHead w offset bytes with
    | stop => exact .ends ((segmentHead_stop_iff offset).mp head)
    | fail refusal =>
      rw [scanAll_fail (segmentHead_advancing w) head] at scanned
      cases scanned
    | item segment size =>
      rw [scanAll_item (segmentHead_advancing w) head, map_ok_iff] at scanned
      obtain ⟨_, -, same⟩ := scanned
      cases same
  | cons first later ih =>
    cases head : segmentHead w offset bytes with
    | stop =>
      rw [scanAll_stop (segmentHead_advancing w) head] at scanned
      cases scanned
    | fail refusal =>
      rw [scanAll_fail (segmentHead_advancing w) head] at scanned
      cases scanned
    | item segment size =>
      rw [scanAll_item (segmentHead_advancing w) head, map_ok_iff] at scanned
      obtain ⟨_, scanned, same⟩ := scanned
      cases same
      obtain ⟨long, header, payload, read, decoded, rfl⟩ := segmentHead_item head
      have decodes := (decodeSegment_ok_iff offset).mp decoded
      cases first with
      | event e =>
        obtain ⟨next, others⟩ := linked
        obtain ⟨own, digests⟩ := forall_mem_cons.mp committed
        exact .event long read decodes next own (ih scanned others digests)
      | checkpoint | other => exact .skip long read decodes rfl (ih scanned linked committed)

theorem passes_unreadable (unreadable : readable w bytes = false) : Passes h w prev bytes more ↔ more = [] := by
  constructor
  · intro passes
    obtain ⟨segments, scanned, rfl, -⟩ := passes.scan 0
    rw [scanAll_stop (segmentHead_advancing w) ((segmentHead_stop_iff 0).mpr unreadable)] at scanned
    cases scanned
    rfl
  · rintro rfl
    exact .ends unreadable

end

/-- The damage does not pass for the end of a shorter chain: an event that was left is refused, or what follows
those left is refused, has no event and there was none, or goes on with the events that were saved. -/
def Apparent (h : Hashing) (w : Wire) (events : List ChainEvent) (bytes : Octets) : Prop :=
  let left := events.take (intact w events bytes)
  let lost := events.drop (intact w events bytes)
  (∃ e ∈ left, e.payload = some .null) ∨
    ∀ more, Passes h w (tip ChainEvent.hash Digest.zero left) (bytes.drop (extent w left)) more →
      left = [] ∧ more = [] ∨ lost.map stored <+: more

section
variable {h : Hashing} {w : Wire} (laws : CutLaws w) (nullDigest : h.shake256 (h.toVec .null) ≠ Digest.zero)
variable {events : List ChainEvent} (linked : Linked ChainEvent.prevHash ChainEvent.hash Digest.zero events)
variable (committed : ∀ e ∈ events, Committed h e) (writable : ∀ e ∈ events, Writable w e)

theorem tip_reread (root : Digest) (events : List ChainEvent) :
    tip ChainEvent.hash root (events.map reread) = tip ChainEvent.hash root events := by
  rw [tip, tip, getLast?_map, Option.map_map]
  rfl

include laws nullDigest linked committed writable in
/-- What is loaded is what was left and what passes behind it. -/
theorem load_ok_iff (bytes : Octets) (interval : UInt64) (shown : List ChainEvent) :
    (∃ loaded, loadFromRvf h w bytes interval = .ok loaded ∧ loaded.events = shown) ↔
      (∀ e ∈ events.take (intact w events bytes), e.payload ≠ some .null) ∧
        ∃ more, Passes h w (tip ChainEvent.hash Digest.zero (events.take (intact w events bytes)))
          (bytes.drop (extent w (events.take (intact w events bytes)))) more ∧
          shown = (events.take (intact w events bytes)).map stored ++ more ∧ shown ≠ [] := by
  have segments := scanAll_intact laws writable 0 bytes
  have linkedLeft : Linked ChainEvent.prevHash ChainEvent.hash Digest.zero (events.take (intact w events bytes)) := by
    rw [← take_append_drop (intact w events bytes) events, linked_append] at linked
    exact linked.1
  have committedLeft : ∀ e ∈ events.take (intact w events bytes), Committed h e :=
    fun e listed => committed e (mem_of_mem_take listed)
  generalize events.take (intact w events bytes) = left at *
  constructor
  · rintro ⟨loaded, load, rfl⟩
    rw [loadFromRvf, bind_ok_iff] at load
    obtain ⟨found, scanned, accepted⟩ := load
    rw [segments, map_ok_iff] at scanned
    obtain ⟨later, behind, rfl⟩ := scanned
    rw [segmentEvents_append] at accepted
    obtain ⟨first, rest, starts, joined, digests, rfl⟩ := restore_ok_iff.mp accepted
    have present : ∀ e ∈ left, e.payload ≠ some .null := fun e listed =>
      (committed_reread_iff nullDigest (committedLeft e listed)).mp
        (digests _ (mem_append_left _ (mem_map_of_mem listed)))
    rw [linked_append, tip_reread] at joined
    refine ⟨present, _, passes_of_scan behind joined.2 fun e listed => digests e (mem_append_right _ listed), ?_, ?_⟩
    · rw [← map_reread_eq_stored present]
      rfl
    · change left.map reread ++ segmentEvents later ≠ []
      rw [starts]
      exact cons_ne_nil _ _
  · rintro ⟨present, more, passes, rfl, some_⟩
    obtain ⟨later, behind, rfl, others, digests⟩ := passes.scan (0 + extent w left)
    rw [← map_reread_eq_stored present] at some_ ⊢
    obtain ⟨first, rest, starts⟩ := exists_cons_of_ne_nil some_
    refine ⟨LocalChain.fromEvents first.chainId interval (left.map reread ++ segmentEvents later)
      (segmentWitnesses (left.map (fun event => Segment.event (reread event)) ++ later)), ?_, rfl⟩
    rw [loadFromRvf, segments, behind]
    change restore h interval (segmentEvents _) _ = _
    rw [segmentEvents_append]
    refine restore_ok_iff.mpr ⟨first, rest, starts, ?_, ?_, rfl⟩
    · rw [linked_append, tip_reread]
      exact ⟨linked_reread.mpr linkedLeft, others⟩
    · intro e listed
      rcases mem_append.mp listed with old | new
      · obtain ⟨original, member, rfl⟩ := mem_map.mp old
        exact (committed_reread_iff nullDigest (committedLeft original member)).mpr (present original member)
      · exact digests e new

include laws nullDigest linked committed writable in
theorem reported_iff_apparent (interval : UInt64) : Reported h w events bytes interval ↔ Apparent h w events bytes := by
  have loads := load_ok_iff laws nullDigest linked committed writable bytes interval
  have whole : events.map stored = (events.take (intact w events bytes)).map stored ++
      (events.drop (intact w events bytes)).map stored := by rw [← map_append, take_append_drop]
  constructor
  · intro reported
    by_cases null : ∃ e ∈ events.take (intact w events bytes), e.payload = some .null
    · exact .inl null
    refine .inr fun more passes => ?_
    have present : ∀ e ∈ events.take (intact w events bytes), e.payload ≠ some .null :=
      fun e listed is => null ⟨e, listed, is⟩
    by_cases none_ : (events.take (intact w events bytes)).map stored ++ more = []
    · obtain ⟨first, second⟩ := append_eq_nil_iff.mp none_
      exact .inl ⟨map_eq_nil_iff.mp first, second⟩
    · obtain ⟨loaded, load, shown⟩ := (loads _).mpr ⟨present, more, passes, rfl, none_⟩
      rcases reported with ⟨refusal, refused⟩ | ⟨again, accepted, kept⟩
      · cases refused.symm.trans load
      · cases accepted.symm.trans load
        rw [shown, whole, prefix_append_right_inj] at kept
        exact .inr kept
  · intro apparent
    cases load : loadFromRvf h w bytes interval with
    | error refusal => exact .inl ⟨refusal, load⟩
    | ok loaded =>
      refine .inr ⟨loaded, load, ?_⟩
      obtain ⟨present, more, passes, shown, some_⟩ := (loads _).mp ⟨loaded, load, rfl⟩
      rcases apparent with ⟨e, listed, null⟩ | follows
      · exact absurd null (present e listed)
      rcases follows more passes with ⟨first, second⟩ | kept
      · rw [shown, first, second] at some_
        exact absurd rfl some_
      · rw [shown, whole, prefix_append_right_inj]
        exact kept

end

/-! ### Cuts -/

def keptBy (w : Wire) : List ChainEvent → Nat → Nat
  | [], _ => 0
  | event :: later, n =>
    if w.headerSize + (eventBody w event).length ≤ n then keptBy w later (n - (eventSegment w event).length) + 1
    else 0

theorem cut_drop (w : Wire) (before : List ChainEvent) (event : ChainEvent) (after : List ChainEvent) (rest : Octets)
    (n : Nat) :
    (((before ++ event :: after).flatMap (eventSegment w) ++ rest).take n).drop (extent w before) =
      (eventSegment w event ++ (after.flatMap (eventSegment w) ++ rest)).take (n - extent w before) := by
  rw [drop_take, flatMap_append, flatMap_cons, append_assoc, append_assoc, extent,
    drop_left]

variable {n : Nat}

section
variable {w : Wire} (laws : CutLaws w)
include laws

theorem eventSegment_covers (event : ChainEvent) :
    w.headerSize + (eventBody w event).length ≤ (eventSegment w event).length := by
  have size := laws.size_write 0x10 (eventBody w event) event.sequence
  exact le_of_le_of_eq (w.paddedSize_ge _) size.symm

section
variable (writable : Writable w event)
include writable

theorem readSegment_cut (rest : Octets)
    (short : n < w.headerSize + (eventBody w event).length) :
    w.readSegment ((eventSegment w event ++ rest).take n) = none := by
  have covers := eventSegment_covers laws event
  rw [take_append_of_le_length (by omega)]
  exact laws.read_cut 0x10 _ event.sequence n writable.fits short

theorem readSegment_kept (rest : Octets)
    (enough : w.headerSize + (eventBody w event).length ≤ n) :
    ∃ header, w.readSegment ((eventSegment w event ++ rest).take n) = some (header, eventBody w event) ∧
      w.validateSegment header (eventBody w event) = .ok () := by
  have covers := eventSegment_covers laws event
  obtain ⟨header, read, valid⟩ := laws.read_front 0x10 (eventBody w event) event.sequence
    (((eventSegment w event ++ rest).take n).drop (w.headerSize + (eventBody w event).length)) writable.fits
  have front : ((eventSegment w event ++ rest).take n).take (w.headerSize + (eventBody w event).length) =
      (eventSegment w event).take (w.headerSize + (eventBody w event).length) := by
    rw [take_take, Nat.min_eq_left enough, take_append_of_le_length covers]
  refine ⟨header, ?_, valid⟩
  rw [← take_append_drop (w.headerSize + (eventBody w event).length) ((eventSegment w event ++ rest).take n),
    front]
  exact read

theorem holds_cut (rest : Octets) (n : Nat) :
    holds w event ((eventSegment w event ++ rest).take n) = true ↔
      w.headerSize + (eventBody w event).length ≤ n := by
  have covers := eventSegment_covers laws event
  rw [holds_iff]
  constructor
  · rintro ⟨-, header, read, -⟩
    by_contra short
    rw [readSegment_cut laws writable rest (not_le.mp short)] at read
    cases read
  · intro enough
    refine ⟨?_, readSegment_kept laws writable rest enough⟩
    rw [length_take, length_append]
    omega

end

variable {events : List ChainEvent}

variable (writable : ∀ e ∈ events, Writable w e)
include writable

theorem intact_cut (rest : Octets) (n : Nat) :
    intact w events ((events.flatMap (eventSegment w) ++ rest).take n) = keptBy w events n := by
  induction events generalizing n with
  | nil => rfl
  | cons event later ih =>
    have here := holds_cut laws (writable event mem_cons_self) (later.flatMap (eventSegment w) ++ rest) n
    rw [intact, keptBy, flatMap_cons, append_assoc, drop_take, drop_left,
      ih fun e listed => writable e (mem_cons_of_mem event listed)]
    exact if_congr here rfl rfl

theorem unreadable_cut (rest : Octets)
    (missing : keptBy w events n < events.length) :
    readable w (((events.flatMap (eventSegment w) ++ rest).take n).drop
      (extent w (events.take (keptBy w events n)))) = false := by
  rw [← intact_cut laws writable rest n] at missing ⊢
  obtain ⟨event, after, split, gone⟩ := intact_break missing
  generalize events.take (intact w events ((events.flatMap (eventSegment w) ++ rest).take n)) = before at *
  subst split
  have whole := writable event (mem_append_right before mem_cons_self)
  rw [cut_drop] at gone ⊢
  have short := mt (holds_cut laws whole (after.flatMap (eventSegment w) ++ rest) (n - extent w before)).mpr
    (Bool.eq_false_iff.mp gone)
  rw [readable, readSegment_cut laws whole _ (not_le.mp short)]
  simp

end

theorem saveToRvf_starts {keys : Keys w} (saved : saveToRvf w keys chain now = some data) :
    ∃ rest, data = chain.events.flatMap (eventSegment w) ++ rest := by
  unfold saveToRvf at saved
  obtain ⟨signatures, -, same⟩ := Option.bind_eq_some_iff.mp saved
  cases same
  exact ⟨_, append_assoc _ _ _⟩

theorem segmentWire_cut (known : List Value) : CutLaws (segmentWire known) where
  toWireLaws := segmentWire_laws known
  read_front kind payload id rest fits := by
    refine ⟨⟨payload.length, checksum payload⟩, ?_,
      validate_checksum payload.length payload⟩
    have front := read_front kind id fits rest
    rw [← write_take] at front
    rw [segmentWire_read, segmentWire_write]
    exact front
  read_cut kind payload id n fits short := by
    rw [segmentWire_read, segmentWire_write]
    exact read_cut kind id fits short
  read_length bytes header payload found := read_length found

end Weftos.Chain.RvfDamage
