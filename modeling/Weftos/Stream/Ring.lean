import Weftos.Lib.Bytes
import Weftos.Lib.Run
import Weftos.Lib.Seqlock

/-! The ring of a stream topic (`weftos-cogbus/src/stream/ring.rs`, `wire.rs`). Each step is one load or one
store of a word; words are numbers below 2^64 and their arithmetic wraps. -/

namespace Weftos.Stream.Ring
open Lib.Bytes Lib.Seqlock List

variable (g : Geometry) (rec : StreamRecord)

def U64 : Nat := 2 ^ 64

def wrap (value : Nat) : Nat := value % U64

/-! ### Geometry -/

def HEADER : Nat := 128
def SLOT_HEADER : Nat := 32
def OFF_HEAD : Nat := 64
def OFF_EPOCH : Nat := 72
def BUSY : Nat := U64 - 1
def VERSION : Nat := 1
def MAGIC : Nat := ofLeBytes (utf8 "COGRING1")

def divCeil (value by_ : Nat) : Nat := (value + by_ - 1) / by_

structure Geometry where
  slotCount : Nat
  slotSize : Nat
  maxRecord : Nat
  deriving DecidableEq

def slotBytes (maxRecord : Nat) : Nat := wrap (SLOT_HEADER + wrap (divCeil maxRecord 8 * 8))

/-- The geometry for `max_record` payloads in `ring_bytes`; none where fewer than two
slots fit. -/
def Geometry.fit (maxRecord ringBytes : Nat) : Option Geometry :=
  if maxRecord = 0 then none
  else if ringBytes < HEADER then none
  else
    let slotSize := wrap (divCeil (slotBytes maxRecord) 64 * 64)
    let slotCount := (ringBytes - HEADER) / slotSize
    if 2 ≤ slotCount then some ⟨slotCount, slotSize, maxRecord⟩ else none

def Geometry.valid (g : Geometry) : Bool :=
  2 ≤ g.slotCount && g.slotSize % 64 = 0 && slotBytes g.maxRecord ≤ g.slotSize && g.slotCount * g.slotSize < U64

def Geometry.slot (g : Geometry) (seq : Nat) : Nat :=
  HEADER + wrap (seq + U64 - 1) % g.slotCount * g.slotSize

structure StreamRecord where
  seq : Nat
  tNs : Nat
  wNs : Nat
  data : Octets
  deriving DecidableEq

/-- Payload as words, eight bytes each, the last one filled with zeros. -/
def payloadWords : (count : Nat) → Octets → List Nat
  | 0, _ => []
  | count + 1, data =>
    ofLeBytes (data.take 8 ++ replicate (8 - data.length) 0) :: payloadWords count (data.drop 8)

/-- The words behind a slot's seq: len, t_ns, w_ns and the payload. -/
def StreamRecord.words (rec : StreamRecord) : List Nat :=
  rec.data.length :: rec.tNs :: rec.wNs :: payloadWords (divCeil rec.data.length 8) rec.data

/-- `writing` is the record of the call under way and its slot stores still to make; the
store of `head` is the last one of the call. -/
structure RingWriter where
  head : Nat
  writing : Option (StreamRecord × List Store)

def RingWriter.nextSeq (w : RingWriter) : Nat := wrap (w.head + 1)

/-- The seq of `write_at`: at least the next one. -/
def RingWriter.seqAt (w : RingWriter) (seq : UInt64) : Nat :=
  let head := wrap (max seq.toNat (wrap (w.head + 1)) + U64 - 1)
  wrap (head + 1)

/-! ### Reader -/

/-- Where a `read` is between two loads; `left` counts the turns of its loop after this
one. -/
inductive At where
  | idle
  | head (left : Nat)
  | first (left : Nat)
  | body (left : Nat) (loaded : List Nat)
  deriving DecidableEq

/-- `got` is what its reads returned so far. -/
structure RingReader where
  next : Nat
  at_ : At
  got : List StreamRecord

def turns (g : Geometry) : Nat := wrap (2 * g.slotCount + 16)

def RingReader.turn (r : RingReader) : Nat → RingReader
  | 0 => { r with at_ := .idle }
  | left + 1 => { r with at_ := .head left }

def oldest (g : Geometry) (head : Nat) : Nat := max (wrap (head + 2) - g.slotCount) 1

/-- Every word of the slot is copied: `len` says how many there are. -/
def copyDone (g : Geometry) : List Nat → Bool
  | [] => false
  | len :: rest => 2 + divCeil (min len g.maxRecord) 8 ≤ rest.length

def copiedRecord (g : Geometry) (seq : Nat) : List Nat → StreamRecord
  | len :: tNs :: wNs :: words => ⟨seq, tNs, wNs, (words.flatMap (leBytes 8)).take (min len g.maxRecord)⟩
  | _ => ⟨seq, 0, 0, []⟩

/-- One step of `read`: the call, or one load and what follows from it. -/
def RingReader.read (g : Geometry) (mem : Memory) (r : RingReader) : RingReader :=
  match r.at_ with
  | .idle => r.turn (turns g)
  | .head left =>
    if mem OFF_HEAD < r.next then { r with at_ := .idle }
    else { r with next := max r.next (oldest g (mem OFF_HEAD)), at_ := .first left }
  | .first left =>
    let s1 := mem (g.slot r.next)
    if s1 = r.next then { r with at_ := .body left [] }
    -- committed per head but never in its slot: skip it
    else if s1 < r.next then { r with next := wrap (r.next + 1) }.turn left
    else r.turn left
  | .body left loaded =>
    if copyDone g loaded then
      if mem (g.slot r.next) = r.next then
        { next := wrap (r.next + 1), at_ := .idle, got := r.got ++ [copiedRecord g r.next loaded] }
      else r.turn left
    else { r with at_ := .body left (loaded ++ [mem (wordAt (g.slot r.next) loaded.length)]) }

/-- A `sample` reader starts each read at the newest record. -/
def RingReader.sample (mem : Memory) (r : RingReader) : RingReader :=
  if r.at_ = .idle then { r with next := max r.next (mem OFF_HEAD) } else r

/-! ### The system -/

/-- `log` is every record the writer committed, oldest first. -/
structure State (ι : Type) where
  mem : Memory
  writer : RingWriter
  log : List StreamRecord
  readers : ι → RingReader

inductive Act (ι : Type) where
  | write (tNs wNs : Nat) (data : Octets)
  | writeAt (seq : UInt64) (tNs wNs : Nat) (data : Octets)
  | store
  | read (reader : ι)
  | sample (reader : ι)

def init (g : Geometry) (ringId head : Nat) : Memory :=
  [(0, MAGIC), (8, VERSION), (16, g.slotCount), (24, g.slotSize), (32, g.maxRecord), (40, ringId),
    (OFF_HEAD, head)].foldl Memory.store fun _ => 0

variable (s : State ι)

section
variable {ι : Type}

/-- A ring made by `init` with a writer attached, and readers that each start at some
seq. -/
def State.opened (g : Geometry) (ringId head : Nat) (starts : ι → Nat) : State ι where
  mem := (init g ringId head).store (OFF_EPOCH, wrap (init g ringId head OFF_EPOCH + 1))
  writer := ⟨init g ringId head OFF_HEAD, none⟩
  log := []
  readers i := ⟨starts i, .idle, []⟩

/-- A write begins; a record over `max_record` is a panic before anything is stored. -/
def State.begin (g : Geometry) (s : State ι) (rec : StreamRecord) : State ι :=
  if s.writer.writing.isNone && rec.data.length ≤ g.maxRecord then
    { s with writer.writing := some (rec, publish (g.slot rec.seq) BUSY rec.seq rec.words) }
  else s

@[simp] theorem State.begin_mem : (s.begin g rec).mem = s.mem := by
  unfold State.begin
  split_ifs <;> rfl

@[simp] theorem State.begin_log : (s.begin g rec).log = s.log := by
  unfold State.begin
  split_ifs <;> rfl

@[simp] theorem State.begin_readers :
    (s.begin g rec).readers = s.readers := by
  unfold State.begin
  split_ifs <;> rfl

def State.store (s : State ι) : State ι :=
  match s.writer.writing with
  | none => s
  | some (rec, st :: rest) => { s with mem := s.mem.store st, writer.writing := some (rec, rest) }
  | some (rec, []) =>
    { s with mem := s.mem.store (OFF_HEAD, rec.seq), writer := ⟨rec.seq, none⟩, log := s.log ++ [rec] }

variable [DecidableEq ι]

def State.setReader (s : State ι) (i : ι) (r : RingReader) : State ι :=
  { s with readers := Function.update s.readers i r }

def step (g : Geometry) (s : State ι) : Act ι → State ι
  | .write tNs wNs data => s.begin g ⟨s.writer.nextSeq, tNs, wNs, data⟩
  | .writeAt seq tNs wNs data => s.begin g ⟨s.writer.seqAt seq, tNs, wNs, data⟩
  | .store => s.store
  | .read i => s.setReader i ((s.readers i).read g s.mem)
  | .sample i => s.setReader i ((s.readers i).sample s.mem)

/-- The record under way is not numbered `u64::MAX`, the mark of a busy slot. -/
def Numbered (s : State ι) : Prop := s.writer.writing.all (fun write => write.1.seq ≠ BUSY) = true

instance (s : State ι) : Decidable (Numbered s) := inferInstanceAs (Decidable (_ = true))

end

/-! ### Payload -/

theorem le_divCeil_mul (value : Nat) : value ≤ 8 * divCeil value 8 := by
  unfold divCeil
  omega

theorem divCeil_mono (below : value ≤ bound) : divCeil value 8 ≤ divCeil bound 8 := by
  unfold divCeil
  omega

theorem payloadWords_length (count : Nat) (data : Octets) : (payloadWords count data).length = count := by
  induction count generalizing data with
  | zero => rfl
  | succ count ih => rw [payloadWords, length_cons, ih]

theorem StreamRecord.words_length : rec.words.length = 3 + divCeil rec.data.length 8 := by
  simp only [StreamRecord.words, length_cons, payloadWords_length]
  omega

theorem payloadWords_bytes (count : Nat) (data : Octets) (fits : data.length ≤ 8 * count) :
    ((payloadWords count data).flatMap (leBytes 8)).take data.length = data := by
  induction count generalizing data with
  | zero =>
    have empty : data = [] := length_eq_zero_iff.mp (by omega)
    rw [empty, length_nil, take_zero]
  | succ count ih =>
    have eight : (data.take 8 ++ replicate (8 - data.length) 0).length = 8 := by
      rw [length_append, length_take, length_replicate]
      omega
    have word := leBytes_ofLeBytes (data.take 8 ++ replicate (8 - data.length) 0)
    rw [eight] at word
    rw [payloadWords, flatMap_cons, word]
    by_cases last : data.length ≤ 8
    · rw [take_of_length_le last, append_assoc, take_left]
    · have rest := ih (data.drop 8) (by rw [length_drop]; omega)
      have none : 8 - data.length = 0 := by omega
      rw [length_drop] at rest
      rw [none, replicate_zero, append_nil, take_append,
        take_of_length_le (by rw [length_take]; omega), length_take_of_le (by omega), rest,
        take_append_drop]

theorem copiedRecord_words (fits : rec.data.length ≤ g.maxRecord) :
    copiedRecord g rec.seq rec.words = rec := by
  simp only [StreamRecord.words, copiedRecord, Nat.min_eq_left fits,
    payloadWords_bytes _ rec.data (le_divCeil_mul rec.data.length)]

theorem copyDone_front {g : Geometry} {rec : StreamRecord} (fits : rec.data.length ≤ g.maxRecord)
    (front : loaded <+: rec.words) :
    copyDone g loaded = true ↔ loaded = rec.words := by
  constructor
  · intro done
    apply front.eq_of_length
    have bound := front.length_le
    cases loaded with
    | nil => cases done
    | cons len rest =>
      have same : len = rec.data.length := by
        obtain ⟨later, whole⟩ := front
        exact (cons.inj whole).1
      simp only [copyDone, same, Nat.min_eq_left fits, decide_eq_true_eq] at done
      rw [rec.words_length, length_cons] at bound ⊢
      omega
  · rintro rfl
    have length := rec.words_length
    simp only [StreamRecord.words, length_cons] at length
    simp only [StreamRecord.words, copyDone, Nat.min_eq_left fits, decide_eq_true_eq, length_cons]
    omega

end Weftos.Stream.Ring
