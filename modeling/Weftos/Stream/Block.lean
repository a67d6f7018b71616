import Weftos.Stream.Ring

/-! A stream writer that waits for its `block` readers (`weftos-cogbus/src/stream/writer.rs`, `reader.rs`).
`lagging` and `demote_lagging` load one cursor page per step. -/

namespace Weftos.Stream.Block
open Lib.Bytes Stream.Ring Function

/-- Where a write call is between two steps. `again` is false in the first `lagging` of
the call; `todo` are the cursors still to load, with the list locked. -/
inductive Phase (ι : Type) where
  | idle
  | any (rec : StreamRecord) (again : Bool)
  | lock (rec : StreamRecord) (again : Bool)
  | scan (rec : StreamRecord) (again : Bool) (todo : List ι)
  | late (rec : StreamRecord)
  | demote (rec : StreamRecord) (todo : List ι)
  | write

/-- What a `StreamReader` keeps beside its place in the ring: its policy, a cursor store
that is due, and its account of gaps. -/
structure Client where
  block : Bool
  due : Bool
  lastSeq : Nat
  skipped : Nat

/-- `page` holds every reader's cursor word, `cursors` the readers whose page the writer
has and `demoted` those among them it no longer waits for. -/
structure State (ι : Type) where
  ring : Ring.State ι
  phase : Phase ι
  cursors : List ι
  demoted : ι → Bool
  page : ι → Nat
  clients : ι → Client

/-- `expired` says whether the deadline has passed when the writer looks; `head` is what
the broker read from the ring before it handed it over. -/
inductive Act (ι : Type) where
  | write (tNs wNs : Nat) (data : Octets)
  | writeAt (seq : UInt64) (tNs wNs : Nat) (data : Octets)
  | writer (expired : Bool)
  | tryNext (reader : ι)
  | attach (reader : ι) (head : Nat)
  | relax (reader : ι)
  | join (reader : ι)
  | leave (reader : ι)

def keepFrom (g : Geometry) (seq : Nat) : Nat := wrap (seq + 2) - g.slotCount

def Phase.locked {ι : Type} : Phase ι → Bool
  | .scan .. | .demote .. => true
  | _ => false

/-- A record a `try_next` got goes into its account and makes its cursor store due. -/
def Client.note (c : Client) (seq : Nat) : Client where
  block := c.block
  due := c.block
  lastSeq := seq
  skipped := if c.lastSeq ≠ 0 && c.lastSeq + 1 < seq then c.skipped + (seq - c.lastSeq - 1) else c.skipped

section
variable {ι : Type}

def State.lags (g : Geometry) (s : State ι) (rec : StreamRecord) (i : ι) : Bool :=
  !s.demoted i && s.page i ≠ 0 && s.page i < keepFrom g rec.seq

def State.begin (g : Geometry) (s : State ι) (rec : StreamRecord) : State ι :=
  { s with ring := s.ring.begin g rec, phase := .write }

variable [DecidableEq ι]

def State.advance (g : Geometry) (s : State ι) (expired : Bool) : State ι :=
  match s.phase with
  | .idle => s
  -- `any` is kept equal to "the list is not empty"
  | .any rec again => if s.cursors = [] then s.begin g rec else { s with phase := .lock rec again }
  | .lock rec again => { s with phase := .scan rec again s.cursors }
  | .scan rec _ [] => s.begin g rec
  | .scan rec again (i :: todo) =>
    if s.lags g rec i then { s with phase := if again then .late rec else .any rec true }
    else { s with phase := .scan rec again todo }
  | .late rec => if expired then { s with phase := .demote rec s.cursors } else { s with phase := .any rec true }
  | .demote rec [] => s.begin g rec
  | .demote rec (i :: todo) =>
    if s.lags g rec i then { s with demoted := update s.demoted i true, phase := .demote rec todo }
    else { s with phase := .demote rec todo }
  | .write =>
    let ring := s.ring.store
    { s with ring := ring, phase := if ring.writer.writing.isNone then .idle else .write }

/-- The next step of a `try_next`: a step of the ring's read, or the store of the cursor
after a record. -/
def State.tryNext (g : Geometry) (s : State ι) (i : ι) : State ι :=
  let client := s.clients i
  if client.due then
    { s with
      page := update s.page i (s.ring.readers i).next
      clients := update s.clients i { client with due := false } }
  else
    let reader := (s.ring.readers i).read g s.ring.mem
    let ring := s.ring.setReader i reader
    match reader.got.drop (s.ring.readers i).got.length with
    | [] => { s with ring := ring }
    | rec :: _ => { s with ring := ring, clients := update s.clients i (client.note rec.seq) }

/-- A reader takes over the ring after the head it was handed over with. -/
def State.attach (s : State ι) (i : ι) (head : Nat) : State ι :=
  if head ≤ s.ring.mem OFF_HEAD && (s.ring.readers i).at_ = .idle && !(s.clients i).due then
    { s with
      ring := s.ring.setReader i ⟨wrap (head + 1), .idle, []⟩
      page := if (s.clients i).block then update s.page i (wrap (head + 1)) else s.page }
  else s

def step (g : Geometry) (s : State ι) : Act ι → State ι
  | .write tNs wNs data =>
    match s.phase with
    | .idle =>
      if data.length ≤ g.maxRecord then { s with phase := .any ⟨s.ring.writer.nextSeq, tNs, wNs, data⟩ false } else s
    | _ => s
  | .writeAt seq tNs wNs data =>
    match s.phase with
    | .idle => if data.length ≤ g.maxRecord then s.begin g ⟨s.ring.writer.seqAt seq, tNs, wNs, data⟩ else s
    | _ => s
  | .writer expired => s.advance g expired
  | .tryNext i => s.tryNext g i
  | .attach i head => s.attach i head
  | .relax i => { s with clients := update s.clients i { s.clients i with block := false } }
  | .join i =>
    if s.phase.locked then s
    else { s with cursors := s.cursors.filter (· ≠ i) ++ [i], demoted := update s.demoted i false }
  | .leave i => if s.phase.locked then s else { s with cursors := s.cursors.filter (· ≠ i) }

def State.opened (g : Geometry) (ringId head : Nat) (block : ι → Bool) : State ι where
  ring := Ring.State.opened g ringId head fun _ => 1
  phase := .idle
  cursors := []
  demoted _ := false
  page _ := 0
  clients i := ⟨block i, false, 0, 0⟩

def State.call (s : State ι) : Option StreamRecord :=
  match s.phase with
  | .idle => none
  | .any rec _ | .lock rec _ | .scan rec _ _ | .late rec | .demote rec _ => some rec
  | .write => s.ring.writer.writing.map (·.1)

/-- The seq of the write call is below 2^64 - 2, where the bounds of both sides wrap. -/
def Low (s : State ι) : Prop := s.call.all (fun rec => rec.seq + 2 < U64) = true

instance (s : State ι) : Decidable (Low s) := inferInstanceAs (Decidable (_ = true))

def Held (s : State ι) (i : ι) : Prop := i ∈ s.cursors ∧ s.demoted i = false

instance (s : State ι) (i : ι) : Decidable (Held s i) := inferInstanceAs (Decidable (_ ∧ _))

/-- The newest seq that does not wait for this reader: the one of a call that is past its
look at the cursor, else the head. -/
def State.reach (s : State ι) (i : ι) : Nat :=
  match s.phase with
  | .scan rec _ todo | .demote rec todo => if i ∈ todo then s.ring.mem OFF_HEAD else rec.seq
  | .write => (s.ring.writer.writing.map (·.1.seq)).getD (s.ring.mem OFF_HEAD)
  | _ => s.ring.mem OFF_HEAD

/-- A moment at which reader `i` has `start` in its cursor page and the writer waits for
it. -/
structure Published (g : Geometry) (s : State ι) (i : ι) (start : Nat) : Prop where
  held : Held s i
  page : s.page i = start
  next : (s.ring.readers i).next = start
  idle : (s.ring.readers i).at_ = .idle
  positive : 0 < start
  readable : s.reach i + 2 ≤ start + g.slotCount

end

end Weftos.Stream.Block
