import Weftos.Lib.Rising
import Weftos.Stream.Ring

/-! No reader of a ring gets a torn or foreign record: a slot whose seq word shows a seq holds that record's
words. -/

namespace Weftos.Stream.Untorn
open Lib.Rising Lib.Run Lib.Seqlock Stream.Ring List Nat State

/-! ### Slots -/

/-- What `valid` is meant to check, in numbers that do not wrap. -/
structure Sound (g : Geometry) : Prop where
  two : 2 ≤ g.slotCount
  room : SLOT_HEADER + divCeil g.maxRecord 8 * 8 ≤ g.slotSize
  bytes : g.slotCount * g.slotSize < U64

theorem sound_of_valid (valid : g.valid = true) (small : g.maxRecord + 40 ≤ U64) : Sound g := by
  simp only [Geometry.valid, Bool.and_eq_true, decide_eq_true_eq] at valid
  obtain ⟨⟨⟨two, _⟩, room⟩, bytes⟩ := valid
  have payload : SLOT_HEADER + divCeil g.maxRecord 8 * 8 < U64 := by
    unfold divCeil SLOT_HEADER
    omega
  refine ⟨two, ?_, bytes⟩
  rw [slotBytes, wrap, wrap, mod_eq_of_lt (a := divCeil g.maxRecord 8 * 8) (by omega), mod_eq_of_lt payload] at room
  exact room

example : Geometry.fit 8 320 = some ⟨3, 64, 8⟩ := by decide

section
variable {g : Geometry} (sound : Sound g) {rec : StreamRecord} {i : Nat}

theorem header_le_slot (g : Geometry) (seq : Nat) : HEADER ≤ g.slot seq := Nat.le_add_right ..

theorem slots_apart (g : Geometry) (first second : Nat) :
    g.slot first = g.slot second ∨ g.slot first + g.slotSize ≤ g.slot second ∨
      g.slot second + g.slotSize ≤ g.slot first := by
  unfold Geometry.slot
  generalize wrap (first + U64 - 1) % g.slotCount = i
  generalize wrap (second + U64 - 1) % g.slotCount = j
  rcases lt_trichotomy i j with below | same | above
  · have := mul_le_mul_right g.slotSize below
    rw [succ_mul] at this
    omega
  · exact .inl (by rw [same])
  · have := mul_le_mul_right g.slotSize above
    rw [succ_mul] at this
    omega

include sound

theorem wordAt_inside (tag : Nat) (fits : rec.data.length ≤ g.maxRecord) (inside : i < rec.words.length) :
    tag < wordAt tag i ∧ wordAt tag i < tag + g.slotSize := by
  have room := sound.room
  have words := divCeil_mono fits
  rw [rec.words_length] at inside
  unfold wordAt
  unfold SLOT_HEADER at room
  omega

theorem wordAt_ne_slot (fits : rec.data.length ≤ g.maxRecord) (inside : i < rec.words.length) :
    wordAt (g.slot first) i ≠ g.slot second := by
  have bounds := wordAt_inside sound (g.slot first) fits inside
  rcases slots_apart g first second with same | apart | apart <;> omega

theorem wordAt_ne_wordAt {other : StreamRecord} (fits : rec.data.length ≤ g.maxRecord)
    (fitsOther : other.data.length ≤ g.maxRecord) {first second j : Nat} (inside : i < rec.words.length)
    (insideOther : j < other.words.length) (apart : g.slot first ≠ g.slot second) :
    wordAt (g.slot first) i ≠ wordAt (g.slot second) j := by
  have bounds := wordAt_inside sound (g.slot first) fits inside
  have boundsOther := wordAt_inside sound (g.slot second) fitsOther insideOther
  rcases slots_apart g first second with same | apart | apart <;> omega

end

/-! ### Invariant -/

section
variable {ι : Type} {g : Geometry}

def records (s : State ι) : List StreamRecord := s.log ++ (s.writer.writing.map (·.1)).toList

def Stands (g : Geometry) (mem : Memory) (log : List StreamRecord) (next : Nat) : At → Prop
  | .idle | .head _ => True
  | .first _ => next ≤ mem OFF_HEAD
  | .body _ loaded => next ≤ mem OFF_HEAD ∧
      ∃ rec ∈ log, rec.seq = next ∧ Copied mem (g.slot next) next rec.words loaded

structure ReaderInv (g : Geometry) (mem : Memory) (log : List StreamRecord) (r : RingReader) : Prop where
  next_pos : 0 < r.next
  next_le : r.next ≤ BUSY
  committed : ∀ rec ∈ r.got, rec ∈ log
  behind : ∀ rec ∈ r.got, rec.seq < r.next
  increasing : r.got.Pairwise fun earlier later => earlier.seq < later.seq
  stands : Stands g mem log r.next r.at_

/-- A write under way: its seq is new and its stores go on from what the slot shows. -/
structure WritingInv (g : Geometry) (mem : Memory) (rec : StreamRecord) (rest : List Store) : Prop where
  new : mem OFF_HEAD < rec.seq
  numbered : rec.seq < BUSY
  fits : rec.data.length ≤ g.maxRecord
  progress : Progress mem (g.slot rec.seq) BUSY rec.seq rec.words rest

structure Inv (g : Geometry) (s : State ι) : Prop where
  head_lt : s.mem OFF_HEAD < BUSY
  writer_head : s.writer.head = s.mem OFF_HEAD
  log_le : ∀ rec ∈ s.log, rec.seq ≤ s.mem OFF_HEAD
  log_fits : ∀ rec ∈ s.log, rec.data.length ≤ g.maxRecord
  log_increasing : s.log.Pairwise fun earlier later => earlier.seq < later.seq
  slots : ∀ seq, 0 < seq → seq < BUSY → s.mem (g.slot seq) = seq →
    ∃ rec ∈ records s, rec.seq = seq ∧ Shows s.mem (g.slot seq) rec.words
  writing : ∀ rec rest, s.writer.writing = some (rec, rest) → WritingInv g s.mem rec rest
  readers : ∀ i, ReaderInv g s.mem s.log (s.readers i)

variable {s : State ι} {rec : StreamRecord} {seq : Nat} {st : Store} {rest : List Store} {mem : Memory}
  {log : List StreamRecord} {r : RingReader} {loaded : List Nat}

theorem mem_records : rec ∈ records s ↔ rec ∈ s.log ∨ ∃ rest, s.writer.writing = some (rec, rest) := by
  rw [records, mem_append, Option.mem_toList, Option.map_eq_some_iff]
  simp

theorem Inv.fits (inv : Inv g s) (member : rec ∈ records s) : rec.data.length ≤ g.maxRecord := by
  rcases mem_records.mp member with committed | ⟨rest, underWay⟩
  · exact inv.log_fits rec committed
  · exact (inv.writing rec rest underWay).fits

theorem Inv.committed_slot (inv : Inv g s) (positive : 0 < seq) (below : seq ≤ s.mem OFF_HEAD)
    (shown : s.mem (g.slot seq) = seq) : ∃ rec ∈ s.log, rec.seq = seq ∧ Shows s.mem (g.slot seq) rec.words := by
  have bound := inv.head_lt
  obtain ⟨rec, member, same, shows⟩ := inv.slots seq positive (by omega) shown
  refine ⟨rec, ?_, same, shows⟩
  rcases mem_records.mp member with committed | ⟨rest, underWay⟩
  · exact committed
  · have := (inv.writing rec rest underWay).new
    omega

theorem opened_head (g : Geometry) (ringId head : Nat) (starts : ι → Nat) :
    (opened g ringId head starts).mem OFF_HEAD = head := by
  simp [opened, init, Memory.store, OFF_HEAD, OFF_EPOCH]

theorem opened_slot (g : Geometry) (ringId head seq : Nat) (starts : ι → Nat) :
    (opened g ringId head starts).mem (g.slot seq) = 0 := by
  have bound := header_le_slot g seq
  unfold HEADER at bound
  have apart (address : Nat) (low : address < 128) : g.slot seq ≠ address := by omega
  simp [opened, init, Memory.store, Function.update_of_ne, apart, OFF_HEAD, OFF_EPOCH]

theorem inv_opened (g : Geometry) (ringId : Nat) {head : Nat} (below : head < BUSY)
    (words : ∀ i, 0 < starts i ∧ starts i < U64) : Inv g (opened g ringId head starts) where
  head_lt := by rw [opened_head]; exact below
  writer_head := by
    rw [opened_head]
    simp [opened, init, Memory.store, OFF_HEAD]
  log_le _ member := absurd member not_mem_nil
  log_fits _ member := absurd member not_mem_nil
  log_increasing := List.Pairwise.nil
  slots seq positive _ shown := by
    rw [opened_slot] at shown
    omega
  writing _ _ underWay := by cases underWay
  readers i :=
    { next_pos := (words i).1
      next_le := le_sub_one_of_lt (words i).2
      committed := fun _ member => absurd member not_mem_nil
      behind := fun _ member => absurd member not_mem_nil
      increasing := List.Pairwise.nil
      stands := trivial }

/-! ### The writer's steps -/

theorem Inv.begin (inv : Inv g s) (new : s.mem OFF_HEAD < rec.seq) (numbered : rec.seq < BUSY) :
    Inv g (s.begin g rec) := by
  unfold State.begin
  split_ifs with possible
  · simp only [Bool.and_eq_true, Option.isNone_iff_eq_none, decide_eq_true_eq] at possible
    refine { inv with slots := ?_, writing := ?_ }
    · intro seq positive below shown
      obtain ⟨found, member, same, shows⟩ := inv.slots seq positive below shown
      refine ⟨found, ?_, same, shows⟩
      rcases mem_records.mp member with committed | ⟨rest, underWay⟩
      · exact mem_records.mpr (.inl committed)
      · rw [possible.1] at underWay
        cases underWay
    · intro other rest underWay
      cases underWay
      exact ⟨new, numbered, possible.2, .start⟩
  · exact inv

section
variable (sound : Sound g) (writing : WritingInv g mem rec (st :: rest))
include sound writing

/-- What a slot store can do to a seq word: it marks the slot busy or shows the seq of
the write, and a body word goes to no seq word at all. -/
theorem WritingInv.at_slot (here : st.1 = g.slot seq) : st.2 = BUSY ∨ st.2 = rec.seq := by
  rcases writing.progress.store_cases with rfl | ⟨rfl, _⟩ | ⟨_, i, inside, word⟩
  · exact .inl rfl
  · exact .inr rfl
  · rw [word] at here
    exact absurd here (wordAt_ne_slot sound writing.fits inside)

theorem WritingInv.store_new (below : seq ≤ mem OFF_HEAD) (here : st.1 = g.slot seq) : st.2 ≠ seq := by
  have new := writing.new
  have numbered := writing.numbered
  rcases writing.at_slot sound here with busy | own <;> omega

theorem WritingInv.head_kept : mem.store st OFF_HEAD = mem OFF_HEAD := by
  apply Memory.store_other
  have bound := header_le_slot g rec.seq
  unfold HEADER at bound
  unfold OFF_HEAD
  rcases writing.progress.store_cases with rfl | ⟨rfl, _⟩ | ⟨_, i, inside, word⟩
  · omega
  · omega
  · have := wordAt_inside sound (g.slot rec.seq) writing.fits inside
    omega

/-- A slot store of a write leaves the words of a record that some seq word shows,
unless that is the write's own slot, which then shows the write itself. -/
theorem WritingInv.shown_after (below : seq < BUSY) (shown : mem.store st (g.slot seq) = seq) :
    (seq = rec.seq ∧ Shows (mem.store st) (g.slot seq) rec.words) ∨
      (mem (g.slot seq) = seq ∧ ∀ other : StreamRecord, other.data.length ≤ g.maxRecord →
        Shows mem (g.slot seq) other.words → Shows (mem.store st) (g.slot seq) other.words) := by
  have after := writing.progress.store
  rcases writing.progress.store_cases with rfl | ⟨rfl, rfl⟩ | ⟨busy, i, inside, word⟩
  · have apart : g.slot seq ≠ g.slot rec.seq := by
      intro same
      rw [same, Memory.store_same] at shown
      omega
    refine .inr ⟨(Memory.store_other apart).symm.trans shown, fun other fits shows => shows.store ?_⟩
    intro j inside
    exact wordAt_ne_slot sound fits inside
  · by_cases same : g.slot seq = g.slot rec.seq
    · rw [same, Memory.store_same] at shown
      subst shown
      exact .inl ⟨rfl, after.finished.2⟩
    · refine .inr ⟨(Memory.store_other same).symm.trans shown, fun other fits shows => shows.store ?_⟩
      intro j inside
      exact wordAt_ne_slot sound fits inside
  · have elsewhere : g.slot seq ≠ st.1 := by
      rw [word]
      exact (wordAt_ne_slot sound writing.fits inside).symm
    have before : mem (g.slot seq) = seq := (Memory.store_other elsewhere).symm.trans shown
    have apart : g.slot seq ≠ g.slot rec.seq := by
      intro same
      rw [same, busy] at before
      omega
    refine .inr ⟨before, fun other fits shows => shows.store ?_⟩
    intro j insideOther
    rw [word]
    exact wordAt_ne_wordAt sound fits writing.fits insideOther inside apart

theorem ReaderInv.store (inv : ReaderInv g mem log r) : ReaderInv g (mem.store st) log r := by
  refine { inv with stands := ?_ }
  have stands := inv.stands
  have kept := writing.head_kept sound
  cases where_ : r.at_ with
  | idle => trivial
  | head left => trivial
  | first left =>
    rw [where_] at stands
    exact stands.trans_eq kept.symm
  | body left loaded =>
    rw [where_] at stands
    obtain ⟨below, found, member, same, copied⟩ := stands
    exact ⟨kept ▸ below, found, member, same, copied.store (writing.store_new sound below)⟩

end

theorem Inv.slotStore (sound : Sound g) (inv : Inv g s) (underWay : s.writer.writing = some (rec, st :: rest)) :
    Inv g { s with mem := s.mem.store st, writer.writing := some (rec, rest) } := by
  have writing := inv.writing rec (st :: rest) underWay
  have kept := writing.head_kept sound
  have same_records (other : StreamRecord) : other ∈ records s →
      other ∈ records { s with mem := s.mem.store st, writer.writing := some (rec, rest) } := by
    rw [mem_records, mem_records, underWay]
    rintro (committed | ⟨left, same⟩)
    · exact .inl committed
    · cases same
      exact .inr ⟨rest, rfl⟩
  constructor
  case head_lt => exact kept.trans_lt inv.head_lt
  case writer_head => exact inv.writer_head.trans kept.symm
  case log_le => exact fun other member => (inv.log_le other member).trans_eq kept.symm
  case log_fits => exact inv.log_fits
  case log_increasing => exact inv.log_increasing
  case slots =>
    intro seq positive below shown
    rcases writing.shown_after sound below shown with ⟨own, shows⟩ | ⟨before, keeps⟩
    · exact ⟨rec, mem_records.mpr (.inr ⟨rest, rfl⟩), own.symm, shows⟩
    · obtain ⟨found, member, same, shows⟩ := inv.slots seq positive below before
      exact ⟨found, same_records found member, same, keeps found (inv.fits member) shows⟩
  case writing =>
    intro other left same
    cases same
    exact ⟨kept.trans_lt writing.new, writing.numbered, writing.fits, writing.progress.store⟩
  case readers => exact fun i => (inv.readers i).store sound writing

theorem ReaderInv.commit (new : mem OFF_HEAD < rec.seq) (inv : ReaderInv g mem log r) :
    ReaderInv g (mem.store (OFF_HEAD, rec.seq)) (log ++ [rec]) r := by
  have head : mem.store (OFF_HEAD, rec.seq) OFF_HEAD = rec.seq := Memory.store_same ..
  refine { inv with committed := fun found member => mem_append_left _ (inv.committed found member), stands := ?_ }
  have stands := inv.stands
  cases where_ : r.at_ with
  | idle => trivial
  | head left => trivial
  | first left =>
    rw [where_] at stands
    exact (le_of_lt (lt_of_le_of_lt stands new)).trans_eq head.symm
  | body left loaded =>
    rw [where_] at stands
    obtain ⟨below, found, member, same, copied⟩ := stands
    refine ⟨by rw [head]; omega, found, mem_append_left _ member, same, copied.store ?_⟩
    intro here
    have bound := header_le_slot g r.next
    unfold HEADER at bound
    omega

theorem Inv.headStore (inv : Inv g s) (underWay : s.writer.writing = some (rec, [])) :
    Inv g { s with mem := s.mem.store (OFF_HEAD, rec.seq), writer := ⟨rec.seq, none⟩, log := s.log ++ [rec] } := by
  have writing := inv.writing rec [] underWay
  have head : s.mem.store (OFF_HEAD, rec.seq) OFF_HEAD = rec.seq := Memory.store_same ..
  have elsewhere {address : Nat} (bound : HEADER ≤ address) : address ≠ OFF_HEAD := by
    unfold HEADER at bound
    unfold OFF_HEAD
    omega
  constructor
  case head_lt => exact head.symm ▸ writing.numbered
  case writer_head => exact head.symm
  case log_le =>
    intro other member
    change other.seq ≤ s.mem.store (OFF_HEAD, rec.seq) OFF_HEAD
    rw [head]
    rcases mem_append.mp member with earlier | last
    · exact (le_of_lt (lt_of_le_of_lt (inv.log_le other earlier) writing.new))
    · rw [mem_singleton.mp last]
  case log_fits =>
    intro other member
    rcases mem_append.mp member with earlier | last
    · exact inv.log_fits other earlier
    · rw [mem_singleton.mp last]
      exact writing.fits
  case log_increasing =>
    apply pairwise_append.mpr
    refine ⟨inv.log_increasing, pairwise_singleton .., ?_⟩
    intro earlier member last same
    rw [mem_singleton.mp same]
    exact lt_of_le_of_lt (inv.log_le earlier member) writing.new
  case slots =>
    intro seq positive below shown
    change s.mem.store (OFF_HEAD, rec.seq) (g.slot seq) = seq at shown
    rw [Memory.store_other (elsewhere (header_le_slot g seq))] at shown
    obtain ⟨found, member, same, shows⟩ := inv.slots seq positive below shown
    refine ⟨found, ?_, same, shows.store ?_⟩
    · rw [mem_records] at member ⊢
      rcases member with committed | ⟨left, own⟩
      · exact .inl (mem_append_left _ committed)
      · rw [underWay] at own
        cases own
        exact .inl (mem_append_right _ mem_cons_self)
    · intro i _
      have bound := header_le_slot g seq
      apply elsewhere
      unfold wordAt
      omega
  case writing => intro _ _ none; cases none
  case readers => exact fun i => (inv.readers i).commit writing.new

theorem Inv.store (sound : Sound g) (inv : Inv g s) : Inv g s.store := by
  unfold State.store
  split
  · exact inv
  · exact inv.slotStore sound ‹_›
  · exact inv.headStore ‹_›

/-! ### The readers' steps -/

theorem ReaderInv.move {next : Nat} (inv : ReaderInv g mem log r) (forward : r.next ≤ next)
    (bound : next ≤ BUSY) (stands : Stands g mem log next at_) :
    ReaderInv g mem log { r with next := next, at_ := at_ } where
  next_pos := lt_of_lt_of_le inv.next_pos forward
  next_le := bound
  committed := inv.committed
  behind rec member := lt_of_lt_of_le (inv.behind rec member) forward
  increasing := inv.increasing
  stands := stands

theorem ReaderInv.turn {next : Nat} (inv : ReaderInv g mem log r) (forward : r.next ≤ next)
    (bound : next ≤ BUSY) (left : Nat) : ReaderInv g mem log ({ r with next := next }.turn left) := by
  cases left with
  | zero | succ left => exact inv.move forward bound trivial

theorem wrap_of_lt (below : value < U64) : wrap value = value := mod_eq_of_lt below

theorem oldest_le (sound : Sound g) {head : Nat} (positive : 0 < head) : oldest g head ≤ head := by
  have two := sound.two
  have bound : wrap (head + 2) ≤ head + 2 := mod_le ..
  unfold oldest
  omega

section
variable (sound : Sound g) (inv : Inv g s) (reader : ReaderInv g s.mem s.log r)
include inv reader

theorem ReaderInv.returned (where_ : r.at_ = .body left loaded) (done : copyDone g loaded = true)
    (shown : s.mem (g.slot r.next) = r.next) :
    r.next ≤ s.mem OFF_HEAD ∧ ∃ rec ∈ s.log, rec.seq = r.next ∧ copiedRecord g r.next loaded = rec := by
  have stands := reader.stands
  rw [where_] at stands
  obtain ⟨below, rec, member, same, copied⟩ := stands
  have full : loaded = rec.words := (copyDone_front (inv.log_fits rec member) (copied shown)).mp done
  refine ⟨below, rec, member, same, ?_⟩
  rw [full, ← same]
  exact copiedRecord_words g rec (inv.log_fits rec member)

theorem ReaderInv.deliver (where_ : r.at_ = .body left loaded) (done : copyDone g loaded = true)
    (shown : s.mem (g.slot r.next) = r.next) :
    ReaderInv g s.mem s.log
      { next := wrap (r.next + 1), at_ := .idle, got := r.got ++ [copiedRecord g r.next loaded] } := by
  obtain ⟨below, rec, member, same, returned⟩ := reader.returned inv where_ done shown
  have bound := inv.head_lt
  have next : wrap (r.next + 1) = r.next + 1 := wrap_of_lt (by unfold BUSY at bound; omega)
  rw [returned, next]
  constructor
  case next_pos => exact succ_pos _
  case next_le => change r.next + 1 ≤ BUSY; omega
  case committed =>
    intro found there
    rcases mem_append.mp there with earlier | last
    · exact reader.committed found earlier
    · rw [mem_singleton.mp last]
      exact member
  case behind =>
    intro found there
    rcases mem_append.mp there with earlier | last
    · exact lt_succ_of_lt (reader.behind found earlier)
    · rw [mem_singleton.mp last, same]
      exact lt_succ_self _
  case increasing =>
    apply pairwise_append.mpr
    refine ⟨reader.increasing, pairwise_singleton .., ?_⟩
    intro earlier there last only
    rw [mem_singleton.mp only, same]
    exact reader.behind earlier there
  case stands => trivial

theorem ReaderInv.load (where_ : r.at_ = .body left loaded) (more : ¬ copyDone g loaded = true) :
    Stands g s.mem s.log r.next (.body left (loaded ++ [s.mem (wordAt (g.slot r.next) loaded.length)])) := by
  have stands := reader.stands
  rw [where_] at stands
  obtain ⟨below, rec, member, same, copied⟩ := stands
  refine ⟨below, rec, member, same, copied.load ?_⟩
  intro shown
  obtain ⟨found, there, seq, shows⟩ := inv.committed_slot reader.next_pos below shown
  have own : found = rec := eq_of_key inv.log_increasing there member (seq.trans same.symm)
  subst own
  refine ⟨shows, ?_⟩
  have front := copied shown
  have missing : loaded ≠ found.words := fun full => more ((copyDone_front (inv.log_fits found member) front).mpr full)
  exact lt_of_le_of_ne front.length_le fun length => missing (front.eq_of_length length)

include sound in
theorem ReaderInv.read : ReaderInv g s.mem s.log (r.read g s.mem) := by
  have bound := inv.head_lt
  have positive := reader.next_pos
  unfold RingReader.read
  cases where_ : r.at_ with
  | idle => exact reader.turn (le_refl _) reader.next_le _
  | head left =>
    dsimp only
    split_ifs with nothing
    · exact reader.move (le_refl _) reader.next_le trivial
    · have oldest : Ring.oldest g (s.mem OFF_HEAD) ≤ s.mem OFF_HEAD := oldest_le sound (by omega)
      have below : max r.next (Ring.oldest g (s.mem OFF_HEAD)) ≤ s.mem OFF_HEAD := by omega
      exact reader.move (le_max_left ..) (by omega) below
  | first left =>
    have below : r.next ≤ s.mem OFF_HEAD := by
      have stands := reader.stands
      rwa [where_] at stands
    dsimp only
    split_ifs with shown earlier
    · obtain ⟨rec, member, same, _⟩ := inv.committed_slot positive below shown
      exact reader.move (le_refl _) reader.next_le ⟨below, rec, member, same, fun _ => nil_prefix⟩
    · have next : wrap (r.next + 1) = r.next + 1 := wrap_of_lt (by unfold BUSY at bound; omega)
      rw [next]
      exact reader.turn (le_succ _) (by omega) left
    · exact reader.turn (le_refl _) reader.next_le left
  | body left loaded =>
    dsimp only
    split_ifs with done shown
    · exact reader.deliver inv where_ done shown
    · exact reader.turn (le_refl _) reader.next_le left
    · exact reader.move (le_refl _) reader.next_le (reader.load inv where_ done)

theorem ReaderInv.sample : ReaderInv g s.mem s.log (r.sample s.mem) := by
  have bound := inv.head_lt
  have next := reader.next_le
  unfold RingReader.sample
  split_ifs with idle
  · exact reader.move (le_max_left ..) (by omega) (by rw [idle]; trivial)
  · exact reader

end

theorem Inv.begin_seq (inv : Inv g s) (new : s.mem OFF_HEAD < rec.seq) (word : rec.seq < U64)
    (numbered : Numbered (s.begin g rec)) : Inv g (s.begin g rec) := by
  by_cases possible : (s.writer.writing.isNone && decide (rec.data.length ≤ g.maxRecord)) = true
  · have mark : rec.seq ≠ BUSY := by
      rw [State.begin, if_pos possible] at numbered
      exact of_decide_eq_true numbered
    exact inv.begin new (by unfold BUSY at mark ⊢; omega)
  · rw [State.begin, if_neg possible]
    exact inv

theorem nextSeq_eq {w : RingWriter} (below : w.head < BUSY) : w.nextSeq = w.head + 1 := by
  unfold BUSY at below
  exact wrap_of_lt (by omega)

theorem seqAt_eq {w : RingWriter} (below : w.head < BUSY) (seq : UInt64) :
    w.seqAt seq = max seq.toNat (w.head + 1) := by
  have word : seq.toNat < U64 := seq.toNat_lt
  have next : wrap (w.head + 1) = w.head + 1 := nextSeq_eq below
  unfold BUSY at below
  have bound : max seq.toNat (w.head + 1) < U64 := by omega
  have before : wrap (max seq.toNat (w.head + 1) + U64 - 1) = max seq.toNat (w.head + 1) - 1 := by
    rw [wrap, Nat.add_sub_assoc (by decide), ← Nat.add_sub_assoc (by decide), Nat.sub_add_comm (by omega),
      Nat.add_mod_right]
    exact wrap_of_lt (by omega)
  rw [RingWriter.seqAt, next, before, Nat.sub_add_cancel (by omega)]
  exact wrap_of_lt bound

variable [DecidableEq ι]

theorem Inv.setReader (inv : Inv g s) (i : ι) (reader : ReaderInv g s.mem s.log r) :
    Inv g (s.setReader i r) := by
  refine { inv with readers := ?_ }
  intro j
  change ReaderInv g s.mem s.log (Function.update s.readers i r j)
  by_cases here : j = i
  · subst here
    rw [Function.update_self]
    exact reader
  · rw [Function.update_of_ne here]
    exact inv.readers j

theorem inv_step (sound : Sound g) (inv : Inv g s) (act : Act ι) (numbered : Numbered (step g s act)) :
    Inv g (step g s act) := by
  have own := inv.writer_head
  have below : s.writer.head < BUSY := own.trans_lt inv.head_lt
  cases act with
  | write =>
    have new : s.mem OFF_HEAD < s.writer.nextSeq := by
      rw [nextSeq_eq below, own]
      exact lt_succ_self _
    exact inv.begin_seq new (mod_lt _ (by decide)) numbered
  | writeAt seq =>
    have new : s.mem OFF_HEAD < s.writer.seqAt seq := by
      rw [seqAt_eq below, own]
      omega
    exact inv.begin_seq new (mod_lt _ (by decide)) numbered
  | store => exact inv.store sound
  | read i => exact inv.setReader i ((inv.readers i).read sound inv)
  | sample i => exact inv.setReader i ((inv.readers i).sample inv)

/-- In every interleaving of single loads and stores, whatever a reader gets is what the writer committed under
that seq, in rising order, as long as no record is numbered `u64::MAX`. -/
theorem read_untorn {g : Geometry} (valid : g.valid = true) (small : g.maxRecord + 40 ≤ U64) (ringId : Nat) {head : Nat}
    (below : head < BUSY) {starts : ι → Nat} (words : ∀ i, 0 < starts i ∧ starts i < U64) {acts : List (Act ι)}
    (numbered : Along (step g) (fun s act => Numbered (step g s act)) (opened g ringId head starts) acts) :
    let s := run (step g) (opened g ringId head starts) acts
    (s.log.Pairwise fun earlier later => earlier.seq < later.seq) ∧
      ∀ i, (∀ rec ∈ (s.readers i).got, rec ∈ s.log ∧ rec.seq ≤ s.mem OFF_HEAD) ∧
        (s.readers i).got.Pairwise fun earlier later => earlier.seq < later.seq := by
  have sound := sound_of_valid valid small
  have inv : Inv g (run (step g) (opened g ringId head starts) acts) :=
    run_keeps (fun s act (inv : Inv g s) permitted => inv_step sound inv act permitted)
      (inv_opened g ringId below words) numbered
  refine ⟨inv.log_increasing, fun i => ⟨fun rec member => ?_, (inv.readers i).increasing⟩⟩
  have committed := (inv.readers i).committed rec member
  exact ⟨committed, inv.log_le rec committed⟩

end

def threeSlots : Geometry := ⟨3, 64, 8⟩

def mixed : List (Act Bool) :=
  .write 10 11 [1, 2, 3] :: replicate 7 .store ++ replicate 4 (.read true) ++
    .writeAt 5 20 21 [4] :: replicate 4 .store ++ replicate 5 (.read true) ++ replicate 3 .store ++
    replicate 10 (.read false) ++ replicate 9 (.read true)

theorem read_untorn_mixed :
    let s := run (step threeSlots) (opened threeSlots 7 0 fun _ => 1) mixed
    ((s.readers true).got = [⟨1, 10, 11, [1, 2, 3]⟩, ⟨5, 20, 21, [4]⟩] ∧ (s.readers false).got = [⟨5, 20, 21, [4]⟩]) ∧
      ∀ rec ∈ (s.readers true).got, rec ∈ s.log ∧ rec.seq ≤ s.mem OFF_HEAD :=
  ⟨by decide +kernel, ((read_untorn (by decide) (by decide) 7 (by decide) (by decide)
    (by decide +kernel : Along _ _ _ mixed)).2 true).1⟩

/-- A second record numbered `u64::MAX` is written under the first one's seq: its busy mark
is that seq. -/
def reused : List (Act Unit) :=
  .writeAt 0xffffffffffffffff 1 1 [] :: replicate 6 .store ++
    .writeAt 0xffffffffffffffff 2 2 [] :: replicate 3 .store ++ .sample () :: replicate 7 (.read ())

/-- The copy that reader keeps has one field of each record. -/
theorem read_torn_at_max :
    let s := run (step threeSlots) (opened threeSlots 7 0 fun _ => 1) reused
    (s.readers ()).got = [⟨BUSY, 2, 1, []⟩] ∧ s.log = [⟨BUSY, 1, 1, []⟩] := by
  decide +kernel

end Weftos.Stream.Untorn
