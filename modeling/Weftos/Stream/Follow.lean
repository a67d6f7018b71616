import Weftos.Stream.Resident

/-! A reader that stays within a ring of the writer gets every record up to its next seq. -/

namespace Weftos.Stream.Follow
open Lib.Rising Stream.Ring Untorn Resident List

variable {s : State ι} {r : RingReader} {w : Watch} {rec : StreamRecord} {log : List StreamRecord}

section
variable {ι : Type} {g : Geometry}

/-- What a reader is held to: it started at `start` when `top` was the newest seq begun
and had got `before`. From then on seqs are given without gaps. -/
structure Watch where
  start : Nat
  top : Nat
  before : List StreamRecord

def Watch.due (w : Watch) (log : List StreamRecord) : List StreamRecord :=
  log.filter fun rec => w.start ≤ rec.seq

def turnsLeft : At → Option Nat
  | .idle => none
  | .head left | .first left | .body left _ => some left

structure Follows (g : Geometry) (w : Watch) (head : Nat) (log : List StreamRecord) (r : RingReader) : Prop where
  started : w.start ≤ r.next
  next_le : r.next ≤ max w.start (head + 1)
  got : r.got = w.before ++ below StreamRecord.seq r.next (w.due log)
  turns : ∀ left, turnsLeft r.at_ = some left → 2 * g.slotCount + 15 + w.start ≤ left + r.next
  dense : ∀ seq, w.top < seq → seq ≤ head → ∃ rec ∈ log, rec.seq = seq

structure Near (g : Geometry) (w : Watch) (s : State ι) (next : Nat) : Prop where
  newest : newest s + 2 ≤ next + g.slotCount
  top : w.top + 2 ≤ w.start + g.slotCount

inductive Reads (g : Geometry) (s : State ι) (r : RingReader) : RingReader → Prop where
  | call : r.at_ = .idle → Reads g s r { r with at_ := .head (2 * g.slotCount + 15) }
  | nothing (left : Nat) : r.at_ = .head left → s.mem OFF_HEAD < r.next → Reads g s r { r with at_ := .idle }
  | reach (left : Nat) : r.at_ = .head left → r.next ≤ s.mem OFF_HEAD → Reads g s r { r with at_ := .first left }
  | found (left : Nat) : r.at_ = .first left → r.next ≤ s.mem OFF_HEAD → Reads g s r { r with at_ := .body left [] }
  | skip (left : Nat) : r.at_ = .first (left + 1) → r.next ≤ s.mem OFF_HEAD → (∀ rec ∈ s.log, rec.seq ≠ r.next) →
      Reads g s r { r with next := r.next + 1, at_ := .head left }
  | load (left : Nat) (loaded : List Nat) (word : Nat) : r.at_ = .body left loaded →
      loaded.length < 3 + divCeil g.maxRecord 8 → Reads g s r { r with at_ := .body left (loaded ++ [word]) }
  | deliver (left : Nat) (loaded : List Nat) (rec : StreamRecord) : r.at_ = .body left loaded →
      r.next ≤ s.mem OFF_HEAD → rec ∈ s.log → rec.seq = r.next →
      Reads g s r { next := r.next + 1, at_ := .idle, got := r.got ++ [rec] }

theorem Reads.next_le {after : RingReader} (reads : Reads g s r after) : r.next ≤ after.next := by
  cases reads with
  | skip left where_ _ _ | deliver left loaded rec where_ _ _ _ => exact Nat.le_succ _
  | _ => exact Nat.le_refl _

theorem turns_eq (sound : Sound g) : turns g = 2 * g.slotCount + 16 := by
  have size : 32 ≤ g.slotSize := by
    have := sound.room
    unfold SLOT_HEADER at this
    omega
  have bytes := Nat.lt_of_le_of_lt (Nat.mul_le_mul_left g.slotCount size) sound.bytes
  apply wrap_of_lt
  unfold U64 at bytes ⊢
  omega

theorem resident {next : Nat} (slots : SlotsInv g s) (near : Near g w s next) (member : rec ∈ s.log)
    (same : rec.seq = next) : s.mem (g.slot next) = next := by
  have distance := near.newest
  have shown := slots.kept rec member (by omega)
  rwa [same] at shown

theorem oldest_le_next {next : Nat} (inv : Inv g s) (positive : 0 < next) (near : Near g w s next) :
    oldest g (s.mem OFF_HEAD) ≤ next := by
  have distance := near.newest
  have head := head_le_newest inv
  have wrapped : wrap (s.mem OFF_HEAD + 2) ≤ s.mem OFF_HEAD + 2 := Nat.mod_le ..
  unfold oldest
  omega

theorem Follows.reads (sound : Sound g) (inv : Inv g s) (slots : SlotsInv g s) (reader : ReaderInv g s.mem s.log r)
    (near : Near g w s r.next) (follows : Follows g w (s.mem OFF_HEAD) s.log r) : Reads g s r (r.read g s.mem) := by
  have positive := reader.next_pos
  have bound := inv.head_lt
  unfold RingReader.read
  cases where_ : r.at_ with
  | idle =>
    rw [turns_eq sound]
    exact .call where_
  | head left =>
    dsimp only
    split_ifs with nothing
    · exact .nothing left where_ nothing
    · rw [Nat.max_eq_left (oldest_le_next inv positive near)]
      exact .reach left where_ (Nat.le_of_not_lt nothing)
  | first left =>
    have head : r.next ≤ s.mem OFF_HEAD := by
      have stands := reader.stands
      rwa [where_] at stands
    dsimp only
    split_ifs with shown earlier
    · exact .found left where_ head
    · have absent : ∀ rec ∈ s.log, rec.seq ≠ r.next := fun rec member same =>
        shown (resident slots near member same)
      have next : wrap (r.next + 1) = r.next + 1 := wrap_of_lt (by unfold BUSY at bound; omega)
      rw [next]
      cases left with
      | zero =>
        -- skipped seqs are at most `top`, and there are fewer of those than turns
        have turns := follows.turns 0 (by rw [where_]; rfl)
        have top := near.top
        have gap : r.next ≤ w.top := by
          by_contra past
          obtain ⟨rec, member, same⟩ := follows.dense r.next (by omega) head
          exact absent rec member same
        omega
      | succ left => exact .skip left where_ head absent
    · have distance := near.newest
      have behind := slots.not_ahead sound inv positive head (by omega)
      omega
  | body left loaded =>
    have stands := reader.stands
    rw [where_] at stands
    obtain ⟨head, rec, member, same, copied⟩ := stands
    have shown := resident slots near member same
    have fits := inv.log_fits rec member
    dsimp only
    split_ifs with done
    · obtain ⟨_, found, there, seq, returned⟩ := reader.returned inv where_ done shown
      have next : wrap (r.next + 1) = r.next + 1 := wrap_of_lt (by unfold BUSY at bound; omega)
      rw [next, returned]
      exact .deliver left loaded found where_ head there seq
    · refine .load left loaded _ where_ ?_
      have front := copied shown
      have missing : loaded ≠ rec.words := fun full => done ((copyDone_front fits front).mpr full)
      have shorter : loaded.length < rec.words.length :=
        Nat.lt_of_le_of_ne front.length_le fun length => missing (front.eq_of_length length)
      have words := divCeil_mono fits
      rw [rec.words_length] at shorter
      omega

theorem Follows.step (inv : Inv g s) {after : RingReader} (follows : Follows g w (s.mem OFF_HEAD) s.log r)
    (reads : Reads g s r after) : Follows g w (s.mem OFF_HEAD) s.log after := by
  have started := follows.started
  cases reads with
  | call idle =>
    refine { follows with turns := ?_ }
    intro left found
    cases found
    dsimp only
    omega
  | nothing left where_ _ => exact { follows with turns := fun _ none => by cases none }
  | reach left where_ _ | found left where_ _ | load left loaded word where_ _ =>
    exact { follows with turns := fun _ same => follows.turns _ (by rw [where_]; exact same) }
  | skip left where_ head absent =>
    constructor
    case started => exact Nat.le_succ_of_le started
    case next_le => dsimp only; omega
    case got => exact follows.got.trans (congrArg _ (below_succ_of_absent fun rec member =>
      absent rec (mem_of_mem_filter member)).symm)
    case turns =>
      intro _ found
      cases found
      have turns := follows.turns (left + 1) (by rw [where_]; rfl)
      dsimp only
      omega
    case dense => exact follows.dense
  | deliver left loaded rec where_ head member same =>
    constructor
    case started => exact Nat.le_succ_of_le started
    case next_le => dsimp only; omega
    case got =>
      have due : rec ∈ w.due s.log := mem_filter.mpr ⟨member, decide_eq_true (by omega)⟩
      have received : below StreamRecord.seq (rec.seq + 1) (w.due s.log) = _ :=
        below_succ_of_mem (inv.log_increasing.filter _) due
      rw [same] at received
      rw [received, follows.got, append_assoc]
    case turns => intro _ none; cases none
    case dense => exact follows.dense

theorem Follows.commit {head : Nat} (follows : Follows g w head log r) (new : head < rec.seq)
    (fresh : rec.seq ≤ max w.top (head + 1)) : Follows g w rec.seq (log ++ [rec]) r := by
  have ahead := follows.next_le
  constructor
  case started => exact follows.started
  case next_le => omega
  case got =>
    rw [follows.got]
    apply congrArg (w.before ++ ·)
    rw [Watch.due, Watch.due, filter_append]
    by_cases inside : w.start ≤ rec.seq
    · rw [filter_singleton, decide_eq_true inside]
      exact (below_append_of_le (by omega)).symm
    · rw [filter_singleton, decide_eq_false inside]
      exact congrArg _ (append_nil _).symm
  case turns => exact follows.turns
  case dense =>
    intro seq past upTo
    by_cases last : seq = rec.seq
    · exact ⟨rec, mem_append_right _ mem_cons_self, last.symm⟩
    · obtain ⟨found, member, same⟩ := follows.dense seq past (by omega)
      exact ⟨found, mem_append_left _ member, same⟩

theorem Follows.nothing_due (inv : Inv g s) {after : RingReader} (follows : Follows g w (s.mem OFF_HEAD) s.log r)
    (reads : Reads g s r after) (active : r.at_ ≠ .idle) (ended : after.at_ = .idle) (same : after.got = r.got) :
    r.got = w.before ++ w.due s.log := by
  cases reads with
  | call idle => exact absurd idle active
  | nothing =>
    rw [follows.got, below_eq_self]
    intro rec member
    have := inv.log_le rec (mem_of_mem_filter member)
    omega
  | deliver => simp at same
  | _ => cases ended

/-! ### Progress -/

def slotLoads (g : Geometry) : Nat := 3 + divCeil g.maxRecord 8

/-- Steps a reader may still take before it has everything up to `head`: a bounded number
for each seq. -/
def work (g : Geometry) (head : Nat) (r : RingReader) : Nat :=
  (head + 1 - r.next) * (slotLoads g + 6) +
    match r.at_ with
    | .idle => slotLoads g + 4
    | .head _ => slotLoads g + 3
    | .first _ => slotLoads g + 2
    | .body _ loaded => slotLoads g + 1 - loaded.length

theorem work_next {head next : Nat} (reached : next ≤ head) (each : Nat) :
    (head + 1 - next) * each = (head + 1 - (next + 1)) * each + each := by
  rw [← Nat.succ_mul]
  apply congrArg (· * each)
  omega

/-- A step brings the reader nearer to the head or finds that nothing is due; the step
that delivers leaves one to spare. -/
theorem Reads.progress {after : RingReader} (reads : Reads g s r after) :
    s.mem OFF_HEAD < r.next ∨ work g (s.mem OFF_HEAD) after < work g (s.mem OFF_HEAD) r ∧
      (after.got ≠ r.got → work g (s.mem OFF_HEAD) after + 1 < work g (s.mem OFF_HEAD) r) := by
  cases reads with
  | call idle =>
    refine .inr ⟨?_, fun more => absurd rfl more⟩
    simp only [work, idle]
    omega
  | nothing left where_ behind => exact .inl behind
  | reach left where_ _ =>
    refine .inr ⟨?_, fun more => absurd rfl more⟩
    simp only [work, where_]
    omega
  | found left where_ _ =>
    refine .inr ⟨?_, fun more => absurd rfl more⟩
    simp only [work, where_, length_nil]
    omega
  | skip left where_ reached _ =>
    refine .inr ⟨?_, fun more => absurd rfl more⟩
    simp only [work, where_, work_next reached]
    omega
  | load left loaded word where_ =>
    refine .inr ⟨?_, fun more => absurd rfl more⟩
    simp only [work, where_, length_append, length_singleton]
    unfold slotLoads
    omega
  | deliver left loaded rec where_ reached _ _ =>
    have nearer : work g (s.mem OFF_HEAD) { next := r.next + 1, at_ := .idle, got := r.got ++ [rec] } + 1 <
        work g (s.mem OFF_HEAD) r := by
      simp only [work, where_, work_next reached]
      omega
    exact .inr ⟨Nat.lt_of_succ_lt nearer, fun _ => nearer⟩

end

end Weftos.Stream.Follow
