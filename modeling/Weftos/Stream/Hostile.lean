import Weftos.Stream.Follow

/-! A reader and a writer that stores what it likes in its ring, also between two loads of one read. -/

namespace Weftos.Stream.Hostile
open Lib.Seqlock Stream.Ring Untorn Follow List

variable {g : Geometry} {r : RingReader} {mem : Memory} {mems : List Memory}

def bytes (g : Geometry) : Nat := wrap (HEADER + g.slotCount * g.slotSize)

def attaches (len : Nat) (g : Geometry) : Bool := g.valid && bytes g ≤ len

def steps (g : Geometry) : List Memory → RingReader → List (Memory × RingReader)
  | [], _ => []
  | mem :: mems, r => if r.at_ = .idle then [] else (mem, r) :: steps g mems (r.read g mem)

/-- The loads of one `read`. -/
def call (g : Geometry) (mems : List Memory) (next : Nat) (got : List StreamRecord) : List (Memory × RingReader) :=
  steps g mems (RingReader.turn ⟨next, .idle, got⟩ (turns g))

/-- `head + 2`, `next + 1`, `seq - 1` and the end of the payload are words where a step uses them. -/
def Exact (g : Geometry) (mem : Memory) (r : RingReader) : Prop :=
  match r.at_ with
  | .idle => True
  -- nothing is added to a `head` below the cursor
  | .head _ => r.next ≤ mem OFF_HEAD → mem OFF_HEAD + 2 < U64
  | .first _ | .body _ _ =>
    0 < r.next ∧ r.next + 1 < U64 ∧ g.slot r.next + SLOT_HEADER + divCeil g.maxRecord 8 * 8 < U64

def Inside (g : Geometry) (len : Nat) (mem : Memory) (r : RingReader) : Prop :=
  ∀ other : Memory, (∀ off, 8 ∣ off → off + 8 ≤ len → other off = mem off) → r.read g other = r.read g mem

def isHead : At → Bool
  | .head _ => true
  | _ => false

def rounds : At → Nat
  | .idle => 0
  | .head left => left + 1
  | .first left | .body left _ => left

def budget (g : Geometry) : At → Nat
  | .idle => 0
  | .head left => (left + 1) * (slotLoads g + 3)
  | .first left => left * (slotLoads g + 3) + (slotLoads g + 2)
  | .body left loaded => left * (slotLoads g + 3) + (slotLoads g - loaded.length + 1)

structure Harmless (g : Geometry) (len : Nat) (call : List (Memory × RingReader)) : Prop where
  turns : 2 * g.slotCount + 16 < U64
  rounds : call.countP (isHead ·.2.at_) ≤ 2 * g.slotCount + 16
  loads : call.length ≤ (2 * g.slotCount + 16) * (slotLoads g + 3)
  exact : ∀ e ∈ call, Exact g e.1 e.2
  inside : ∀ e ∈ call, Inside g len e.1 e.2
  copied : ∀ e ∈ call, ∀ rec ∈ (e.2.read g e.1).got, rec ∈ e.2.got ∨ rec.data.length ≤ g.maxRecord

def LowHeads (call : List (Memory × RingReader)) : Prop :=
  ∀ e ∈ call, isHead e.2.at_ = true → e.2.next ≤ e.1 OFF_HEAD → e.1 OFF_HEAD + 2 < U64

/-- The mapping holds the longest payload of the last slot. -/
def Room (g : Geometry) (len : Nat) : Prop :=
  HEADER + (g.slotCount - 1) * g.slotSize + SLOT_HEADER + divCeil g.maxRecord 8 * 8 ≤ len

def Placed (r : RingReader) : Prop :=
  match r.at_ with
  | .idle | .head _ => True
  | .first _ | .body _ _ => 0 < r.next ∧ r.next + 1 < U64

structure Less (g : Geometry) (r after : RingReader) : Prop where
  placed : Placed after
  budget : budget g after.at_ < budget g r.at_
  rounds : rounds after.at_ + (if isHead r.at_ then 1 else 0) ≤ rounds r.at_
  got : ∀ rec ∈ after.got, rec ∈ r.got ∨ rec.data.length ≤ g.maxRecord

theorem Less.turn {before : RingReader} (fewer : left * (slotLoads g + 3) < Hostile.budget g r.at_)
    (same : Hostile.rounds r.at_ = left) (within : isHead r.at_ = false) (got : before.got = r.got) :
    Less g r (before.turn left) := by
  cases left with
  | zero => exact ⟨trivial, Nat.zero_lt_of_lt fewer, by rw [within]; exact Nat.zero_le _, fun _ => got ▸ .inl⟩
  | succ left => exact ⟨trivial, fewer, by rw [same, within]; exact le_refl _, fun _ => got ▸ .inl⟩

theorem copying (more : ¬copyDone g loaded = true) : loaded.length < slotLoads g := by
  unfold slotLoads
  cases loaded with
  | nil => exact Nat.lt_add_right _ (by decide)
  | cons len rest =>
    have words := divCeil_mono (Nat.min_le_right len g.maxRecord)
    simp only [copyDone, decide_eq_true_eq] at more
    rw [length_cons]
    omega

theorem copiedRecord_le (seq : Nat) (loaded : List Nat) : (copiedRecord g seq loaded).data.length ≤ g.maxRecord := by
  unfold copiedRecord
  split
  · rw [length_take]
    omega
  · exact Nat.zero_le _

theorem slot_le (two : 2 ≤ g.slotCount) (seq : Nat) : g.slot seq ≤ HEADER + (g.slotCount - 1) * g.slotSize := by
  have inside : wrap (seq + U64 - 1) % g.slotCount < g.slotCount := Nat.mod_lt _ (Nat.zero_lt_of_lt two)
  exact Nat.add_le_add_left (Nat.mul_le_mul_right _ (Nat.le_sub_one_of_lt inside)) _

section
variable (two : 2 ≤ g.slotCount)
include two

theorem read_less (placed : Placed r) (reading : r.at_ ≠ .idle)
    (low : isHead r.at_ = true → r.next ≤ mem OFF_HEAD → mem OFF_HEAD + 2 < U64) : Less g r (r.read g mem) := by
  obtain ⟨next, at_, got⟩ := r
  cases at_ with
  | idle => exact absurd rfl reading
  | head left =>
    simp only [RingReader.read]
    split_ifs with behind
    · exact ⟨trivial, Nat.mul_pos (Nat.succ_pos _) (Nat.succ_pos _), Nat.le_add_left .., fun _ => .inl⟩
    · refine ⟨⟨lt_max_of_lt_right (Nat.le_max_right ..), ?_⟩, ?_, le_refl _, fun _ => .inl⟩
      · have word := low rfl (Nat.le_of_not_lt behind)
        simp only [oldest, wrap_of_lt word]
        unfold U64 at word ⊢
        omega
      · simp only [budget, Nat.succ_mul]
        omega
  | first left =>
    have fewer : left * (slotLoads g + 3) < budget g (.first left) := Nat.lt_add_of_pos_right (Nat.succ_pos _)
    simp only [RingReader.read]
    split_ifs
    · exact ⟨placed, Nat.lt_succ_self _, le_refl _, fun _ => .inl⟩
    · exact .turn fewer rfl rfl rfl
    · exact .turn fewer rfl rfl rfl
  | body left loaded =>
    have fewer : left * (slotLoads g + 3) < budget g (.body left loaded) := Nat.lt_add_of_pos_right (Nat.succ_pos _)
    simp only [RingReader.read]
    split_ifs with done
    · refine ⟨trivial, Nat.zero_lt_of_lt fewer, Nat.zero_le _, fun rec member => ?_⟩
      rcases mem_append.mp member with before | new
      · exact .inl before
      · exact .inr (mem_singleton.mp new ▸ copiedRecord_le ..)
    · exact .turn fewer rfl rfl rfl
    · have more := copying done
      refine ⟨placed, ?_, le_refl _, fun _ => .inl⟩
      simp only [budget, length_append, length_singleton]
      omega

theorem steps_less (placed : Placed r) (low : LowHeads (steps g mems r)) :
    (∀ e ∈ steps g mems r, Placed e.2 ∧ Less g e.2 (e.2.read g e.1)) ∧
      (steps g mems r).length ≤ budget g r.at_ ∧ (steps g mems r).countP (isHead ·.2.at_) ≤ rounds r.at_ := by
  induction mems generalizing r with
  | nil => exact ⟨fun _ => nofun, Nat.zero_le _, Nat.zero_le _⟩
  | cons mem mems ih =>
    unfold steps at low ⊢
    split_ifs at low ⊢ with ended
    · exact ⟨fun _ => nofun, Nat.zero_le _, Nat.zero_le _⟩
    · obtain ⟨first, rest⟩ := forall_mem_cons.mp low
      have less := read_less two placed ended first
      obtain ⟨each, loads, begun⟩ := ih less.placed rest
      refine ⟨forall_mem_cons.mpr ⟨⟨placed, less⟩, each⟩, Nat.lt_of_le_of_lt loads less.budget, ?_⟩
      rw [countP_cons]
      exact (Nat.add_le_add_right begun _).trans less.rounds

theorem read_inside (aligned : g.slotSize % 64 = 0) (room : Room g len) (mem : Memory) (r : RingReader) :
    Inside g len mem r := by
  intro other same
  obtain ⟨next, at_, got⟩ := r
  have whole := slot_le two next
  have words : 8 ∣ g.slot next :=
    Nat.dvd_add (by decide) (Nat.dvd_mul_left_of_dvd ((by decide : 8 ∣ 64).trans (Nat.dvd_of_mod_eq_zero aligned)) _)
  unfold Room SLOT_HEADER at room
  have seq : other (g.slot next) = mem (g.slot next) := same _ words (by omega)
  cases at_ with
  | idle => rfl
  | head left =>
    have head : other OFF_HEAD = mem OFF_HEAD := same _ (by decide) (by unfold HEADER at room; unfold OFF_HEAD; omega)
    simp only [RingReader.read, head]
  | first left => simp only [RingReader.read, seq]
  | body left loaded =>
    by_cases done : copyDone g loaded = true
    · simp only [RingReader.read, if_pos done, seq]
    · have more := copying done
      have word : other (wordAt (g.slot next) loaded.length) = mem (wordAt (g.slot next) loaded.length) := by
        unfold slotLoads at more
        unfold wordAt
        exact same _ (Nat.dvd_add words (Nat.dvd_mul_right ..)) (by omega)
      simp only [RingReader.read, if_neg done, word]

end

theorem Placed.exact (placed : Placed r) (two : 2 ≤ g.slotCount) (room : Room g len) (mapped : len < U64)
    (low : isHead r.at_ = true → r.next ≤ mem OFF_HEAD → mem OFF_HEAD + 2 < U64) : Exact g mem r := by
  have whole := slot_le two r.next
  unfold Room at room
  unfold Exact Placed at *
  split at placed <;> simp_all [isHead]
  all_goals omega

/-! ### A mapping too short -/

theorem steps_mem (listed : e ∈ steps g mems r) : e.1 ∈ mems := by
  induction mems generalizing r with
  | nil => cases listed
  | cons mem mems ih =>
    unfold steps at listed
    split_ifs at listed
    · cases listed
    · rcases mem_cons.mp listed with rfl | later
      · exact mem_cons_self
      · exact mem_cons_of_mem _ (ih later)

/-- Every record is as long as they come, and the newest is in the last slot. -/
def longest (g : Geometry) : Memory := fun off =>
  if off = OFF_HEAD ∨ off = g.slot g.slotCount then g.slotCount else g.maxRecord

def copyingLast (g : Geometry) (copied : Nat) : RingReader :=
  ⟨g.slotCount, .body (2 * g.slotCount + 15) (replicate copied g.maxRecord), []⟩

theorem longest_word (g : Geometry) (copied : Nat) :
    longest g (wordAt (g.slot g.slotCount) copied) = g.maxRecord := by
  have base := header_le_slot g g.slotCount
  unfold HEADER at base
  refine if_neg ?_
  unfold wordAt OFF_HEAD
  omega

theorem unfinished (more : copied < slotLoads g) : copyDone g (replicate copied g.maxRecord) = false := by
  cases copied with
  | zero => rfl
  | succ copied =>
    unfold slotLoads at more
    simp only [replicate_succ, copyDone, Nat.min_self, length_replicate, decide_eq_false_iff_not]
    omega

theorem read_longest (copied : Nat) (more : copied < slotLoads g) :
    (copyingLast g copied).read g (longest g) = copyingLast g (copied + 1) := by
  simp [copyingLast, RingReader.read, unfinished more, longest_word, replicate_succ']

theorem steps_longest (left : Nat) (whole : copied + left = slotLoads g) : ∀ k < left,
    (longest g, copyingLast g (copied + k)) ∈ steps g (replicate left (longest g)) (copyingLast g copied) := by
  induction left generalizing copied with
  | zero => simp
  | succ left ih =>
    rw [replicate_succ, steps, if_neg (by simp [copyingLast]), read_longest copied (by omega)]
    intro k below
    cases k with
    | zero => exact mem_cons_self
    | succ k => exact mem_cons_of_mem _ (Nat.add_right_comm copied 1 k ▸ ih (by omega) k (by omega))

/-- A read of the longest record in the last slot copies its last word. -/
theorem call_longest (two : 2 ≤ g.slotCount) (fits : 2 * g.slotCount + 16 < U64) (copied : Nat)
    (below : copied < slotLoads g) :
    (longest g, copyingLast g copied) ∈ call g (replicate (slotLoads g + 2) (longest g)) g.slotCount [] := by
  have head : longest g OFF_HEAD = g.slotCount := if_pos (.inl rfl)
  have seq : longest g (g.slot g.slotCount) = g.slotCount := if_pos (.inr rfl)
  have place : max g.slotCount (oldest g g.slotCount) = g.slotCount := by
    rw [oldest, wrap_of_lt (by omega)]
    omega
  rw [call, turns, wrap_of_lt fits, replicate_succ, replicate_succ]
  simp only [RingReader.turn, steps, RingReader.read, head, seq, place, lt_irrefl, reduceIte, reduceCtorEq]
  have later := steps_longest (slotLoads g) (Nat.zero_add _) copied below
  rw [Nat.zero_add] at later
  exact mem_cons_of_mem _ (mem_cons_of_mem _ later)

theorem room_of_inside (two : 2 ≤ g.slotCount) (fits : 2 * g.slotCount + 16 < U64)
    (inside : Inside g len (longest g) (copyingLast g (2 + divCeil g.maxRecord 8))) : Room g len := by
  have last : g.slot g.slotCount = HEADER + (g.slotCount - 1) * g.slotSize := by
    have whole : g.slotCount + U64 - 1 = g.slotCount - 1 + U64 := by omega
    rw [Geometry.slot, whole, wrap, Nat.add_mod_right, Nat.mod_eq_of_lt (b := U64) (by omega),
      Nat.mod_eq_of_lt (by omega)]
  set word := wordAt (g.slot g.slotCount) (2 + divCeil g.maxRecord 8) with word_eq
  by_contra short
  have other := inside (Function.update (longest g) word (g.maxRecord + 1)) fun off _ within => by
    refine Function.update_of_ne (fun same => short ?_) _ _
    rw [same, word_eq, wordAt, last] at within
    unfold Room SLOT_HEADER
    omega
  have more : 2 + divCeil g.maxRecord 8 < slotLoads g := by unfold slotLoads; omega
  have loaded := congrArg RingReader.at_ (other.trans (read_longest _ more))
  simp [copyingLast, RingReader.read, unfinished more, ← word_eq, replicate_succ', Function.update_self] at loaded

theorem room_of_fitting (valid : g.valid = true) (small : g.maxRecord + 40 ≤ U64)
    (fitting : HEADER + g.slotCount * g.slotSize ≤ len) : Room g len := by
  have sound := sound_of_valid valid small
  have count : g.slotCount = g.slotCount - 1 + 1 := by have := sound.two; omega
  rw [count, Nat.succ_mul] at fitting
  have room := sound.room
  unfold Room
  omega

/-- Whatever the words of a ring are at each load, a read does no harm exactly if `head + 2` is a word for every `head`
it loads that is not below its cursor. The mapping has to hold the longest payload of the last slot, else some words do
harm without; it does for every geometry that is attached without its sizes wrapping. -/
theorem read_bounded {len : Nat} (attached : attaches len g = true) (mapped : len < U64) :
    (Room g len → ∀ next got mems, Harmless g len (call g mems next got) ↔ LowHeads (call g mems next got)) ∧
    ((∀ next got mems, LowHeads (call g mems next got) → Harmless g len (call g mems next got)) → Room g len) ∧
    (g.maxRecord + 40 ≤ U64 → HEADER + g.slotCount * g.slotSize < U64 → Room g len) := by
  obtain ⟨valid, fitting⟩ := Bool.and_eq_true_iff.mp attached
  have parts := valid
  simp only [Geometry.valid, Bool.and_eq_true, decide_eq_true_eq] at parts
  obtain ⟨⟨⟨two, aligned⟩, -⟩, -⟩ := parts
  refine ⟨fun room next got mems => ⟨?_, fun low => ?_⟩, fun harmless => ?_, fun small whole => ?_⟩
  · intro harmless e listed head reached
    have exact := harmless.exact e listed
    unfold Exact at exact
    split at exact <;> simp_all [isHead]
  · have small : g.maxRecord + 40 ≤ U64 := by
      unfold Room HEADER SLOT_HEADER divCeil at room
      omega
    have turns := turns_eq (sound_of_valid valid small)
    obtain ⟨each, loads, begun⟩ := steps_less two (r := ⟨next, .head (2 * g.slotCount + 15), got⟩) trivial
      (by rwa [call, turns] at low)
    rw [call, turns] at low ⊢
    refine ⟨?_, begun, loads, fun e step => (each e step).1.exact two room mapped (low e step),
      fun e _ => read_inside two aligned room _ _, fun e step => (each e step).2.got⟩
    have exact : wrap (2 * g.slotCount + 16) = 2 * g.slotCount + 16 := turns
    rw [← exact]
    exact Nat.mod_lt _ (by decide)
  · have fits := (harmless 0 [] [] fun _ listed => absurd listed not_mem_nil).turns
    have low : LowHeads (call g (replicate (slotLoads g + 2) (longest g)) g.slotCount []) := by
      intro e listed _ _
      rw [eq_of_mem_replicate (steps_mem listed), longest, if_pos (.inl rfl)]
      omega
    exact room_of_inside two fits ((harmless _ _ _ low).inside _
      (call_longest two fits (2 + divCeil g.maxRecord 8) (by unfold slotLoads; omega)))
  · rw [decide_eq_true_eq, bytes, wrap_of_lt whole] at fitting
    exact room_of_fitting valid small fitting

theorem read_bounded_zeros : Harmless threeSlots 320 (call threeSlots [fun _ => 0] 0 []) := by
  have bounded := read_bounded (show attaches 320 threeSlots = true by decide) (by decide)
  refine (bounded.1 (bounded.2.2 (by decide) (by decide)) 0 [] [fun _ => 0]).mpr fun e listed _ _ => ?_
  rw [mem_singleton.mp listed]
  decide

/-- With `head` at `u64::MAX` the sum `head + 2` is over a word; where it wraps the reader takes it for 1. -/
theorem head_overflows : attaches 320 threeSlots = true ∧ ¬Exact threeSlots (fun _ => BUSY) ⟨1, .head 21, []⟩ ∧
    oldest threeSlots BUSY = 1 := ⟨by decide, by unfold Exact; decide, by decide⟩

end Weftos.Stream.Hostile
