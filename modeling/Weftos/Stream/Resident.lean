import Mathlib.Data.Nat.ModEq
import Weftos.Stream.Untorn

/-! How long a record stays in its slot: until the writer begins a record `slot_count` seqs later. -/

namespace Weftos.Stream.Resident
open Lib.Seqlock Stream.Ring Untorn Nat

section
variable {g : Geometry}

theorem slot_eq (g : Geometry) (positive : 0 < seq) (word : seq < U64) :
    g.slot seq = HEADER + (seq - 1) % g.slotCount * g.slotSize := by
  have shifted : wrap (seq + U64 - 1) = seq - 1 := by
    rw [wrap, Nat.sub_add_comm positive, Nat.add_mod_right]
    exact Nat.mod_eq_of_lt (by omega)
  rw [Geometry.slot, shifted]

theorem slots_differ (sound : Sound g) (positive : 0 < first) (later : first < second)
    (near : second < first + g.slotCount) (word : second < U64) : g.slot first ≠ g.slot second := by
  intro same
  have size : 0 < g.slotSize := by
    have := sound.room
    unfold SLOT_HEADER at this
    omega
  rw [slot_eq g positive (by omega), slot_eq g (by omega) word] at same
  have slots : (first - 1) % g.slotCount = (second - 1) % g.slotCount :=
    eq_of_mul_eq_mul_right size (add_left_cancel same)
  have divides := (modEq_iff_dvd' (by omega : first - 1 ≤ second - 1)).mp slots
  have bound := le_of_dvd (by omega) divides
  omega

end

variable {s : State ι} {rec : StreamRecord}

section
variable {ι : Type} {g : Geometry}

def newest (s : State ι) : Nat :=
  match s.writer.writing with
  | some (rec, _) => rec.seq
  | none => s.mem OFF_HEAD

theorem head_le_newest (inv : Inv g s) : s.mem OFF_HEAD ≤ newest s := by
  unfold newest
  split
  · exact le_of_lt (inv.writing _ _ ‹_›).new
  · exact le_refl _

theorem newest_lt (inv : Inv g s) : newest s < BUSY := by
  unfold newest
  split
  · exact (inv.writing _ _ ‹_›).numbered
  · exact inv.head_lt

/-- The slot of `seq` was never used, is being written, or shows a seq of its own. -/
inductive SlotWord (g : Geometry) (s : State ι) (seq : Nat) : Prop where
  | empty : s.mem (g.slot seq) = 0 → SlotWord g s seq
  | busy (rec : StreamRecord) (rest : List Store) : s.mem (g.slot seq) = BUSY →
      s.writer.writing = some (rec, rest) → g.slot rec.seq = g.slot seq → SlotWord g s seq
  | shows (found : Nat) : s.mem (g.slot seq) = found → 0 < found → found ≤ newest s →
      g.slot found = g.slot seq → SlotWord g s seq

structure SlotsInv (g : Geometry) (s : State ι) : Prop where
  positive : ∀ rec ∈ s.log, 0 < rec.seq
  kept : ∀ rec ∈ s.log, newest s < rec.seq + g.slotCount → s.mem (g.slot rec.seq) = rec.seq
  words : ∀ seq, SlotWord g s seq

theorem slotsInv_opened (g : Geometry) (ringId head : Nat) (starts : ι → Nat) :
    SlotsInv g (State.opened g ringId head starts) where
  positive _ member := absurd member List.not_mem_nil
  kept _ member := absurd member List.not_mem_nil
  words _ := .empty (opened_slot ..)

theorem SlotsInv.begin (slots : SlotsInv g s) (new : s.mem OFF_HEAD < rec.seq) : SlotsInv g (s.begin g rec) := by
  unfold State.begin
  split_ifs with possible
  · simp only [Bool.and_eq_true, Option.isNone_iff_eq_none] at possible
    have before : newest s = s.mem OFF_HEAD := by rw [newest, possible.1]
    refine ⟨slots.positive, ?_, ?_⟩
    · intro old member near
      change rec.seq < old.seq + g.slotCount at near
      exact slots.kept old member (by omega)
    · intro seq
      cases slots.words seq with
      | empty shown => exact .empty shown
      | busy other rest _ underWay _ => rw [possible.1] at underWay; cases underWay
      | shows found shown positive bound own =>
        exact .shows found shown positive (show found ≤ rec.seq by omega) own
  · exact slots

theorem WritingInv.seqWord (sound : Sound g) (writing : WritingInv g mem rec (st :: rest)) (seq : Nat) :
    mem.store st (g.slot seq) = mem (g.slot seq) ∨
      g.slot rec.seq = g.slot seq ∧
        (mem.store st (g.slot seq) = BUSY ∨ mem.store st (g.slot seq) = rec.seq) := by
  by_cases here : st.1 = g.slot seq
  · have stored : mem.store st (g.slot seq) = st.2 := here ▸ Memory.store_same ..
    rw [stored]
    rcases writing.progress.store_cases with rfl | ⟨rfl, _⟩ | ⟨_, i, inside, word⟩
    · exact .inr ⟨here, .inl rfl⟩
    · exact .inr ⟨here, .inr rfl⟩
    · rw [word] at here
      exact absurd here (wordAt_ne_slot sound writing.fits inside)
  · exact .inl (Memory.store_other (Ne.symm here))

theorem SlotsInv.slotStore (sound : Sound g) (inv : Inv g s) (slots : SlotsInv g s)
    (underWay : s.writer.writing = some (rec, st :: rest)) :
    SlotsInv g { s with mem := s.mem.store st, writer.writing := some (rec, rest) } := by
  have writing := inv.writing rec (st :: rest) underWay
  have before : newest s = rec.seq := by rw [newest, underWay]
  refine ⟨slots.positive, ?_, ?_⟩
  · intro old member near
    change rec.seq < old.seq + g.slotCount at near
    have shown := slots.kept old member (by omega)
    have apart : g.slot old.seq ≠ g.slot rec.seq := by
      have below := inv.log_le old member
      have new := writing.new
      have word : rec.seq < U64 := lt_of_lt_of_le writing.numbered (sub_le ..)
      exact slots_differ sound (slots.positive old member) (by omega) near word
    rcases WritingInv.seqWord sound writing old.seq with same | ⟨own, _⟩
    · exact same.trans shown
    · exact absurd own.symm apart
  · intro seq
    rcases WritingInv.seqWord sound writing seq with same | ⟨own, busy | shown⟩
    · cases slots.words seq with
      | empty shown => exact .empty (same.trans shown)
      | busy other left shown otherWay own =>
        rw [underWay] at otherWay
        cases otherWay
        exact .busy rec rest (same.trans shown) rfl own
      | shows found shown positive bound own =>
        exact .shows found (same.trans shown) positive (bound.trans_eq before) own
    · exact .busy rec rest busy rfl own
    · exact .shows rec.seq shown (lt_of_le_of_lt (zero_le _) writing.new) (le_refl _) own

theorem SlotsInv.headStore (inv : Inv g s) (slots : SlotsInv g s) (underWay : s.writer.writing = some (rec, [])) :
    SlotsInv g { s with mem := s.mem.store (OFF_HEAD, rec.seq), writer := ⟨rec.seq, none⟩, log := s.log ++ [rec] } := by
  have writing := inv.writing rec [] underWay
  have before : newest s = rec.seq := by rw [newest, underWay]
  have head : s.mem.store (OFF_HEAD, rec.seq) OFF_HEAD = rec.seq := Memory.store_same ..
  have slot (seq : Nat) : s.mem.store (OFF_HEAD, rec.seq) (g.slot seq) = s.mem (g.slot seq) := by
    apply Memory.store_other
    have bound := header_le_slot g seq
    change g.slot seq ≠ 64
    unfold HEADER at bound
    omega
  have own := writing.progress.finished.1
  constructor
  case positive =>
    intro old member
    rcases List.mem_append.mp member with earlier | last
    · exact slots.positive old earlier
    · rw [List.mem_singleton.mp last]
      exact lt_of_le_of_lt (zero_le _) writing.new
  case kept =>
    intro old member near
    change s.mem.store (OFF_HEAD, rec.seq) OFF_HEAD < _ at near
    rw [head] at near
    refine (slot old.seq).trans ?_
    rcases List.mem_append.mp member with earlier | last
    · exact slots.kept old earlier (by omega)
    · rw [List.mem_singleton.mp last]
      exact own
  case words =>
    intro seq
    cases slots.words seq with
    | empty shown => exact .empty ((slot seq).trans shown)
    | busy other left shown otherWay same =>
      rw [underWay] at otherWay
      cases otherWay
      rw [← same, own] at shown
      exact absurd shown (Nat.ne_of_lt writing.numbered)
    | shows found shown positive bound same =>
      refine .shows found ((slot seq).trans shown) positive ?_ same
      change found ≤ s.mem.store (OFF_HEAD, rec.seq) OFF_HEAD
      rw [head, ← before]
      exact bound

theorem SlotsInv.store (sound : Sound g) (inv : Inv g s) (slots : SlotsInv g s) : SlotsInv g s.store := by
  unfold State.store
  split
  · exact slots
  · exact slots.slotStore sound inv ‹_›
  · exact slots.headStore inv ‹_›

theorem SlotsInv.setReaders (slots : SlotsInv g s) (readers : ι → RingReader) :
    SlotsInv g { s with readers := readers } where
  positive := slots.positive
  kept := slots.kept
  words seq := by
    cases slots.words seq with
    | empty shown => exact .empty shown
    | busy rec rest shown underWay own => exact .busy rec rest shown underWay own
    | shows found shown positive bound own => exact .shows found shown positive bound own

theorem SlotsInv.not_ahead (sound : Sound g) (inv : Inv g s) (slots : SlotsInv g s) (positive : 0 < seq)
    (below : seq ≤ s.mem OFF_HEAD) (near : newest s < seq + g.slotCount) : s.mem (g.slot seq) ≤ seq := by
  have bound := newest_lt inv
  unfold BUSY at bound
  cases slots.words seq with
  | empty shown => omega
  | busy rec rest shown underWay own =>
    have new := (inv.writing rec rest underWay).new
    have top : newest s = rec.seq := by rw [newest, underWay]
    exact absurd own.symm (slots_differ sound positive (by omega) (by omega) (by omega))
  | shows found shown _ upper own =>
    rw [shown]
    by_contra later
    exact slots_differ sound positive (by omega) (by omega) (by omega) own.symm

end

end Weftos.Stream.Resident
