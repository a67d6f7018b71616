import Weftos.Chain.Local

/-! Finding events by their number. Every lookup takes numbers for positions, which
they are as long as the events are numbered from zero. -/

namespace Weftos.Chain.Lookup
open Lib.Log Event Local List

def number (event : ChainEvent) : Nat := event.sequence.toNat

def window (events : List ChainEvent) (start stop : Nat) (kindPrefix : Option String) : List ChainEvent :=
  ((events.take stop).drop start).filter (kindMatches kindPrefix)

/-- What every page must be: the matching events of an interval that begins at `start`
and ends where the next page begins. -/
def PageRight (events : List ChainEvent) (start stop : UInt64) (kindPrefix : Option String)
    (page : List ChainEvent × UInt64) : Prop :=
  start ≤ page.2 ∧ page.2 ≤ stop ∧ page.1 = window events start.toNat page.2.toNat kindPrefix

theorem toNat_succ_of_lt {value bound : UInt64} (below : value < bound) : (value + 1).toNat = value.toNat + 1 := by
  have room := bound.toNat_lt
  rw [UInt64.lt_iff_toNat_lt] at below
  rw [UInt64.toNat_add]
  exact Nat.mod_eq_of_lt (by change value.toNat + 1 < 2 ^ 64; omega)

theorem replayLoop_spec {next : UInt64} (kindPrefix : Option String) (limit scan : Nat)
    (numbered : Numbered number position rest) (scanned : Nat) (out : List ChainEvent)
    (here : next.toNat = position) (within : next ≤ stop) :
    next ≤ (replayLoop stop kindPrefix limit scan rest scanned out next).2 ∧
      (replayLoop stop kindPrefix limit scan rest scanned out next).2 ≤ stop ∧
      (replayLoop stop kindPrefix limit scan rest scanned out next).1 =
        out ++ (rest.take ((replayLoop stop kindPrefix limit scan rest scanned out next).2.toNat - position)).filter
          (kindMatches kindPrefix) := by
  induction rest generalizing position scanned out next with
  | nil => exact ⟨within, UInt64.le_refl stop, by simp [replayLoop]⟩
  | cons event later ih =>
    obtain ⟨first, numberedLater⟩ := numbered
    have same : event.sequence = next := UInt64.toNat_inj.mp (first.trans here.symm)
    rw [replayLoop]
    by_cases past : stop ≤ event.sequence
    · have exact_stop : next = stop := UInt64.le_antisymm within (same ▸ past)
      rw [if_pos past]
      refine ⟨within, UInt64.le_refl stop, ?_⟩
      rw [← exact_stop, here]
      simp
    rw [if_neg past]
    by_cases full : scan ≤ scanned ∨ limit ≤ out.length
    · rw [if_pos full]
      refine ⟨UInt64.le_refl next, within, ?_⟩
      rw [here]
      simp
    · rw [if_neg full]
      have below : event.sequence < stop := UInt64.not_le.mp past
      have nextNat := toNat_succ_of_lt below
      have stepped : (event.sequence + 1).toNat = position + 1 := by rw [nextNat, same, here]
      have nextWithin : event.sequence + 1 ≤ stop := by
        rw [UInt64.le_iff_toNat_le, nextNat]
        exact UInt64.lt_iff_toNat_lt.mp below
      obtain ⟨forward, bounded, collected⟩ := ih numberedLater (scanned + 1)
        (if kindMatches kindPrefix event then out ++ [event] else out) stepped nextWithin
      generalize replayLoop stop kindPrefix limit scan later (scanned + 1)
        (if kindMatches kindPrefix event then out ++ [event] else out) (event.sequence + 1) = page at *
      rw [UInt64.le_iff_toNat_le, stepped] at forward
      refine ⟨?_, bounded, ?_⟩
      · rw [UInt64.le_iff_toNat_le]
        omega
      · have split : page.2.toNat - position = (page.2.toNat - (position + 1)) + 1 := by omega
        rw [collected, split, take_succ_cons, filter_cons]
        split_ifs <;> simp

variable (search : PartitionPoint ChainEvent) {chain : LocalChain}

theorem replayPage_eq (numbered : Numbered number 0 chain.events) (start stop : UInt64)
    (kindPrefix : Option String) (limit scan : Nat) :
    chain.replayPage search start stop kindPrefix limit scan =
      replayLoop stop kindPrefix limit scan (chain.events.drop start.toNat) 0 [] start := by
  have position : search.find (fun e => e.sequence < start) chain.events = (chain.events.take start.toNat).length :=
    search.find_numbered numbered start.toNat fun e => by
      rw [decide_eq_true_eq, UInt64.lt_iff_toNat_lt]
      rfl
  have rest : chain.events.drop (chain.events.take start.toNat).length = chain.events.drop start.toNat := by
    rw [length_take]
    rcases Nat.le_total start.toNat chain.events.length with inside | beyond
    · rw [Nat.min_eq_left inside]
    · rw [Nat.min_eq_right beyond, drop_length, drop_of_length_le beyond]
  rw [LocalChain.replayPage, position, rest]

theorem numbered_from (numbered : Numbered number 0 events) (n : Nat) : Numbered number n (events.drop n) := by
  have behind := numbered_drop number numbered n
  rwa [Nat.zero_add] at behind

section
variable (numbered : Numbered number 0 chain.events)
include numbered

theorem replayPage_right (ordered : start ≤ stop) (kindPrefix : Option String) (limit scan : Nat) :
    PageRight chain.events start stop kindPrefix
      (chain.replayPage search start stop kindPrefix limit scan) := by
  rw [replayPage_eq search numbered]
  obtain ⟨forward, bounded, collected⟩ :=
    replayLoop_spec kindPrefix limit scan (numbered_from numbered start.toNat) 0 [] rfl ordered
  refine ⟨forward, bounded, collected.trans ?_⟩
  rw [window, nil_append, drop_take]

theorem replayPage_progress (ordered : start < stop) (kindPrefix : Option String) (limits : 0 < limit)
    (scans : 0 < scan) :
    start < (chain.replayPage search start stop kindPrefix limit scan).2 := by
  rw [replayPage_eq search numbered]
  have behind := numbered_from numbered start.toNat
  generalize chain.events.drop start.toNat = rest at behind ⊢
  cases rest with
  | nil => exact ordered
  | cons event later =>
    obtain ⟨first, numberedLater⟩ := behind
    have same : event.sequence = start := UInt64.toNat_inj.mp first
    have stepped : (start + 1).toNat = start.toNat + 1 := toNat_succ_of_lt ordered
    have within : start + 1 ≤ stop := by
      rw [UInt64.le_iff_toNat_le, stepped]
      exact UInt64.lt_iff_toNat_lt.mp ordered
    rw [replayLoop, same, if_neg (UInt64.not_le.mpr ordered), if_neg (by simp; omega)]
    have forward := (replayLoop_spec kindPrefix limit scan numberedLater 1
      (if kindMatches kindPrefix event then [] ++ [event] else []) stepped within).1
    rw [UInt64.le_iff_toNat_le, stepped] at forward
    rw [UInt64.lt_iff_toNat_lt]
    exact forward

theorem tailFrom_eq (after : UInt64) :
    chain.tailFrom after = chain.events.drop (after.toNat + 1) := by
  rw [LocalChain.tailFrom]
  nth_rewrite 1 [← take_append_drop (after.toNat + 1) chain.events]
  rw [filter_append, filter_eq_nil_iff.mpr, filter_eq_self.mpr, nil_append]
  · intro e listed
    have large := numbered_le number (numbered_drop number numbered (after.toNat + 1)) e listed
    rw [decide_eq_true_eq, UInt64.lt_iff_toNat_lt]
    change after.toNat < number e
    omega
  · intro e listed
    have small := numbered_take number numbered (after.toNat + 1) e listed
    rw [decide_eq_true_eq, UInt64.lt_iff_toNat_lt]
    change ¬ after.toNat < number e
    omega

end

theorem find_eq_getElem (numbered : Numbered number 0 events) (n : UInt64) :
    events.find? (·.sequence = n) = events[n.toNat]? := by
  have entries := (numbered_iff_getElem number 0 events).mp numbered
  by_cases inside : n.toNat < events.length
  · rw [getElem?_eq_getElem inside, find?_eq_some_iff_getElem]
    refine ⟨?_, n.toNat, inside, rfl, ?_⟩
    · have there := entries n.toNat inside
      rw [Nat.zero_add] at there
      exact decide_eq_true (UInt64.toNat_inj.mp there)
    · intro i before
      have there := entries i (by omega)
      simp only [Bool.not_eq_true', decide_eq_false_iff_not]
      intro same
      rw [number, same] at there
      omega
  · rw [getElem?_eq_none (by omega), find?_eq_none]
    intro e listed
    have small := numbered_take number numbered events.length e (by rwa [take_length])
    rw [decide_eq_true_eq]
    rintro rfl
    change e.sequence.toNat < _ at small
    omega

/-! ### Windows -/

section
variable {events : List ChainEvent} (kindPrefix : Option String) {stop : Nat}

@[simp] theorem window_self (start : Nat) : window events start start kindPrefix = [] := by
  rw [window, drop_take, Nat.sub_self, take_zero, filter_nil]

theorem window_append (first : start ≤ middle) (second : middle ≤ stop) :
    window events start middle kindPrefix ++ window events middle stop kindPrefix =
      window events start stop kindPrefix := by
  simp only [window, drop_take, ← filter_append]
  congr 1
  have later : events.drop middle = (events.drop start).drop (middle - start) := by
    rw [drop_drop, Nat.add_sub_cancel' first]
  have size : stop - start = (middle - start) + (stop - middle) := by omega
  rw [later, size, take_add]

theorem window_length_le (start stop : Nat) : (window events start stop kindPrefix).length ≤ stop - start := by
  refine (length_filter_le ..).trans ?_
  simp only [length_drop, length_take]
  omega

theorem window_length_eq (start : Nat) :
    window events start events.length kindPrefix = (events.drop start).filter (kindMatches kindPrefix) := by
  rw [window, take_length]

theorem window_extend (kept : events <+: longer) (start : Nat)
    (inside : stop ≤ events.length) : window longer start stop kindPrefix = window events start stop kindPrefix := by
  obtain ⟨added, rfl⟩ := kept
  rw [window, take_append_of_le_length inside, window]

variable (numbered : Numbered number 0 events)
include numbered

theorem window_mem
    (listed : e ∈ window events start stop kindPrefix) : e ∈ events ∧ start ≤ number e ∧ number e < stop := by
  have inside := (mem_filter.mp listed).1
  have front := mem_of_mem_drop inside
  have small := numbered_take number numbered stop e front
  rw [drop_take] at inside
  have large := numbered_le number (numbered_drop number numbered start) e (mem_of_mem_take inside)
  exact ⟨mem_of_mem_take front, by omega, by omega⟩

theorem window_sorted (start stop : Nat) :
    (window events start stop kindPrefix).Pairwise (number · < number ·) := by
  have sorted : events.Pairwise (number · < number ·) := by
    have entries := (numbered_iff_getElem number 0 events).mp numbered
    rw [pairwise_iff_getElem]
    intro i j inside inside' before
    rw [entries i inside, entries j inside']
    omega
  exact sorted.sublist ((filter_sublist.trans (drop_sublist ..)).trans (take_sublist ..))

theorem window_cut
    (split : front ++ back = window events start stop kindPrefix) (first : start ≤ middle)
    (second : middle ≤ stop) (below : ∀ e ∈ front, number e < middle) (above : ∀ e ∈ back, middle ≤ number e) :
    front = window events start middle kindPrefix := by
  have cut (list : List ChainEvent) (keep : ∀ e ∈ list, number e < middle) :
      list.filter (number · < middle) = list := filter_eq_self.mpr fun e listed => decide_eq_true (keep e listed)
  have none (list : List ChainEvent) (drop : ∀ e ∈ list, middle ≤ number e) :
      list.filter (number · < middle) = [] :=
    filter_eq_nil_iff.mpr fun e listed => by simpa using drop e listed
  calc front = (front ++ back).filter (number · < middle) := by
        rw [filter_append, cut front below, none back above, append_nil]
    _ = (window events start middle kindPrefix ++ window events middle stop kindPrefix).filter
          (number · < middle) := by
        rw [split, window_append kindPrefix first second]
    _ = window events start middle kindPrefix := by
        rw [filter_append, cut _ fun e listed => (window_mem kindPrefix numbered listed).2.2,
          none _ fun e listed => (window_mem kindPrefix numbered listed).2.1, append_nil]

end

end Weftos.Chain.Lookup
