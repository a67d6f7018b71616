import Mathlib.Data.List.Induction
import Weftos.Lib.Run
import Weftos.Lib.Table
import Weftos.Lib.Text

/-! Refusals that repeat: what is logged of them, and when the instance is stopped. -/

namespace Weftos.Bus.Refusals
open List Lib.Run Lib.Text

structure RefusalLimits where
  dedupeMs : Nat
  stopAfter : Nat
  windowMs : Nat

def MAX_KEYS : Nat := 4096

structure Seen where
  loggedMs : Nat
  suppressed : Nat := 0

structure Verdict where
  log : Option Nat
  stop : Option Nat

/-- An instance without strikes has the empty queue. -/
structure Tracker where
  seen : List ((String × String × String) × Seen) := []
  strikes : String → List Nat := fun _ => []

structure Refusal where
  inst : String
  code : String
  topic : String
  now : Nat

/-- Neither an unknown token nor an internal publisher has an instance to stop. -/
def canStop (inst : String) : Bool := inst != "-" && !startsWith inst "@"

variable (lim : RefusalLimits)

def counts (now t : Nat) : Bool := now - t ≤ lim.windowMs

/-- The cleanup of both tables. -/
def retain (s : Tracker) (now : Nat) : Tracker :=
  ⟨s.seen.filter (now - ·.2.loggedMs < lim.dedupeMs),
    fun inst => if (s.strikes inst).getLast?.any (counts lim now) then s.strikes inst else []⟩

def struck (q : List Nat) (now : Nat) : List Nat := (q ++ [now]).dropWhile (! counts lim now ·)

def note (s : Tracker) (r : Refusal) : Verdict × Tracker :=
  let s := if s.seen.length ≥ MAX_KEYS then retain lim s r.now else s
  let key := (r.inst, r.code, r.topic)
  let (log, entry) := match s.seen.lookup key with
    | some e =>
      if r.now - e.loggedMs < lim.dedupeMs then (none, { e with suppressed := e.suppressed + 1 })
      else (some e.suppressed, ⟨r.now, 0⟩)
    | none => (some 0, ⟨r.now, 0⟩)
  let s := { s with seen := Lib.Table.insert s.seen key entry }
  if canStop r.inst && 0 < lim.stopAfter then
    let q := struck lim (s.strikes r.inst) r.now
    let full := q.length ≥ lim.stopAfter
    (⟨log, if full then some (q.length % 2 ^ 32) else none⟩,
      { s with strikes := Function.update s.strikes r.inst (if full then [] else q) })
  else (⟨log, none⟩, s)

def step (s : Tracker) (r : Refusal) : Tracker := (note lim s r).2

/-! ### What a stop depends on -/

def counted (before : List Nat) (now : Nat) : List Nat := (before ++ [now]).filter (counts lim now)

/-- What is counted from after a refusal: a stop begins anew. -/
def after (before : List Nat) (now : Nat) : List Nat :=
  if (counted lim before now).length ≥ lim.stopAfter then [] else before ++ [now]

/-- The refusals of `inst` since its last stop, read off its own refusals alone. -/
def since (inst : String) (rs : List Refusal) : List Nat :=
  (rs.filter (·.inst = inst)).foldl (fun h r => after lim h r.now) []

/-- The queue `q` has all of `h` that still counts. -/
structure Keeps (now : Nat) (q h : List Nat) : Prop where
  kept : ∀ t, now ≤ t → q.filter (counts lim t) = h.filter (counts lim t)
  sorted : q.Pairwise (· ≤ ·)
  past : ∀ t ∈ q, t ≤ now

variable {lim} {q h : List Nat} {now : Nat}

theorem dropWhile_old (sorted : q.Pairwise (· ≤ ·)) : q.dropWhile (! counts lim now ·) = q.filter (counts lim now) := by
  induction q with
  | nil => rfl
  | cons t q ih =>
    obtain ⟨first, rest⟩ := pairwise_cons.mp sorted
    cases new : counts lim now t with
    | false => simpa [new] using ih rest
    | true =>
      have all : ∀ u ∈ q, counts lim now u = true := by
        intro u listed
        have := first u listed
        simp only [counts, decide_eq_true_eq] at new ⊢
        omega
      simp [new, filter_eq_self.mpr all]

namespace Keeps

theorem nil : Keeps lim now [] [] := ⟨fun _ _ => rfl, .nil, by simp⟩

variable (keeps : Keeps lim now q h)
include keeps

theorem later {t : Nat} (order : now ≤ t) : Keeps lim t q h :=
  ⟨fun u after => keeps.kept u (order.trans after), keeps.sorted, fun u listed => (keeps.past u listed).trans order⟩

theorem retain : Keeps lim now (if q.getLast?.any (counts lim now) then q else []) h := by
  split
  · exact keeps
  next old =>
    refine ⟨fun t after => ?_, .nil, by simp⟩
    rw [← keeps.kept t after, filter_nil, eq_comm, filter_eq_nil_iff]
    obtain rfl | ⟨q, last, rfl⟩ := eq_nil_or_concat q
    · simp
    · have := keeps.sorted
      simp [counts, pairwise_append] at old this ⊢
      grind

theorem sorted_now : (q ++ [now]).Pairwise (· ≤ ·) := pairwise_append.mpr
    ⟨keeps.sorted, by simp, by simpa using keeps.past⟩

theorem struck_eq : struck lim q now = counted lim h now := by
  rw [struck, dropWhile_old keeps.sorted_now, counted, filter_append, filter_append, keeps.kept now (le_refl _)]

theorem strike : Keeps lim now (struck lim q now) (h ++ [now]) := by
  have sub : struck lim q now <+ q ++ [now] := dropWhile_sublist _
  refine ⟨fun t later => ?_, keeps.sorted_now.sublist sub, fun t listed => ?_⟩
  · rw [keeps.struck_eq, counted, filter_filter]
    apply filter_congr
    simp only [counts]
    grind
  · have := sub.mem listed
    have := keeps.past t
    grind

end Keeps

section
variable (positive : 0 < lim.stopAfter)
include positive

theorem note_keeps {s : Tracker} {r : Refusal} {hs : String → List Nat}
    (keeps : ∀ inst, canStop inst = true → Keeps lim r.now (s.strikes inst) (hs inst)) :
    (canStop r.inst = true →
      ((note lim s r).1.stop.isSome = true ↔ (counted lim (hs r.inst) r.now).length ≥ lim.stopAfter)) ∧
    ∀ inst, canStop inst = true →
      Keeps lim r.now ((step lim s r).strikes inst) (if r.inst = inst then after lim (hs inst) r.now else hs inst) := by
  simp only [step, note]
  generalize cleaned : (if s.seen.length ≥ MAX_KEYS then retain lim s r.now else s) = s'
  have keeps' : ∀ inst, canStop inst = true → Keeps lim r.now (s'.strikes inst) (hs inst) := by
    intro inst can
    rw [← cleaned]
    split
    · exact (keeps inst can).retain
    · exact keeps inst can
  cases can : canStop r.inst with
  | false =>
    refine ⟨nofun, fun inst can' => ?_⟩
    have other : r.inst ≠ inst := by grind
    simpa [other] using keeps' inst can'
  | true =>
    have own := keeps' r.inst can
    simp only [positive, own.struck_eq, Bool.true_and, decide_true, if_true]
    refine ⟨fun _ => by split <;> simp_all, fun inst can' => ?_⟩
    by_cases same : r.inst = inst
    · subst same
      rw [Function.update_self, if_pos rfl, after]
      split
      · exact .nil
      · exact own.struck_eq ▸ own.strike
    · simpa [same, Ne.symm same] using keeps' inst can'

theorem keeps_run (rs : List Refusal) (now : Nat) (order : (rs.map Refusal.now ++ [now]).Pairwise (· ≤ ·))
    (inst : String) (can : canStop inst = true) :
    Keeps lim now ((run (step lim) {} rs).strikes inst) (since lim inst rs) := by
  induction rs using reverseRecOn generalizing now inst with
  | nil => exact .nil
  | append_singleton rs r ih =>
    rw [map_append] at order
    obtain ⟨before, -, later⟩ := pairwise_append.mp order
    have one := ((note_keeps positive (ih r.now before)).2 inst can).later (later r.now (by simp) now (by simp))
    rw [run_append]
    by_cases same : r.inst = inst <;> simpa [since, same] using one

/-- A refusal stops the instance exactly when enough of its own since the last stop are in the window. -/
theorem stop_exact (rs : List Refusal) (r : Refusal) (order : ((rs ++ [r]).map Refusal.now).Pairwise (· ≤ ·))
    (can : canStop r.inst = true) :
    let stops := (note lim (run (step lim) {} rs) r).1.stop.isSome
    (stops = true ↔ (counted lim (since lim r.inst rs) r.now).length ≥ lim.stopAfter) ∧
      since lim r.inst (rs ++ [r]) = if stops then [] else since lim r.inst rs ++ [r.now] := by
  rw [map_append] at order
  have exact := (note_keeps positive (keeps_run positive rs r.now order)).1 can
  exact ⟨exact, by simp [since, exact, after]⟩

end

def limits : RefusalLimits := ⟨10, 3, 60⟩

def denied (topic : String) (now : Nat) : Refusal := ⟨"cog", "denied", topic, now⟩

theorem stop_exact_third :
    (note limits (run (step limits) {} [denied "a" 1, denied "b" 50]) (denied "a" 61)).1.stop.isSome = true :=
  (stop_exact (by decide) [denied "a" 1, denied "b" 50] (denied "a" 61) (by decide) (by decide)).1.mpr (by decide)

/-! ### What is logged -/

def Refusal.key (r : Refusal) : String × String × String := (r.inst, r.code, r.topic)

variable (lim)

/-- Whether a refusal is logged when the last one that was is from `last`. -/
def due (last : Option Nat) (now : Nat) : Bool := last.all (lim.dedupeMs ≤ now - ·)

/-- When a refusal under `key` was last logged, read off the refusals under it alone. -/
def lastLogged (key : String × String × String) (rs : List Refusal) : Option Nat :=
  (rs.filter (·.key = key)).foldl (fun last r => if due lim last r.now then some r.now else last) none

/-- The table has every refusal whose repeats are not logged yet. -/
structure Shows (now : Nat) (s : Tracker) (last : String × String × String → Option Nat) : Prop where
  right : ∀ entry ∈ s.seen, last entry.1 = some entry.2.loggedMs
  there : ∀ key, due lim (last key) now = false → ∃ entry ∈ s.seen, entry.1 = key

variable {lim} {s : Tracker} {last : String × String × String → Option Nat}

theorem Shows.later (shows_ : Shows lim now s last) (order : now ≤ t) : Shows lim t s last where
  right := shows_.right
  there key quiet := shows_.there key (by
    cases found : last key <;> simp_all [due]
    omega)

theorem Shows.retain (shows_ : Shows lim now s last) : Shows lim now (retain lim s now) last where
  right entry kept := shows_.right entry (mem_filter.mp kept).1
  there key quiet := by
    obtain ⟨entry, listed, rfl⟩ := shows_.there key quiet
    refine ⟨entry, mem_filter.mpr ⟨listed, ?_⟩, rfl⟩
    simpa [due, shows_.right entry listed] using quiet

theorem Shows.insert (shows_ : Shows lim now s last) (key : String × String × String) (e : Seen)
    (strikes : String → List Nat) :
    Shows lim now ⟨Lib.Table.insert s.seen key e, strikes⟩ (Function.update last key (some e.loggedMs)) where
  right entry kept := by
    obtain old | new := mem_append.mp kept
    · obtain ⟨listed, other⟩ := mem_filter.mp old
      rw [Function.update_of_ne (by simpa using other)]
      exact shows_.right entry listed
    · rw [mem_singleton.mp new, Function.update_self]
  there other quiet := by
    by_cases same : other = key
    · exact ⟨(key, e), mem_append_right _ mem_cons_self, same.symm⟩
    · rw [Function.update_of_ne same] at quiet
      obtain ⟨entry, listed, rfl⟩ := shows_.there other quiet
      exact ⟨entry, mem_append_left _ (mem_filter.mpr ⟨listed, by simpa using same⟩), rfl⟩

/-- Whether a refusal is logged, and what it does to the table. -/
theorem note_shows (shows_ : Shows lim r.now s last) :
    (note lim s r).1.log.isSome = due lim (last r.key) r.now ∧
      Shows lim r.now (step lim s r)
        (Function.update last r.key (if due lim (last r.key) r.now then some r.now else last r.key)) := by
  simp only [step, note]
  generalize cleaned : (if s.seen.length ≥ MAX_KEYS then Refusals.retain lim s r.now else s) = s'
  have shows' : Shows lim r.now s' last := by
    rw [← cleaned]
    split
    · exact shows_.retain
    · exact shows_
  cases found : s'.seen.lookup r.key with
  | none =>
    have now : due lim (last r.key) r.now = true := by
      by_contra quiet
      obtain ⟨entry, listed, same⟩ := shows'.there r.key (by simpa using quiet)
      simpa [same] using lookup_eq_none_iff.mp found entry listed
    have new := shows'.insert r.key ⟨r.now, 0⟩
    rw [Refusal.key] at found
    rw [now]
    simp only [found]
    split <;> exact ⟨rfl, new _⟩
  | some e =>
    have logged := shows'.right _ (Lib.Table.mem_of_lookup found)
    have new := shows'.insert r.key
    rw [Refusal.key] at found
    simp only [logged, due, Option.all_some, decide_eq_true_eq, found]
    by_cases old : lim.dedupeMs ≤ r.now - e.loggedMs
    · simp only [old, Nat.not_lt.mpr old, if_true, if_false, decide_true]
      split <;> exact ⟨rfl, new ⟨r.now, 0⟩ _⟩
    · simp only [old, Nat.lt_of_not_le old, if_true, if_false, decide_false]
      split <;> exact ⟨rfl, new { e with suppressed := e.suppressed + 1 } _⟩

theorem shows_run (rs : List Refusal) (now : Nat) (order : (rs.map Refusal.now ++ [now]).Pairwise (· ≤ ·)) :
    Shows lim now (run (step lim) {} rs) (lastLogged lim · rs) := by
  induction rs using reverseRecOn generalizing now with
  | nil => exact ⟨by simp, by simp [lastLogged, due]⟩
  | append_singleton rs r ih =>
    rw [map_append] at order
    obtain ⟨before, -, later⟩ := pairwise_append.mp order
    have one := (note_shows (ih r.now before)).2.later (later r.now (by simp) now (by simp))
    have same : (lastLogged lim · (rs ++ [r])) = Function.update (lastLogged lim · rs) r.key
        (if due lim (lastLogged lim r.key rs) r.now then some r.now else lastLogged lim r.key rs) := by
      funext key
      by_cases same : key = r.key
      · rw [same, Function.update_self, lastLogged, filter_append, foldl_append, filter_cons_of_pos (by simp)]
        rfl
      · simp [lastLogged, same, Ne.symm same]
    rw [run_append, same]
    exact one

/-- However many keys there are and whenever the table was cleaned up, a refusal is logged exactly when the last
one logged under its key is old enough. -/
theorem logged_exact (rs : List Refusal) (r : Refusal) (order : ((rs ++ [r]).map Refusal.now).Pairwise (· ≤ ·)) :
    (note lim (run (step lim) {} rs) r).1.log.isSome = due lim (lastLogged lim r.key rs) r.now := by
  rw [map_append] at order
  exact (note_shows (shows_run rs r.now order)).1

theorem logged_exact_repeat :
    (note limits (run (step limits) {} [denied "a" 1, denied "b" 2, denied "a" 10]) (denied "a" 11)).1.log.isSome =
      true :=
  (logged_exact [denied "a" 1, denied "b" 2, denied "a" 10] (denied "a" 11) (by decide)).trans (by decide)

end Weftos.Bus.Refusals
