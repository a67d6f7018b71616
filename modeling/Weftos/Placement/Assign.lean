import Mathlib.Data.Prod.Lex
import Weftos.Lib.Selection
import Weftos.Placement.Candidates

/-! Matching a whole requirement list against one node (`clawft-types/src/placement/assign.rs`): a bounded
backtracking search. -/

namespace Weftos.Placement.Assign
open Lib.Selection Candidates List Function

def SEARCH_BUDGET : Nat := 100000

/-- A requirement in the search: its place in the request, its count, its candidates. -/
structure Entry where
  index : Nat
  need : Nat
  cands : List Nat

structure Search where
  used : Nat → Bool
  chosen : Nat → List Nat
  steps : Nat

def Search.setUsed (s : Search) (c : Nat) (value : Bool) : Search :=
  { s with used := update s.used c value }

def sharedFits (shared : List Entry) (used : Nat → Bool) : Bool :=
  shared.all fun entry => entry.need ≤ (entry.cands.filter fun c => !used c).length

/-- The head of `choose`: count the step, and go on to the next requirement once `pick`
is complete. `onward` is `exclusive_from(k + 1)` and `loop` the search for more. -/
def enter (onward : Search → Bool × Search) (k : Nat) (loop : Nat → List Nat → Search → Bool × Search) (need : Nat)
    (pick : List Nat) (s : Search) : Bool × Search :=
  let s := { s with steps := s.steps + 1 }
  if SEARCH_BUDGET < s.steps then (false, s)
  else
    match need with
    | 0 => onward { s with chosen := update s.chosen k pick }
    | need + 1 => loop need pick s

/-- The loop of `choose` over the candidates not looked at yet, with `need + 1` more to
take. -/
def chooseLoop (onward : Search → Bool × Search) (k : Nat) : List Nat → Nat → List Nat → Search → Bool × Search
  | [], _, _, s => (false, s)
  | c :: rest, need, pick, s =>
    if rest.length + 1 < need + 1 then (false, s)
    else if s.used c then chooseLoop onward k rest need pick s
    else
      let (ok, s) := enter onward k (chooseLoop onward k rest) need (pick ++ [c]) (s.setUsed c true)
      let s := s.setUsed c false
      if ok then (true, s)
      else if SEARCH_BUDGET < s.steps then (false, s)
      else chooseLoop onward k rest need pick s

def choose (onward : Search → Bool × Search) (k : Nat) (cands : List Nat) (need : Nat) (pick : List Nat) (s : Search) :
    Bool × Search :=
  enter onward k (chooseLoop onward k cands) need pick s

def exclusiveFrom (shared : List Entry) : List Entry → Nat → Search → Bool × Search
  | [], _, s => (sharedFits shared s.used, s)
  | entry :: rest, k, s => choose (exclusiveFrom shared rest (k + 1)) k entry.cands entry.need [] s

def fill {β : Type} (slot : β → Nat) (value : β → List Nat) (items : List β) (out : Nat → List Nat) : Nat → List Nat :=
  items.foldl (fun out item => update out (slot item) (value item)) out

section
variable {F : Type} [F64 F]

def aloneFailure (caps : List (Capability F)) (req : Requirement F) : Option MatchFailure :=
  match req.candidates caps with
  | .ok c => if req.count.toNat ≤ c.length then none
    else some (.insufficientCount (UInt32.ofNat c.length) req.count)
  | .error failure => some failure

def demand (reqs : List (Requirement F)) (caps : List (Capability F)) (c : Nat) : Nat :=
  (reqs.flatMap (·.candidateIndices caps)).count c

def entryOf (caps : List (Capability F)) (p : Requirement F × Nat) : Entry :=
  ⟨p.2, p.1.count.toNat, p.1.candidateIndices caps⟩

variable (reqs : List (Requirement F))

variable (caps : List (Capability F))

def preferred (entry : Entry) : Entry :=
  let before (a b : Nat) : Prop := toLex (demand reqs caps a, a) ≤ toLex (demand reqs caps b, b)
  { entry with cands := entry.cands.insertionSort before }

def exclusiveEntries : List Entry :=
  ((reqs.zipIdx.filter (·.1.exclusive)).map fun p => preferred reqs caps (entryOf caps p)).insertionSort fun a b =>
    toLex (a.cands.length - a.need, a.index) ≤ toLex (b.cands.length - b.need, b.index)

def sharedEntries : List Entry :=
  (reqs.zipIdx.filter (!·.1.exclusive)).map (entryOf caps)

def search : Bool × Search :=
  exclusiveFrom (sharedEntries reqs caps) (exclusiveEntries reqs caps) 0 ⟨fun _ => false, fun _ => [], 0⟩

section
variable (chosen : Nat → List Nat)

def claimed : List Nat :=
  (range (exclusiveEntries reqs caps).length).flatMap chosen

def slots : Nat → List Nat :=
  let out := fill (fun p : Entry × Nat => p.1.index) (fun p => chosen p.2) (exclusiveEntries reqs caps).zipIdx
    fun _ => []
  fill Entry.index (fun entry => (entry.cands.filter (· ∉ claimed reqs caps chosen)).take entry.need)
    (sharedEntries reqs caps) out

def assemble : List (List Nat) :=
  (range reqs.length).map (slots reqs caps chosen)

end

def contended : List (Nat × MatchFailure) :=
  let claimable := (exclusiveEntries reqs caps).flatMap (·.cands)
  (reqs.zipIdx.filter fun p => p.1.exclusive || (p.1.candidateIndices caps).any (· ∈ claimable)).map fun p =>
    (p.2, .contended p.1.count)

def aloneFailures : List (Nat × MatchFailure) :=
  reqs.zipIdx.filterMap fun p => (aloneFailure caps p.1).map fun failure => (p.2, failure)

def matchAll :
    Except (List (Nat × MatchFailure)) (List (List Nat)) :=
  if aloneFailures reqs caps ≠ [] then .error (aloneFailures reqs caps)
  else
    let (ok, s) := search reqs caps
    if ok then .ok (assemble reqs caps s.chosen) else .error (contended reqs caps)

end

/-! ### What the search finds -/

/-- The exclusive entries as goals, with the shared ones to judge what is left. -/
def Solved (shared entries : List Entry) (used : Nat → Bool) (picks : List (List Nat)) : Prop :=
  Solution (fun used => sharedFits shared used = true) (entries.map fun entry => (entry.need, entry.cands)) used picks

def Search.picks (s : Search) (k count : Nat) : List (List Nat) := (range' k count).map s.chosen

/-- A part of the search that started in `s` leaves the marks as it found them, forgets
no step and no earlier pick. -/
structure Kept (k : Nat) (s : Search) (result : Bool × Search) : Prop where
  used : result.2.used = s.used
  steps : s.steps ≤ result.2.steps
  earlier : ∀ j < k, result.2.chosen j = s.chosen j

/-- Within the budget it succeeds exactly when the entries can be served, and then
records how. -/
structure Solves (shared entries : List Entry) (k : Nat) (s : Search) (result : Bool × Search) : Prop
    extends Kept k s result where
  sound : result.1 = true → Solved shared entries s.used (result.2.picks k entries.length)
  complete : result.1 = false → result.2.steps ≤ SEARCH_BUDGET → ∀ picks, ¬ Solved shared entries s.used picks

/-- The same in the middle of a choice, with `pick` taken and `need` more to take. -/
structure Finds (shared entries : List Entry) (k : Nat) (pick : List Nat) (need : Nat) (cands : List Nat) (s : Search)
    (result : Bool × Search) : Prop extends Kept k s result where
  sound : result.1 = true → ∃ more, Selects s.used need cands more ∧ result.2.chosen k = pick ++ more ∧
    Solved shared entries (mark s.used more) (result.2.picks (k + 1) entries.length)
  complete : result.1 = false → result.2.steps ≤ SEARCH_BUDGET → ∀ more, Selects s.used need cands more →
    ∀ picks, ¬ Solved shared entries (mark s.used more) picks

variable {pick cands rest : List Nat} {need c : Nat} {s : Search}

section
variable {shared entries : List Entry} {k : Nat} {onward : Search → Bool × Search} {left : Search}

theorem Kept.spent (kept : Kept k s (false, left)) (spent : SEARCH_BUDGET < left.steps) :
    Finds shared entries k pick need cands s (false, left) :=
  ⟨kept, nofun, fun _ within => absurd within (Nat.not_le.mpr spent)⟩

theorem record_finds (solves : ∀ s, Solves shared entries (k + 1) s (onward s)) (cands pick : List Nat) (s : Search) :
    Finds shared entries k pick 0 cands s (onward { s with chosen := update s.chosen k pick }) := by
  have later := solves { s with chosen := update s.chosen k pick }
  refine ⟨⟨later.used, later.steps, ?_⟩, ?_, ?_⟩
  · intro j before
    exact (later.earlier j (by omega)).trans (update_of_ne (by omega) ..)
  · intro found
    refine ⟨[], ⟨nil_sublist cands, rfl, fun a listed => absurd listed not_mem_nil⟩, ?_, ?_⟩
    · rw [later.earlier k (Nat.lt_succ_self k), append_nil]
      exact update_self ..
    · rw [mark_nil]
      exact later.sound found
  · intro failed within more selects picks
    rw [length_eq_zero_iff.mp selects.length, mark_nil]
    exact later.complete failed within picks

theorem enter_finds (solves : ∀ s, Solves shared entries (k + 1) s (onward s))
    (finds : ∀ need s, Finds shared entries k pick (need + 1) cands s (loop need pick s)) (need : Nat) (s : Search) :
    Finds shared entries k pick need cands s (enter onward k loop need pick s) := by
  by_cases spent : SEARCH_BUDGET < s.steps + 1
  · have stopped : enter onward k loop need pick s = (false, { s with steps := s.steps + 1 }) := if_pos spent
    rw [stopped]
    exact Kept.spent ⟨rfl, Nat.le_succ s.steps, fun _ _ => rfl⟩ spent
  · have inner : Finds shared entries k pick need cands { s with steps := s.steps + 1 }
        (enter onward k loop need pick s) := by
      unfold enter
      rw [if_neg spent]
      cases need with
      | zero => exact record_finds solves cands pick { s with steps := s.steps + 1 }
      | succ need => exact finds need { s with steps := s.steps + 1 }
    exact ⟨⟨inner.used, (Nat.le_succ s.steps).trans inner.steps, inner.earlier⟩, inner.sound, inner.complete⟩

theorem setUsed_true (s : Search) (c : Nat) : (s.setUsed c true).used = mark s.used [c] := by
  funext a
  by_cases same : a = c
  · rw [same]
    simp [Search.setUsed, mark]
  · simp [Search.setUsed, mark, same]

theorem setUsed_false (free : s.used c = false) (marked : left.used = (s.setUsed c true).used) :
    (left.setUsed c false).used = s.used := by
  rw [Search.setUsed, marked, Search.setUsed, update_idem, ← free, update_eq_self]

theorem taken_finds (fresh : c ∉ rest) (free : s.used c = false)
    (inner : Finds shared entries k (pick ++ [c]) need rest (s.setUsed c true) (true, left)) :
    Finds shared entries k pick (need + 1) (c :: rest) s (true, left.setUsed c false) := by
  refine ⟨⟨setUsed_false free inner.used, inner.steps, inner.earlier⟩, fun _ => ?_, nofun⟩
  obtain ⟨more, selects, chosen, solved⟩ := inner.sound rfl
  rw [setUsed_true] at selects solved
  refine ⟨c :: more, (selects_cons fresh).mpr (.inr ⟨free, more, rfl, selects⟩), ?_, ?_⟩
  · exact chosen.trans (append_assoc ..)
  · rw [mark_append] at solved
    exact solved

theorem passed_finds (fresh : c ∉ rest) (free : s.used c = false)
    (inner : Finds shared entries k (pick ++ [c]) need rest (s.setUsed c true) (false, left))
    (others : Finds shared entries k pick (need + 1) rest (left.setUsed c false) result) :
    Finds shared entries k pick (need + 1) (c :: rest) s result := by
  have restored : (left.setUsed c false).used = s.used := setUsed_false free inner.used
  refine ⟨⟨others.used.trans restored, inner.steps.trans others.steps, ?_⟩, ?_, ?_⟩
  · intro j before
    exact (others.earlier j before).trans (inner.earlier j before)
  · intro found
    obtain ⟨more, selects, chosen, solved⟩ := others.sound found
    rw [restored] at selects solved
    exact ⟨more, (selects_cons fresh).mpr (.inl selects), chosen, solved⟩
  · intro failed within more selects picks solved
    rcases (selects_cons fresh).mp selects with without | ⟨_, tail, rfl, with_⟩
    · have none := others.complete failed within more
      rw [restored] at none
      exact none without picks solved
    · have none := inner.complete rfl (others.steps.trans within) tail
      rw [setUsed_true] at none
      refine none with_ picks ?_
      rw [mark_append]
      exact solved

theorem few_finds (few : cands.length < need) (s : Search) : Finds shared entries k pick need cands s (false, s) :=
  ⟨⟨rfl, Nat.le_refl _, fun _ _ => rfl⟩, nofun, fun _ _ _ selects =>
    absurd selects.need_le (Nat.not_le.mpr few)⟩

theorem used_finds (fresh : c ∉ rest) (taken : s.used c = true)
    (others : Finds shared entries k pick (need + 1) rest s result) :
    Finds shared entries k pick (need + 1) (c :: rest) s result := by
  refine ⟨others.toKept, fun found => ?_, fun failed within more selects => ?_⟩
  · obtain ⟨more, selects, rest⟩ := others.sound found
    exact ⟨more, (selects_cons fresh).mpr (.inl selects), rest⟩
  · rcases (selects_cons fresh).mp selects with without | ⟨free, _⟩
    · exact others.complete failed within more without
    · rw [taken] at free
      cases free

theorem chooseLoop_finds (solves : ∀ s, Solves shared entries (k + 1) s (onward s)) (distinct : cands.Nodup)
    (need : Nat) (pick : List Nat) (s : Search) :
    Finds shared entries k pick (need + 1) cands s (chooseLoop onward k cands need pick s) := by
  induction cands generalizing need pick s with
  | nil => exact few_finds (Nat.succ_pos need) s
  | cons c rest ih =>
    obtain ⟨fresh, later⟩ := nodup_cons.mp distinct
    rw [chooseLoop]
    by_cases few : rest.length + 1 < need + 1
    · rw [if_pos few]
      exact few_finds few s
    rw [if_neg few]
    by_cases taken : s.used c = true
    · rw [if_pos taken]
      exact used_finds fresh taken (ih later need pick s)
    rw [if_neg taken]
    have free := Bool.eq_false_of_not_eq_true taken
    have inner := enter_finds solves (fun need s => ih later need (pick ++ [c]) s) need (s.setUsed c true)
    generalize enter onward k (chooseLoop onward k rest) need (pick ++ [c]) (s.setUsed c true) = outcome at inner
    obtain ⟨ok, left⟩ := outcome
    cases ok with
    | true => exact taken_finds fresh free inner
    | false =>
      dsimp only
      by_cases spent : SEARCH_BUDGET < (left.setUsed c false).steps
      · rw [if_neg Bool.false_ne_true, if_pos spent]
        exact Kept.spent ⟨setUsed_false free inner.used, inner.steps, inner.earlier⟩ spent
      · rw [if_neg Bool.false_ne_true, if_neg spent]
        exact passed_finds fresh free inner (ih later need pick (left.setUsed c false))

theorem choose_solves (solves : ∀ s, Solves shared entries (k + 1) s (onward s))
    (distinct : entry.cands.Nodup) (s : Search) :
    Solves shared (entry :: entries) k s (choose onward k entry.cands entry.need [] s) := by
  have finds : Finds shared entries k [] entry.need entry.cands s (choose onward k entry.cands entry.need [] s) :=
    enter_finds solves (fun need s => chooseLoop_finds solves distinct need [] s) entry.need s
  refine ⟨finds.toKept, fun found => ?_, fun failed within picks solved => ?_⟩
  · obtain ⟨more, selects, chosen, solved⟩ := finds.sound found
    rw [nil_append] at chosen
    rw [Search.picks, length_cons, range'_succ, map_cons, chosen]
    exact ⟨selects, solved⟩
  · cases picks with
    | nil => exact solved
    | cons more picks => exact finds.complete failed within more solved.1 picks solved.2

theorem exclusiveFrom_solves (distinct : ∀ entry ∈ entries, entry.cands.Nodup) (s : Search) :
    Solves shared entries k s (exclusiveFrom shared entries k s) := by
  induction entries generalizing k s with
  | nil =>
    refine ⟨⟨rfl, Nat.le_refl _, fun _ _ => rfl⟩, fun fits => fits, fun fails _ picks solved => ?_⟩
    cases picks with
    | nil => exact Bool.false_ne_true (fails.symm.trans solved)
    | cons pick picks => exact solved
  | cons entry rest ih =>
    rw [forall_mem_cons] at distinct
    exact choose_solves (fun s => ih distinct.2 s) distinct.1 s

end

end Weftos.Placement.Assign
