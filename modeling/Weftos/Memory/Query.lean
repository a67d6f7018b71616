import Mathlib.Algebra.Ring.Int.Defs
import Weftos.Lib.Shortlist
import Weftos.Memory.Lineage

/-! What a query over a lineage returns. A node is asked for a bounded number of results before anything is
masked or shadowed, so an id may come up late, with a vector that is replaced, or not at all. -/

namespace Weftos.Memory.Query
open Lib Lib.Ranking Lib.Shortlist Lineage List

variable {F S δ : Type}

/-! ### What a node tells -/

section
variable [RvfStore F S] {n : MemoryNode F S} {id : Nat}

theorem tells_eq_none : n.tells id = none ↔ id ∉ n.tombstones ∧ (RvfStore.live n.store).lookup id = none := by
  by_cases hidden : id ∈ n.tombstones <;> simp [MemoryNode.tells, hidden]

theorem tells_eq_some : n.tells id = some (some v) ↔ id ∉ n.tombstones ∧
    (RvfStore.live n.store).lookup id = some v := by
  by_cases hidden : id ∈ n.tombstones <;> simp [MemoryNode.tells, hidden]

theorem tells_gone : n.tells id = some none ↔ id ∈ n.tombstones := by
  by_cases hidden : id ∈ n.tombstones <;> simp [MemoryNode.tells, hidden]

theorem mem_visibleIds {chain : List (MemoryNode F S)} : id ∈ visibleIds chain ↔
    (visibleIn chain id).isSome = true := by
  rw [visibleIds, Finset.mem_filter, mem_toFinset]
  refine and_iff_right_of_imp fun shown => ?_
  obtain ⟨v, shown⟩ := Option.isSome_iff_exists.mp shown
  obtain ⟨n, among, told⟩ := exists_of_findSome?_eq_some (Option.join_eq_some_iff.mp shown)
  exact mem_flatMap.mpr ⟨n, among, mem_map_of_mem (Table.mem_of_lookup (tells_eq_some.mp told).2)⟩

end

/-! ### The walk -/

def fresh (n : MemoryNode F S) (walk : Walk δ) (r : Nat × δ) : Bool :=
  !(walk.masked.contains r.1 || n.tombstones.contains r.1 || walk.seen.contains r.1)

variable {n : MemoryNode F S} {walk : Walk δ}

theorem fresh_iff : fresh n walk r = true ↔ r.1 ∉ walk.masked ∧ r.1 ∉ n.tombstones ∧ r.1 ∉ walk.seen := by
  simp [fresh, and_assoc]

theorem take_all (n : MemoryNode F S) (results : List (Nat × δ)) (distinct : (results.map (·.1)).Nodup)
    (walk : Walk δ) :
    (results.foldl (Walk.take n) walk).masked = walk.masked ∧
      (results.foldl (Walk.take n) walk).merged = walk.merged ++ results.filter (fresh n walk) ∧
      ∀ id, id ∈ (results.foldl (Walk.take n) walk).seen ↔
        id ∈ walk.seen ∨ id ∈ (results.filter (fresh n walk)).map (·.1) := by
  induction results generalizing walk with
  | nil => simp
  | cons r results ih =>
    rw [map_cons, nodup_cons] at distinct
    cases here : fresh n walk r with
    | false =>
      have skipped : Walk.take n walk r = walk := if_pos ((Bool.not_eq_false' _).mp here)
      rw [foldl_cons, skipped, filter_cons_of_neg (by simp [here])]
      exact ih distinct.2 walk
    | true =>
      let taken : Walk δ := { walk with seen := walk.seen.insert r.1, merged := walk.merged ++ [r] }
      have took : Walk.take n walk r = taken := if_neg (Bool.not_eq_true _ ▸ (Bool.not_eq_true' _).mp here)
      have others : results.filter (fresh n taken) = results.filter (fresh n walk) := by
        apply filter_congr
        intro o listed
        have apart : o.1 ≠ r.1 := fun same => distinct.1 (same ▸ mem_map_of_mem listed)
        simp [fresh, taken, apart]
      obtain ⟨masked, merged, seen⟩ := ih distinct.2 taken
      rw [others] at merged seen
      rw [foldl_cons, took, filter_cons_of_pos here]
      refine ⟨masked, by rw [merged]; simp [taken], fun id => ?_⟩
      rw [seen]
      simp only [taken, mem_insert_iff, map_cons, mem_cons]
      tauto

section
variable [RvfStore F S] [LinearOrder δ] (index : Index F S δ) (vector : List F) (room : Nat)

/-- What a node answers for an id: that it is gone, or the distance its store returns with it. -/
def lists (id : Nat) (n : MemoryNode F S) : Option (Option δ) :=
  if n.tombstones.contains id then some none else ((index.query n.store vector room).lookup id).map some

/-- The newest node that returns or tombstones the id decides. -/
def surfacing (chain : List (MemoryNode F S)) (id : Nat) : Option δ :=
  (chain.findSome? (lists index vector room id)).join

/-- The distance of what is visible. -/
def distances (chain : List (MemoryNode F S)) (id : Nat) : Option δ := (visibleIn chain id).map (index.distance vector)

structure Gathered (chain : List (MemoryNode F S)) (walk : Walk δ) : Prop where
  masked : ∀ id, id ∈ walk.masked ↔ ∃ n ∈ chain, id ∈ n.tombstones
  seen : ∀ id, id ∈ walk.seen ↔ id ∈ walk.merged.map (·.1)
  merged : ∀ id d, (id, d) ∈ walk.merged ↔ surfacing index vector room chain id = some d
  distinct : (walk.merged.map (·.1)).Nodup

variable {index vector room} {chain : List (MemoryNode F S)} {id : Nat} {d : δ}

theorem gathered_nil : Gathered index vector room [] (⟨[], [], []⟩ : Walk δ) where
  masked := by simp
  seen := by simp
  merged := by simp [surfacing]
  distinct := nodup_nil

theorem query_distinct (index : Index F S δ) (store : S) (vector : List F) (room : Nat) :
    ((index.query store vector room).map (·.1)).Nodup := by
  obtain ⟨_, same, fewer⟩ := (index.exact store vector room).among
  refine (same.map _).nodup_iff.mp (Nodup.sublist (fewer.map _) ?_)
  rw [map_map]
  exact RvfStore.live_distinct store

theorem mem_query : (id, d) ∈ index.query n.store vector room ↔ (index.query n.store vector room).lookup id = some d :=
  ⟨Table.lookup_of_mem (query_distinct index n.store vector room), Table.mem_of_lookup⟩

theorem lists_eq_none : lists index vector room id n = none ↔
    id ∉ n.tombstones ∧ (index.query n.store vector room).lookup id = none := by
  by_cases hidden : id ∈ n.tombstones <;> simp [lists, hidden]

theorem lists_eq_some : lists index vector room id n = some (some d) ↔
    id ∉ n.tombstones ∧ (index.query n.store vector room).lookup id = some d := by
  by_cases hidden : id ∈ n.tombstones <;> simp [lists, hidden]

theorem lists_gone : lists index vector room id n = some none ↔ id ∈ n.tombstones := by
  by_cases hidden : id ∈ n.tombstones <;> simp [lists, hidden]

theorem Gathered.visit (gathered : Gathered index vector room chain walk) (n : MemoryNode F S) :
    Gathered index vector room (chain ++ [n]) (walk.visit index vector room n) := by
  have distinct := query_distinct index n.store vector room
  obtain ⟨masked, merged, seen⟩ := take_all n (index.query n.store vector room) distinct walk
  have visible : (walk.visit index vector room n).merged =
      walk.merged ++ (index.query n.store vector room).filter (fresh n walk) := merged
  constructor
  · intro id
    simp only [Walk.visit, mem_union_iff, masked, gathered.masked, mem_append, mem_singleton]
    constructor
    · rintro (⟨o, listed, hidden⟩ | hidden)
      · exact ⟨o, .inl listed, hidden⟩
      · exact ⟨n, .inr rfl, hidden⟩
    · rintro ⟨o, listed | rfl, hidden⟩
      · exact .inl ⟨o, listed, hidden⟩
      · exact .inr hidden
  · intro id
    rw [visible, map_append, mem_append, ← gathered.seen]
    exact seen id
  · intro id d
    rw [visible, mem_append, gathered.merged, mem_filter, mem_query, fresh_iff, surfacing, surfacing, findSome?_append,
      findSome?_singleton]
    have known : id ∈ walk.seen ↔ ∃ d, surfacing index vector room chain id = some d := by
      rw [gathered.seen, mem_map]
      constructor
      · rintro ⟨⟨_, d⟩, listed, rfl⟩
        exact ⟨d, (gathered.merged _ d).mp listed⟩
      · rintro ⟨d, shown⟩
        exact ⟨(id, d), (gathered.merged id d).mpr shown, rfl⟩
    cases decided : chain.findSome? (lists index vector room id) with
    | none =>
      -- no newer node answers for the id
      have silent := findSome?_eq_none_iff.mp decided
      have unmasked : id ∉ walk.masked := by
        rw [gathered.masked]
        rintro ⟨o, listed, hidden⟩
        exact (lists_eq_none.mp (silent o listed)).1 hidden
      have unseen : id ∉ walk.seen := by
        rw [known, surfacing, decided]
        rintro ⟨d, shown⟩
        cases shown
      rw [Option.none_or, @Option.join_eq_some_iff _ _ (lists index vector room id n), lists_eq_some]
      simp [unmasked, unseen, and_comm]
    | some said =>
      rw [Option.some_or, Option.join_some]
      refine or_iff_left ?_
      rintro ⟨-, unmasked, -, unseen⟩
      cases said with
      | some v => exact unseen (known.mpr ⟨v, by rw [surfacing, decided]; rfl⟩)
      | none =>
        obtain ⟨o, listed, gone⟩ := exists_of_findSome?_eq_some decided
        exact unmasked ((gathered.masked id).mpr ⟨o, listed, lists_gone.mp gone⟩)
  · rw [visible, map_append, nodup_append]
    refine ⟨gathered.distinct, distinct.sublist (filter_sublist.map _), ?_⟩
    intro id before other after same
    subst same
    obtain ⟨r, kept, rfl⟩ := mem_map.mp after
    exact (fresh_iff.mp (mem_filter.mp kept).2).2.2 ((gathered.seen r.1).mpr before)

theorem gathered_chain (index : Index F S δ) (vector : List F) (room : Nat) (chain : List (MemoryNode F S)) :
    Gathered index vector room chain (chain.foldl (Walk.visit index vector room) ⟨[], [], []⟩) := by
  induction chain using reverseRecOn with
  | nil => exact gathered_nil
  | append_singleton chain n ih =>
    rw [foldl_append]
    exact ih.visit n

/-- What a query picks from, against what is visible. -/
theorem queryChain_picks (index : Index F S δ) (chain : List (MemoryNode F S)) (vector : List F) (k : Nat) :
    Picks k (surfacing index vector (overscan k) chain) (distances index vector chain) (visibleIds chain)
      (chain.foldl (Walk.visit index vector (overscan k)) ⟨[], [], []⟩).merged (queryChain index chain vector k) where
  nearest := nearest_sorted k _
  distinct := (gathered_chain index vector (overscan k) chain).distinct
  mem_listed := (gathered_chain index vector (overscan k) chain).merged
  mem_items id := by rw [mem_visibleIds, distances, Option.isSome_map]

/-! ### Queries -/

/-- Nodes that hold no more than they are asked for return all they show. -/
theorem surfacing_eq (index : Index F S δ) (vector : List F)
    (small : ∀ n ∈ chain, (RvfStore.live n.store).length ≤ room) :
    surfacing index vector room chain = distances index vector chain := by
  have answer : ∀ n ∈ chain, ∀ id, lists index vector room id n = (n.tells id).map (·.map (index.distance vector)) := by
    intro n listed id
    have perm := (index.exact n.store vector room).perm (by rw [length_map]; exact small n listed)
    have found : (index.query n.store vector room).lookup id =
        ((RvfStore.live n.store).lookup id).map (index.distance vector) := by
      rw [← Table.lookup_mapValues]
      have distinct := query_distinct index n.store vector room
      ext d
      rw [← mem_query, perm.mem_iff]
      exact ⟨Table.lookup_of_mem ((perm.map _).nodup_iff.mp distinct), Table.mem_of_lookup⟩
    by_cases hidden : id ∈ n.tombstones
    · simp [lists, MemoryNode.tells, hidden]
    · simp [lists, MemoryNode.tells, hidden, found, Function.comp_def]
  funext id
  rw [surfacing, distances, visibleIn]
  induction chain with
  | nil => rfl
  | cons n chain ih =>
    rw [findSome?_cons, findSome?_cons, answer n mem_cons_self id]
    cases n.tells id with
    | some told => rfl
    | none => exact ih (fun o listed => small o (mem_cons_of_mem n listed)) fun o listed =>
        answer o (mem_cons_of_mem n listed)

end

/-! ### Samples -/

/-- The squared distance of integer vectors, searched by sorting. Vectors of length one are
their own normal form. -/
def gridIndex : Index Int (ListStore Int) Int where
  normalize := id
  distance q v := ((q.zip v).map fun c => (c.1 - c.2) * (c.1 - c.2)).sum
  query store q k := (sortBy byDistance ((RvfStore.live store).map fun e =>
    (e.1, ((q.zip e.2).map fun c => (c.1 - c.2) * (c.1 - c.2)).sum))).take k
  exact _ _ k := nearest_sorted k _

def item (id : Nat) (vector : List Int) : VectorItem Int := ⟨some id, vector, none, []⟩

def crowded : World Int (ListStore Int) :=
  Run.run (step gridIndex.normalize) (madeWorld 2)
    [.ingest [item 1 [1, 0], item 2 [1, 0], item 3 [1, 0], item 4 [1, 0], item 5 [0, 1]], .checkpoint "turn",
      .delete [1, 2, 3, 4]]

def superseded : World Int (ListStore Int) :=
  Run.run (step gridIndex.normalize) (madeWorld 2)
    [.ingest [item 9 [1, 0]], .checkpoint "turn",
      .ingest [item 9 [-1, 0], item 1 [0, 1], item 2 [0, 1], item 3 [0, 1], item 4 [0, 1]]]

def small : World Int (ListStore Int) :=
  Run.run (step gridIndex.normalize) (madeWorld 2)
    [.ingest [item 1 [1, 0], item 2 [0, 1], item 3 [-1, 0]], .checkpoint "turn", .ingest [item 1 [0, -1]], .delete [2]]

end Weftos.Memory.Query
