import Mathlib.Data.List.Dedup
import Weftos.Lib.Worklist
import Weftos.Resource.Inclusion

/-! What the difference of two trees contains. The walk skips a path where the hashes agree, and a hash covers
neither the ids nor the kinds below it. -/

namespace Weftos.Resource.Diff
open Lib Lib.Forest Lib.Worklist Lib.Run
open Resource.Path Resource.Tree Shape Current Merkle List ResourceTree ResourceNode
open Inclusion (sample rootHash_eq)

variable {V : Type}

/-! ### Paths of one tree -/

variable (t : ResourceTree V)

section
variable {t : ResourceTree V} {x y p : ResourceId}

theorem parentOf_placed (placed : Placed t) (present : (t.get x).isSome = true) : t.parentOf x = x.parent := by
  obtain ⟨n, found⟩ := Option.isSome_iff_exists.mp present
  rw [parentOf_of_get found, placed x n found]

/-- Down from the root, by the rank that parents have. -/
@[elab_as_elim] theorem down_induction {motive : ResourceId → Prop} (wf : Wf t) (root : motive .root)
    (child : ∀ {x p}, t.parentOf x = some p → (t.get p).isSome = true → motive p → motive x)
    (present : (t.get x).isSome = true) : motive x := by
  obtain ⟨rank, ranked⟩ := wf.ranked
  induction size : rank x using Nat.strong_induction_on generalizing x with
  | _ size_ ih =>
    by_cases top : x = .root
    · exact top ▸ root
    · obtain ⟨n, found⟩ := Option.isSome_iff_exists.mp present
      obtain ⟨p, above, here⟩ := wf.hung found top
      have link : t.parentOf x = some p := (parentOf_of_get found).trans above
      exact child link here (ih (rank p) (size ▸ ranked link) here rfl)

theorem under_root (wf : Wf t) (present : (t.get x).isSome = true) : Under t.parentOf .root x :=
  down_induction wf .self (fun link _ => .up link) present

def childrenOf (t : ResourceTree V) (x : ResourceId) : List ResourceId := ((t.get x).map children).getD []

theorem mem_childrenOf (wf : Wf t) : c ∈ childrenOf t x ↔ t.parentOf c = some x := by
  rw [childrenOf]
  cases found : t.get x with
  | some n => exact wf.listed found c
  | none => exact ⟨nofun, fun link => absurd link (wf.childless_of_absent found c)⟩

theorem childrenOf_nodup (wf : Wf t) (x : ResourceId) : (childrenOf t x).Nodup := by
  rw [childrenOf]
  cases found : t.get x with
  | some n => exact wf.once found
  | none => exact nodup_nil

theorem present_of_mem_keys (wf : Wf t) (listed : x ∈ t.nodes.map (·.1)) : (t.get x).isSome = true := by
  obtain ⟨entry, inNodes, rfl⟩ := mem_map.mp listed
  exact Option.isSome_iff_exists.mpr ⟨entry.2, Table.lookup_of_mem wf.distinct inNodes⟩

def subtree (t : ResourceTree V) (x : ResourceId) : List ResourceId := expand (childrenOf t) (t.nodes.length + 1) [x]

theorem subtree_nodup (wf : Wf t) (x : ResourceId) : (subtree t x).Nodup := by
  obtain ⟨rank, ranked⟩ := wf.ranked
  exact expand_nodup ranked (fun _ _ child => (mem_childrenOf wf).mp child) (childrenOf_nodup wf)
    (pairwise_singleton _ x)

theorem under_of_mem_subtree (wf : Wf t) (met : y ∈ subtree t x) : Under t.parentOf x y := by
  obtain ⟨a, top, under⟩ := under_of_mem_expand (fun _ _ child => (mem_childrenOf wf).mp child) met
  rwa [mem_singleton.mp top] at under

theorem subtree_subset (wf : Wf t) (present : (t.get x).isSome = true) : subtree t x ⊆ t.nodes.map (·.1) := by
  intro y met
  cases under_of_mem_subtree wf met with
  | self => exact mem_keys present
  | up link _ => exact mem_keys (present_of_parentOf link)

theorem mem_subtree (wf : Wf t) (present : (t.get x).isSome = true) : y ∈ subtree t x ↔ Under t.parentOf x y := by
  have short : (subtree t x).length < t.nodes.length + 1 := by
    have bound := (subperm_of_subset (subtree_nodup wf x) (subtree_subset wf present)).length_le
    rw [length_map] at bound
    omega
  obtain ⟨start, closed⟩ := expand_closed short
  refine ⟨under_of_mem_subtree wf, fun lower => ?_⟩
  induction lower with
  | self => exact start x mem_cons_self
  | up link _ ih => exact closed _ ih _ ((mem_childrenOf wf).mpr link)

theorem collect_eq (fuel : Nat) (stack : List ResourceId) : (collectSubtreeAdded t fuel stack).1 =
    (expand (childrenOf t) fuel stack).filterMap fun cid => (t.get cid).map (addedEntry t cid) := by
  induction fuel generalizing stack with
  | zero => rfl
  | succ fuel ih =>
    cases stack with
    | nil => rfl
    | cons cid stack =>
      rw [collectSubtreeAdded, expand, filterMap_cons, childrenOf]
      cases t.get cid with
      | some node =>
        dsimp only
        rw [ih]
        rfl
      | none =>
        rw [ih]
        rfl

end

/-! ### Entries of one path -/

def kindsAt (x : ResourceId) (entries : List (MerkleDiffEntry V)) : List MerkleDiffKind :=
  (entries.filter fun e => e.id = x).map MerkleDiffEntry.diffKind

section
variable {x : ResourceId}

@[simp] theorem kindsAt_nil : kindsAt x ([] : List (MerkleDiffEntry V)) = [] := rfl

theorem kindsAt_append (first second : List (MerkleDiffEntry V)) :
    kindsAt x (first ++ second) = kindsAt x first ++ kindsAt x second := by
  rw [kindsAt, filter_append, map_append]
  rfl

theorem kindsAt_singleton (e : MerkleDiffEntry V) : kindsAt x [e] = if e.id = x then [e.diffKind] else [] := by
  by_cases here : e.id = x <;> simp [kindsAt, here]

theorem kindsAt_flatMap {α : Type} (items : List α) (emit : α → List (MerkleDiffEntry V)) :
    kindsAt x (items.flatMap emit) = items.flatMap fun a => kindsAt x (emit a) := by
  induction items with
  | nil => rfl
  | cons a items ih => rw [flatMap_cons, flatMap_cons, kindsAt_append, ih]

theorem kindsAt_eq_nil :
    kindsAt x entries = [] ↔ (entries.any fun e => e.id = x) = false := by
  rw [kindsAt, map_eq_nil_iff, filter_eq_nil_iff, any_eq_false]

theorem flatMap_only {α β : Type} {f : α → List β} {items : List α} (distinct : items.Nodup) {a : α}
    (listed : a ∈ items) (others : ∀ b ∈ items, b ≠ a → f b = []) : items.flatMap f = f a := by
  obtain ⟨before, after, rfl⟩ := append_of_mem listed
  have away := nodup_middle.mp distinct
  have apart := (nodup_cons.mp away).1
  have none_ (b : α) (elsewhere : b ∈ before ++ after) : f b = [] := by
    apply others b
    · obtain first | second := mem_append.mp elsewhere
      · exact mem_append_left _ first
      · exact mem_append_right _ (mem_cons_of_mem _ second)
    · rintro rfl
      exact apart elsewhere
  have front : before.flatMap f = [] := flatMap_eq_nil_iff.mpr fun b inFront => none_ b (mem_append_left _ inFront)
  have back : after.flatMap f = [] := flatMap_eq_nil_iff.mpr fun b inBack => none_ b (mem_append_right _ inBack)
  rw [flatMap_append, flatMap_cons, front, back, nil_append, append_nil]

theorem kindsAt_removed {keys : List ResourceId} (distinct : keys.Nodup) :
    kindsAt x (keys.map (removedEntry (V := V))) = if x ∈ keys then [.removed] else [] := by
  have one (r : ResourceId) : kindsAt x [removedEntry (V := V) r] = if r = x then [.removed] else [] :=
    kindsAt_singleton _
  rw [map_eq_flatMap, kindsAt_flatMap]
  by_cases listed : x ∈ keys
  · rw [if_pos listed, flatMap_only distinct listed fun r _ differ => (one r).trans (if_neg differ), one, if_pos rfl]
  · rw [if_neg listed, flatMap_eq_nil_iff]
    intro r inKeys
    rw [one, if_neg]
    rintro rfl
    exact listed inKeys

end

theorem walk_eq (at_ : ResourceId → Visit V) (fuel : Nat) (queue seen : List ResourceId)
    (entries : List (MerkleDiffEntry V)) (visited : Nat) : (walk at_ fuel queue seen entries visited).1 =
      entries ++ (drain (fun x => (at_ x).pushed) fuel queue seen).flatMap fun x => (at_ x).emitted := by
  induction fuel generalizing queue seen entries visited with
  | zero => exact (append_nil _).symm
  | succ fuel ih =>
    cases queue with
    | nil => exact (append_nil _).symm
    | cons id queue =>
      rw [walk, drain]
      by_cases old : id ∈ seen
      · rw [if_pos old, if_pos old]
        exact ih ..
      · rw [if_neg old, if_neg old, ih, flatMap_cons, append_assoc]

theorem coverRemoved_eq {keys : List ResourceId} (distinct : keys.Nodup) (result : List (MerkleDiffEntry V) × Nat) :
    (keys.foldl (coverRemoved t) result).1 =
      result.1 ++ (keys.filter fun r => (t.get r).isNone && !(result.1.any fun e => e.id = r)).map removedEntry := by
  induction keys generalizing result with
  | nil => exact (append_nil _).symm
  | cons k keys ih =>
    obtain ⟨fresh, distinct⟩ := nodup_cons.mp distinct
    rw [foldl_cons, ih distinct, filter_cons]
    cases present : t.get k with
    | some n =>
      have kept : coverRemoved t result k = result := by
        rw [coverRemoved, present]
        rfl
      rw [kept]
      rfl
    | none =>
      cases told : result.1.any fun e => decide (e.id = k) with
      | true =>
        have kept : coverRemoved t result k = result := by
          rw [coverRemoved, present, told]
          rfl
        rw [kept]
        rfl
      | false =>
        have done : coverRemoved t result k = (result.1 ++ [removedEntry k], result.2 + 1) := by
          rw [coverRemoved, present, told]
          rfl
        have later : keys.filter
          (fun r => (t.get r).isNone && !((result.1 ++ [removedEntry k]).any fun e => e.id = r)) =
            keys.filter fun r => (t.get r).isNone && !(result.1.any fun e => e.id = r) := by
          apply filter_congr
          intro r listed
          have differ : k ≠ r := fun same => fresh (same ▸ listed)
          simp [removedEntry, differ]
        rw [done, later, append_assoc]
        rfl

/-! ### Two trees -/

def CollisionFree (o : Outside V) (t other : ResourceTree V) : Prop :=
  ∀ e ∈ t.nodes, ∀ f ∈ other.nodes,
    o.shake256 (hashInput o t e.2) = o.shake256 (hashInput o other f.2) →
      hashInput o t e.2 = hashInput o other f.2

def SameBytes (o : Outside V) (t other : ResourceTree V) (y : ResourceId) : Prop :=
  ∃ l r, t.get y = some l ∧ other.get y = some r ∧ hashInput o t l = hashInput o other r

structure Comparable (o : Outside V) (t other : ResourceTree V) : Prop where
  wf : Wf t
  wfOther : Wf other
  placed : Placed t
  placedOther : Placed other
  current : HashesCurrent o t
  currentOther : HashesCurrent o other
  free : CollisionFree o t other

def Agree (t other : ResourceTree V) (x : ResourceId) : Prop :=
  ∃ l r, t.get x = some l ∧ other.get x = some r ∧ l.merkleHash = r.merkleHash

def Hidden (t other : ResourceTree V) (x : ResourceId) : Prop :=
  ∃ y, Agree t other y ∧ Under t.parentOf y x

section
variable {o : Outside V} {t other : ResourceTree V} {x y p : ResourceId} {l r : ResourceNode V}

namespace Comparable
variable (pair : Comparable o t other)
include pair

theorem sameBytes_iff : SameBytes o t other y ↔ Agree t other y := by
  constructor
  · rintro ⟨l, r, found, there, bytes⟩
    refine ⟨l, r, found, there, ?_⟩
    rw [pair.current y l found, pair.currentOther y r there, bytes]
  · rintro ⟨l, r, found, there, hash⟩
    refine ⟨l, r, found, there, pair.free _ (Table.mem_of_lookup found) _ (Table.mem_of_lookup there) ?_⟩
    rw [← pair.current y l found, ← pair.currentOther y r there, hash]

theorem agree_root_iff : Agree t other .root ↔ t.rootHash = other.rootHash := by
  obtain ⟨a, root, -⟩ := pair.wf.rooted
  obtain ⟨b, rootThere, -⟩ := pair.wfOther.rooted
  rw [rootHash_eq root, rootHash_eq rootThere]
  refine ⟨?_, fun equal => ⟨a, b, root, rootThere, equal⟩⟩
  rintro ⟨l, r, found, there, hash⟩
  rw [root] at found
  rw [rootThere] at there
  cases found
  cases there
  exact hash

theorem common_above (under : Under t.parentOf y x) (there : (other.get x).isSome = true) :
    (other.get y).isSome = true := by
  induction under with
  | self => exact there
  | @up x z link _ ih =>
    apply ih
    have sameLink : other.parentOf x = some z := by
      rw [parentOf_placed pair.placedOther there, ← parentOf_placed pair.placed (present_of_parentOf link), link]
    exact pair.wfOther.parent_present sameLink

theorem ne_root (absent : other.get x = none) : x ≠ .root := by
  rintro rfl
  obtain ⟨b, root, -⟩ := pair.wfOther.rooted
  rw [root] at absent
  cases absent

theorem topmost_only (found : (t.get x).isSome = true) (absent : other.get x = none) :
    ∃ y p, Under t.parentOf y x ∧ (t.get y).isSome = true ∧ other.get y = none ∧ t.parentOf y = some p ∧
      (other.get p).isSome = true := by
  revert absent
  refine down_induction pair.wf (fun absent => absurd rfl (pair.ne_root absent))
    (fun {x p} link _ ih absent => ?_) found
  cases there : other.get p with
  | some r => exact ⟨x, p, .self, present_of_parentOf link, absent, link, Option.isSome_of_eq_some there⟩
  | none =>
    obtain ⟨y, q, under, rest⟩ := ih there
    exact ⟨y, q, .up link under, rest⟩

theorem topmost_unique (under : Under t.parentOf y z) (absent : other.get y = none)
    (link : t.parentOf z = some q) (there : (other.get q).isSome = true) : y = z := by
  by_contra differ
  obtain ⟨w, above, higher⟩ := under.strict differ
  rw [link] at above
  cases above
  exact absurd absent (Option.isSome_iff_ne_none.mp (pair.common_above higher there))

end Comparable

end

section
variable [BEq V] {o : Outside V} {t other : ResourceTree V} {x y p : ResourceId} {l r : ResourceNode V}

def expected (t other : ResourceTree V) (id : ResourceId) : List MerkleDiffKind :=
  match t.get id, other.get id with
  | some lnode, some rnode => if contentDiff lnode rnode then [.modified] else []
  | some _, none => [.added]
  | none, some _ => [.removed]
  | none, none => []

/-- A path at which both trees hash the same bytes speaks for the local subtree there, and the
root for all of the other tree. -/
def Telling (o : Outside V) (t other : ResourceTree V) : Prop :=
  ∀ y, SameBytes o t other y →
    (∀ x l, Under t.parentOf y x → t.get x = some l → ∃ r, other.get x = some r ∧ contentDiff l r = false) ∧
      (y = .root → ∀ x, (other.get x).isSome = true → (t.get x).isSome = true)

namespace Comparable
variable (pair : Comparable o t other)
include pair

theorem expected_of_roots (telling : Telling o t other) (equal : t.rootHash = other.rootHash) (id : ResourceId) :
    expected t other id = [] := by
  obtain ⟨mine, theirs⟩ := telling .root (pair.sameBytes_iff.mpr (pair.agree_root_iff.mpr equal))
  cases found : t.get id with
  | some l =>
    have under := under_root pair.wf (Option.isSome_of_eq_some found)
    obtain ⟨r, there, same⟩ := mine id l under found
    rw [expected, found, there]
    dsimp only
    rw [same]
    rfl
  | none =>
    cases there : other.get id with
    | some r =>
      have here := theirs rfl id (Option.isSome_of_eq_some there)
      rw [found] at here
      exact absurd here nofun
    | none => rw [expected, found, there]

end Comparable

/-! ### What is said at one path -/

omit [BEq V] in
theorem lookup_hashMap (x : ResourceId) :
    (hashMap t).lookup x = (t.get x).map merkleHash := Table.lookup_mapValues t.nodes _ x

theorem visit_agree (agree : Agree t other y) : visit t (hashMap other) (some other) y = ⟨[], [], 0⟩ := by
  obtain ⟨l, r, found, there, hash⟩ := agree
  rw [visit, found, lookup_hashMap, there]
  exact if_pos hash

theorem visit_differ (found : t.get y = some l) (there : other.get y = some r) (differ : l.merkleHash ≠ r.merkleHash) :
    visit t (hashMap other) (some other) y =
      ⟨if contentDiff l r then [⟨y, .modified, some (.fromNode l), siblingWitnessesFor t y⟩] else [],
        (l.children ++ r.children).dedup, 0⟩ := by
  rw [visit, found, lookup_hashMap, there]
  dsimp only [Option.map_some, Option.bind_some]
  rw [if_neg differ, there]
  rfl

theorem visit_only (found : t.get y = some l) (absent : other.get y = none) :
    visit t (hashMap other) (some other) y = ⟨(collectSubtreeAdded t (t.nodes.length + 1) [y]).1, [],
      (collectSubtreeAdded t (t.nodes.length + 1) [y]).2⟩ := by
  rw [visit, found, lookup_hashMap, absent]
  rfl

theorem visit_gone (absent : t.get y = none) (there : other.get y = some r) :
    visit t (hashMap other) (some other) y = ⟨[removedEntry y], r.children, 0⟩ := by
  rw [visit, absent, lookup_hashMap, there]
  dsimp only [Option.map_some, Option.bind_some]
  rw [there]
  rfl

theorem visit_nowhere (absent : t.get y = none) (absent' : other.get y = none) :
    visit t (hashMap other) (some other) y = ⟨[], [], 0⟩ := by
  rw [visit, absent, lookup_hashMap, absent']
  rfl

def saidAt (t other : ResourceTree V) (x y : ResourceId) : List MerkleDiffKind :=
  kindsAt x (visit t (hashMap other) (some other) y).emitted

theorem saidAt_common (found : t.get y = some l) (there : other.get y = some r) (other_ : y ≠ x) :
    saidAt t other x y = [] := by
  rw [saidAt]
  by_cases hash : l.merkleHash = r.merkleHash
  · rw [visit_agree ⟨l, r, found, there, hash⟩, kindsAt_nil]
  · rw [visit_differ found there hash]
    split
    · rw [kindsAt_singleton, if_neg other_]
    · rfl

theorem saidAt_gone (absent : t.get y = none) (there : other.get y = some r) :
    saidAt t other x y = if y = x then [.removed] else [] := by
  rw [saidAt, visit_gone absent there, kindsAt_singleton]
  rfl

theorem saidAt_only (wf : Wf t) (found : t.get y = some l) (absent : other.get y = none) :
    saidAt t other x y = if x ∈ subtree t y then [.added] else [] := by
  have present : (t.get y).isSome = true := Option.isSome_of_eq_some found
  have one (z : ResourceId) (met : z ∈ subtree t y) :
      kindsAt x ((t.get z).map (addedEntry t z)).toList = if z = x then [.added] else [] := by
    have here := present_of_mem_keys wf (subtree_subset wf present met)
    obtain ⟨n, got⟩ := Option.isSome_iff_exists.mp here
    rw [got, Option.map_some, Option.toList_some, kindsAt_singleton]
    rfl
  rw [saidAt, visit_only found absent, collect_eq, filterMap_eq_flatMap_toList, kindsAt_flatMap, ← subtree]
  by_cases met : x ∈ subtree t y
  · rw [if_pos met, flatMap_only (subtree_nodup wf y) met fun z listed differ => ?_]
    · rw [one x met, if_pos rfl]
    · rw [one z listed, if_neg differ]
  · rw [if_neg met, flatMap_eq_nil_iff]
    intro z listed
    rw [one z listed, if_neg]
    rintro rfl
    exact met listed

/-- Nothing is said of `x` at another common or remote path, nor at a local one it is not below. -/
theorem saidAt_eq_nil (wf : Wf t) (apart : (other.get y).isSome = true ∨ t.get y = none → y ≠ x)
    (above : ∀ l, t.get y = some l → other.get y = none → x ∉ subtree t y) : saidAt t other x y = [] := by
  cases found : t.get y with
  | some l =>
    cases there : other.get y with
    | some r => exact saidAt_common found there (apart (.inl (by rw [there]; rfl)))
    | none => rw [saidAt_only wf found there, if_neg (above l found there)]
  | none =>
    cases there : other.get y with
    | some r => rw [saidAt_gone found there, if_neg (apart (.inr found))]
    | none => rw [saidAt, visit_nowhere found there, kindsAt_nil]

/-! ### What the walk handles -/

section
variable (t other : ResourceTree V)

def pushedAt (x : ResourceId) : List ResourceId :=
  (visit t (hashMap other) (some other) x).pushed

def allPaths : List ResourceId := t.nodes.map (·.1) ++ (hashMap other).map (·.1)

def handled : List ResourceId :=
  drain (pushedAt t other) (2 + pushes (pushedAt t other) (allPaths t other)) [.root] []

end

theorem handled_nodup (t other : ResourceTree V) : (handled t other).Nodup := drain_nodup.1

theorem mem_pushedAt (pushed : x ∈ pushedAt t other y) :
    (other.get y).isSome = true ∧ (x ∈ childrenOf t y ∨ x ∈ childrenOf other y) := by
  rw [pushedAt] at pushed
  cases found : t.get y with
  | none =>
    cases there : other.get y with
    | none =>
      rw [visit_nowhere found there] at pushed
      exact absurd pushed not_mem_nil
    | some r =>
      rw [visit_gone found there] at pushed
      refine ⟨rfl, .inr ?_⟩
      rw [childrenOf, there]
      exact pushed
  | some l =>
    cases there : other.get y with
    | none =>
      rw [visit_only found there] at pushed
      exact absurd pushed not_mem_nil
    | some r =>
      by_cases hash : l.merkleHash = r.merkleHash
      · rw [visit_agree ⟨l, r, found, there, hash⟩] at pushed
        exact absurd pushed not_mem_nil
      · rw [visit_differ found there hash] at pushed
        refine ⟨rfl, ?_⟩
        rw [childrenOf, childrenOf, found, there]
        exact mem_append.mp (mem_dedup.mp pushed)

namespace Comparable
variable (pair : Comparable o t other)
include pair

theorem handled_known : ∀ y ∈ handled t other, ((t.get y).isSome = true ∨ (other.get y).isSome = true) ∧
    (other.get y = none → ∀ p, t.parentOf y = some p → (other.get p).isSome = true) := by
  apply drain_all
  · intro y top
    obtain ⟨b, rootThere, -⟩ := pair.wfOther.rooted
    rw [mem_singleton.mp top, rootThere]
    exact ⟨.inr rfl, nofun⟩
  · rintro y - x pushed
    obtain ⟨there, child | child⟩ := mem_pushedAt pushed
    · have link := (mem_childrenOf pair.wf).mp child
      refine ⟨.inl (present_of_parentOf link), fun _ p above => ?_⟩
      rw [link] at above
      cases above
      exact there
    · have here := present_of_parentOf ((mem_childrenOf pair.wfOther).mp child)
      refine ⟨.inr here, fun absent => ?_⟩
      rw [absent] at here
      exact absurd here nofun

/-- The walk does not get below a path whose hashes agree. -/
theorem handled_above : ∀ x ∈ handled t other, (t.get x).isSome = true →
    ∀ y, Under t.parentOf y x → y ≠ x → ¬ Agree t other y := by
  apply drain_all
  · intro x top _ y under differ
    rw [mem_singleton.mp top] at under differ
    obtain ⟨z, link, -⟩ := under.strict differ
    obtain ⟨a, root, orphan⟩ := pair.wf.rooted
    rw [parentOf_of_get root, orphan] at link
    exact absurd link nofun
  · intro z above x pushed present y under differ
    have disagree : ¬ Agree t other z := by
      intro agree
      rw [pushedAt, visit_agree agree] at pushed
      exact absurd pushed not_mem_nil
    have link : t.parentOf x = some z := by
      obtain child | child := (mem_pushedAt pushed).2
      · exact (mem_childrenOf pair.wf).mp child
      · have linkThere := (mem_childrenOf pair.wfOther).mp child
        rw [parentOf_placed pair.placed present, ← linkThere,
          parentOf_placed pair.placedOther (present_of_parentOf linkThere)]
    obtain ⟨w, linkToo, higher⟩ := under.strict differ
    rw [link] at linkToo
    cases linkToo
    by_cases top : y = z
    · rwa [top]
    · exact above (pair.wf.parent_present link) y higher top

theorem handled_closed : .root ∈ handled t other ∧
    ∀ y ∈ handled t other, ∀ x ∈ pushedAt t other y, x ∈ handled t other := by
  have known : handled t other ⊆ allPaths t other := by
    intro y met
    obtain here | there := (pair.handled_known y met).1
    · exact mem_append_left _ (mem_keys here)
    · apply mem_append_right
      rw [hashMap, map_map]
      exact mem_keys there
  have bound : pushes (pushedAt t other) (handled t other) ≤ pushes (pushedAt t other) (allPaths t other) :=
    pushes_le (handled_nodup t other) known
  have enough : [ResourceId.root].length + pushes (pushedAt t other) (handled t other) <
      2 + pushes (pushedAt t other) (allPaths t other) := by
    rw [length_singleton]
    omega
  obtain ⟨queued, closed⟩ := drain_closed enough
  constructor
  · exact (queued .root mem_cons_self).resolve_right not_mem_nil
  · intro y met x pushed
    exact (closed y met x pushed).resolve_right not_mem_nil

theorem handled_of_above (present : (t.get x).isSome = true)
    (above : ∀ y, Under t.parentOf y x → y ≠ x → (other.get y).isSome = true ∧ ¬ Agree t other y) :
    x ∈ handled t other := by
  obtain ⟨rank, ranked⟩ := pair.wf.ranked
  revert above
  refine down_induction pair.wf (fun _ => pair.handled_closed.1) (fun {x p} link here ih above => ?_) present
  have apart {y : ResourceId} (under : Under t.parentOf y p) : y ≠ x := by
    rintro rfl
    exact not_under_child ranked link under
  obtain ⟨there, disagree⟩ := above p (.up link .self) (apart .self)
  obtain ⟨l, found⟩ := Option.isSome_iff_exists.mp here
  obtain ⟨r, thereParent⟩ := Option.isSome_iff_exists.mp there
  refine pair.handled_closed.2 p (ih fun y under _ => above y (.up link under) (apart under)) x ?_
  rw [pushedAt, visit_differ found thereParent fun hash => disagree ⟨l, r, found, thereParent, hash⟩]
  exact mem_dedup.mpr (mem_append_left _ ((pair.wf.listed found x).mpr link))

end Comparable

/-! ### The whole difference -/

def said (t other : ResourceTree V) (x : ResourceId) : List MerkleDiffKind :=
  (handled t other).flatMap (saidAt t other x)

omit [BEq V] in
theorem remoteRoot_eq (wfOther : Wf other) :
    (hashMap other).lookup .root = some other.rootHash := by
  obtain ⟨b, root, -⟩ := wfOther.rooted
  rw [lookup_hashMap, root, rootHash_eq root]
  rfl

theorem merkleDiff_of_roots (wfOther : Wf other) (equal : t.rootHash = other.rootHash) :
    (merkleDiff t other).entries = [] := by
  rw [merkleDiff, merkleDiffAgainstHashes, remoteRoot_eq wfOther]
  dsimp only [Option.getD_some]
  have met : (decide (t.rootHash = other.rootHash) && (some other.rootHash).isSome) = true := by
    rw [equal, decide_eq_true rfl]
    rfl
  rw [if_pos met]

theorem kindsAt_merkleDiff (wfOther : Wf other) (differ : t.rootHash ≠ other.rootHash) (x : ResourceId) :
    kindsAt x (merkleDiff t other).entries =
      said t other x ++ if (other.get x).isSome ∧ t.get x = none ∧ said t other x = [] then [.removed] else [] := by
  have walks : (merkleDiff t other).entries =
      (((hashMap other).map (·.1)).foldl (coverRemoved t)
        (walk (visit t (hashMap other) (some other)) (2 + pushes (pushedAt t other) (allPaths t other))
          [.root] [] [] 0)).1 := by
    rw [merkleDiff, merkleDiffAgainstHashes, remoteRoot_eq wfOther]
    dsimp only [Option.getD_some]
    rw [if_neg fun both => differ (of_decide_eq_true (Bool.and_eq_true_iff.mp both).1)]
    rfl
  have keys : (hashMap other).map (·.1) = other.nodes.map (·.1) := by
    rw [hashMap, map_map]
    rfl
  have walked : kindsAt x (walk (visit t (hashMap other) (some other))
      (2 + pushes (pushedAt t other) (allPaths t other)) [.root] [] [] 0).1 = said t other x := by
    rw [walk_eq, nil_append, kindsAt_flatMap]
    rfl
  rw [walks, keys, coverRemoved_eq t wfOther.distinct, kindsAt_append, walked]
  rw [kindsAt_removed (wfOther.distinct.filter _)]
  congr 1
  have passed : (x ∈ (other.nodes.map (·.1)).filter fun r => (t.get r).isNone && !(any
      (walk (visit t (hashMap other) (some other)) (2 + pushes (pushedAt t other) (allPaths t other))
        [.root] [] [] 0).1 fun e => e.id = r)) ↔
      (other.get x).isSome = true ∧ t.get x = none ∧ said t other x = [] := by
    rw [mem_filter, Bool.and_eq_true_iff, Option.isNone_iff_eq_none, Bool.not_eq_true', ← kindsAt_eq_nil, walked]
    exact and_congr_left' ⟨present_of_mem_keys wfOther, mem_keys⟩
  rw [if_congr passed rfl rfl]

namespace Comparable
variable (pair : Comparable o t other)
include pair

theorem said_hidden (found : (t.get x).isSome = true) (hidden : Hidden t other x) : said t other x = [] := by
  obtain ⟨y, agree, under⟩ := hidden
  have common : (other.get y).isSome = true := by
    obtain ⟨-, r, -, there, -⟩ := agree
    exact Option.isSome_of_eq_some there
  rw [said, flatMap_eq_nil_iff]
  intro z met
  by_cases self : z = x ∧ y = x
  · obtain ⟨rfl, rfl⟩ := self
    rw [saidAt, visit_agree agree, kindsAt_nil]
  apply saidAt_eq_nil pair.wf
  · rintro - rfl
    exact pair.handled_above z met found y under (fun same => self ⟨rfl, same⟩) agree
  · intro l foundZ away below
    -- `y` is common and `z` is not, so `y` lies above `z`
    obtain higher | lower := under.total (under_of_mem_subtree pair.wf below)
    · refine pair.handled_above z met (Option.isSome_of_eq_some foundZ) y higher ?_ agree
      rintro rfl
      exact absurd away (Option.isSome_iff_ne_none.mp common)
    · exact absurd away (Option.isSome_iff_ne_none.mp (pair.common_above lower common))

theorem said_common (found : t.get x = some l) (there : other.get x = some r) (shown : ¬ Hidden t other x) :
    said t other x = if contentDiff l r then [.modified] else [] := by
  have met : x ∈ handled t other := by
    apply pair.handled_of_above (Option.isSome_of_eq_some found)
    intro y under _
    refine ⟨pair.common_above under (Option.isSome_of_eq_some there), fun agree => ?_⟩
    exact shown ⟨y, agree, under⟩
  have others : ∀ y ∈ handled t other, y ≠ x → saidAt t other x y = [] := by
    intro y met differ
    apply saidAt_eq_nil pair.wf fun _ => differ
    intro ly foundY thereY below
    have common := pair.common_above (under_of_mem_subtree pair.wf below) (Option.isSome_of_eq_some there)
    exact absurd thereY (Option.isSome_iff_ne_none.mp common)
  rw [said, flatMap_only (handled_nodup t other) met others, saidAt,
    visit_differ found there fun hash => shown ⟨x, ⟨l, r, found, there, hash⟩, .self⟩]
  split
  · rw [kindsAt_singleton, if_pos rfl]
  · rfl

theorem said_only (found : t.get x = some l) (absent : other.get x = none) (shown : ¬ Hidden t other x) :
    said t other x = [.added] := by
  obtain ⟨y, p, under, here, away, link, there⟩ := pair.topmost_only (Option.isSome_of_eq_some found) absent
  obtain ⟨ly, foundY⟩ := Option.isSome_iff_exists.mp here
  have met : y ∈ handled t other := by
    apply pair.handled_of_above here
    intro z higher differ
    obtain ⟨w, above, upper⟩ := higher.strict differ
    rw [link] at above
    cases above
    exact ⟨pair.common_above upper there, fun agree => shown ⟨z, agree, higher.trans under⟩⟩
  have others : ∀ z ∈ handled t other, z ≠ y → saidAt t other x z = [] := by
    intro z metZ differ
    apply saidAt_eq_nil pair.wf
    · rintro common rfl
      simp [found, absent] at common
    · intro lz foundZ thereZ below
      -- both tops lie above `x`, so one lies above the other
      obtain first | second := (under_of_mem_subtree pair.wf below).total under
      · exact differ (pair.topmost_unique first thereZ link there)
      · obtain ⟨q, parent, -⟩ := pair.wf.hung foundZ (pair.ne_root thereZ)
        have linkZ : t.parentOf z = some q := (parentOf_of_get foundZ).trans parent
        exact differ (pair.topmost_unique second away linkZ ((pair.handled_known z metZ).2 thereZ q linkZ)).symm
  rw [said, flatMap_only (handled_nodup t other) met others, saidAt_only pair.wf foundY away,
    if_pos ((mem_subtree pair.wf here).mpr under)]

theorem said_absent (absent : t.get x = none) :
    said t other x = [] ∨ said t other x = [.removed] ∧ (other.get x).isSome = true := by
  have one (y : ResourceId) (differ : y ≠ x) : saidAt t other x y = [] := by
    apply saidAt_eq_nil pair.wf fun _ => differ
    intro ly foundY thereY below
    have here : (t.get y).isSome = true := Option.isSome_of_eq_some foundY
    have present := present_of_mem_keys pair.wf (subtree_subset pair.wf here below)
    exact absurd absent (Option.isSome_iff_ne_none.mp present)
  by_cases met : x ∈ handled t other
  · have only : said t other x = saidAt t other x x :=
      flatMap_only (handled_nodup t other) met fun y _ differ => one y differ
    cases there : other.get x with
    | some r =>
      refine .inr ⟨?_, rfl⟩
      rw [only, saidAt_gone absent there, if_pos rfl]
    | none =>
      refine .inl ?_
      rw [only, saidAt, visit_nowhere absent there, kindsAt_nil]
  · refine .inl (flatMap_eq_nil_iff.mpr fun y metY => one y ?_)
    rintro rfl
    exact met metY

theorem kinds_local (roots : t.rootHash ≠ other.rootHash) (found : t.get x = some l) :
    kindsAt x (merkleDiff t other).entries = said t other x := by
  rw [kindsAt_merkleDiff pair.wfOther roots, found, if_neg fun only => absurd only.2.1 nofun, append_nil]

theorem kinds_expected (telling : Telling o t other) (x : ResourceId) :
    kindsAt x (merkleDiff t other).entries = expected t other x := by
  by_cases roots : t.rootHash = other.rootHash
  · rw [pair.expected_of_roots telling roots, merkleDiff_of_roots pair.wfOther roots, kindsAt_nil]
  cases found : t.get x with
  | some l =>
    rw [pair.kinds_local roots found, expected, found]
    have seen (hidden : Hidden t other x) : ∃ r, other.get x = some r ∧ contentDiff l r = false := by
      obtain ⟨y, agree, under⟩ := hidden
      exact (telling y (pair.sameBytes_iff.mpr agree)).1 x l under found
    by_cases hidden : Hidden t other x
    · obtain ⟨r, there, same⟩ := seen hidden
      rw [pair.said_hidden (Option.isSome_of_eq_some found) hidden, there]
      dsimp only
      rw [same]
      rfl
    · cases there : other.get x with
      | some r => exact pair.said_common found there hidden
      | none => exact pair.said_only found there hidden
  | none =>
    rw [kindsAt_merkleDiff pair.wfOther roots, expected, found]
    cases there : other.get x with
    | some r =>
      obtain silent | ⟨told, -⟩ := pair.said_absent found
      · rw [silent, if_pos ⟨rfl, rfl, rfl⟩]
        rfl
      · rw [told, if_neg fun only => absurd only.2.2 nofun]
        rfl
    | none =>
      obtain silent | ⟨-, present⟩ := pair.said_absent found
      · rw [silent, if_neg fun only => absurd only.1 nofun]
        rfl
      · rw [there] at present
        exact absurd present nofun

omit pair in
theorem seen_of_expected (found : t.get x = some l) (nothing : expected t other x = []) :
    ∃ r, other.get x = some r ∧ contentDiff l r = false := by
  rw [expected, found] at nothing
  cases there : other.get x with
  | some r =>
    refine ⟨r, rfl, ?_⟩
    rw [there] at nothing
    by_contra content
    dsimp only at nothing
    rw [if_pos (Bool.eq_true_of_not_eq_false content)] at nothing
    cases nothing
  | none =>
    rw [there] at nothing
    cases nothing

theorem telling_of_expected (exactly : ∀ id, kindsAt id (merkleDiff t other).entries = expected t other id) :
    Telling o t other := by
  intro y bytes
  have agree := pair.sameBytes_iff.mp bytes
  by_cases roots : t.rootHash = other.rootHash
  · have nothing (id : ResourceId) : expected t other id = [] := by
      rw [← exactly, merkleDiff_of_roots pair.wfOther roots, kindsAt_nil]
    refine ⟨fun x l _ found => seen_of_expected found (nothing x), fun _ x there => ?_⟩
    obtain ⟨r, gotThere⟩ := Option.isSome_iff_exists.mp there
    by_contra away
    have missing := nothing x
    rw [expected, Option.not_isSome_iff_eq_none.mp away, gotThere] at missing
    cases missing
  · constructor
    · intro x l under found
      apply seen_of_expected found
      rw [← exactly, pair.kinds_local roots found]
      exact pair.said_hidden (Option.isSome_of_eq_some found) ⟨y, agree, under⟩
    · rintro rfl
      exact absurd (pair.agree_root_iff.mp agree) roots

end Comparable

end

/-! ### Exactness -/

variable (o : Outside V)

section
variable [BEq V]

def BuiltPlaced (o : Outside V) (t : ResourceTree V) : Prop :=
  ∃ acts, t = run (step o) .new acts ∧ ∀ act ∈ acts, UnderNamed act

/-- The difference of two trees with current hashes has exactly the entries it should have if and
only if equal bytes speak for what lies below them, and then equal root hashes mean equal trees. -/
theorem merkleDiff_exact (o : Outside V) (t other : ResourceTree V) (built : BuiltPlaced o t)
    (builtOther : BuiltPlaced o other) (current : HashesCurrent o t) (currentOther : HashesCurrent o other)
    (free : CollisionFree o t other) :
    ((∀ id, kindsAt id (merkleDiff t other).entries = expected t other id) ↔ Telling o t other) ∧
      (Telling o t other → t.rootHash = other.rootHash → ∀ id, expected t other id = []) := by
  obtain ⟨acts, rfl, under⟩ := built
  obtain ⟨actsOther, rfl, underOther⟩ := builtOther
  have pair : Comparable o (run (step o) .new acts) (run (step o) .new actsOther) :=
    ⟨Built.wf ⟨acts, rfl⟩, Built.wf ⟨actsOther, rfl⟩, placed_run under, placed_run underOther, current, currentOther,
      free⟩
  exact ⟨⟨pair.telling_of_expected, pair.kinds_expected⟩, pair.expected_of_roots⟩

def withLeaf (o : Outside V) (path : String) : ResourceTree V :=
  run (step o) .new [.insert ⟨path⟩ .service .root, .recomputeAll]

omit [BEq V] in
theorem withLeaf_built (under : ResourceId.parent ⟨path⟩ = some .root) :
    BuiltPlaced o (withLeaf o path) ∧ HashesCurrent o (withLeaf o path) := by
  refine ⟨⟨_, rfl, fun act listed => ?_⟩, (recomputeAll_current (wf_new.step (.insert ⟨path⟩ .service .root))).hashes⟩
  cases listed with
  | head => exact under
  | tail _ later =>
    cases later with
    | head => exact trivial
    | tail _ none_ => exact absurd none_ not_mem_nil

def planted (leaf : ResourceId) : ResourceTree V :=
  ⟨[(.root, { new .root .namespace_ none with children := [leaf] }),
    (leaf, .new leaf .service (some .root))]⟩

omit [BEq V] in
theorem planted_rootHash (apart : leaf ≠ .root) : (((planted leaf).settle o leaf).settle o .root).rootHash =
      o.shake256 (partsBytes
        [o.shake256 (partsBytes [] NodeScoring.default.toHashBytes [])]
        (o.aggregate [.default]).toHashBytes []) := by
  have top : (planted leaf : ResourceTree V).get .root =
      some { new .root .namespace_ none with children := [leaf] } := lookup_cons_self
  have other : (planted leaf : ResourceTree V).get leaf = some (.new leaf .service (some .root)) := by
    have differ : (leaf == ResourceId.root) = false := beq_eq_false_iff_ne.mpr apart
    rw [planted, ResourceTree.get, lookup_cons, differ]
    exact lookup_cons_self
  have leafSettled : ((planted leaf).settle o leaf).get leaf =
      some (settled o (planted leaf) (.new leaf .service (some .root))) := by
    rw [get_settle, if_pos rfl, other, Option.map_some]
  have topKept : ((planted leaf).settle o leaf).get .root =
      some { new .root .namespace_ none with children := [leaf] } := by
    rw [get_settle, if_neg (Ne.symm apart), top]
  have topSettled : (((planted leaf).settle o leaf).settle o .root).get .root =
      some (settled o ((planted leaf).settle o leaf)
        { new .root .namespace_ none with children := [leaf] }) := by
    rw [get_settle, if_pos rfl, topKept, Option.map_some]
  rw [rootHash_eq topSettled]
  simp only [settled, settledScoring, childScorings, childHashes, filterMap_cons, leafSettled]
  rfl

omit [BEq V] in
theorem withLeaf_rootHash : (withLeaf o "/a").rootHash = (withLeaf o "/b").rootHash := by
  have first : withLeaf o "/a" = ((planted ⟨"/a"⟩).settle o ⟨"/a"⟩).settle o .root := rfl
  have second : withLeaf o "/b" = ((planted ⟨"/b"⟩).settle o ⟨"/b"⟩).settle o .root := rfl
  rw [first, second, planted_rootHash o (by decide), planted_rootHash o (by decide)]

end

/-- Trees with different paths have one root hash, whatever the hash is, and no difference is found. -/
theorem unseen_difference :
    (BuiltPlaced sample (withLeaf sample "/a") ∧ HashesCurrent sample (withLeaf sample "/a")) ∧
      (BuiltPlaced sample (withLeaf sample "/b") ∧ HashesCurrent sample (withLeaf sample "/b")) ∧
      (withLeaf sample "/a").rootHash = (withLeaf sample "/b").rootHash ∧
      (merkleDiff (withLeaf sample "/a") (withLeaf sample "/b")).entries = [] ∧
      expected (withLeaf sample "/a") (withLeaf sample "/b") ⟨"/a"⟩ = [.added] ∧
      expected (withLeaf sample "/a") (withLeaf sample "/b") ⟨"/b"⟩ = [.removed] := by
  have first := @withLeaf_built Unit sample "/a" (by decide +kernel)
  have second := @withLeaf_built Unit sample "/b" (by decide +kernel)
  obtain ⟨acts, made, -⟩ := second.1
  have wf : Wf (withLeaf sample "/b") := Built.wf ⟨acts, made⟩
  refine ⟨first, second, withLeaf_rootHash sample, merkleDiff_of_roots wf (withLeaf_rootHash sample), ?_, ?_⟩
  · decide +kernel
  · decide +kernel

def labelled : ResourceTree Unit := run (step sample) .new [.setMeta .root "zone" (), .recomputeAll]

theorem labelled_built : BuiltPlaced sample labelled ∧ HashesCurrent sample labelled := by
  refine ⟨⟨_, rfl, ?_⟩, (recomputeAll_current (wf_new.step (.setMeta .root "zone" ()))).hashes⟩
  intro act listed
  cases listed with
  | head => exact trivial
  | tail _ later =>
    cases later with
    | head => exact trivial
    | tail _ none_ => exact absurd none_ not_mem_nil

theorem labelled_telling : Telling sample (withLeaf sample "/a") labelled := by
  rintro y ⟨l, r, found, there, bytes⟩
  have rootOnly : labelled.nodes.map (·.1) = [.root] := by decide +kernel
  have top : y = .root := by
    have listed : y ∈ labelled.nodes.map (·.1) := mem_keys (Option.isSome_of_eq_some there)
    rw [rootOnly] at listed
    exact mem_singleton.mp listed
  subst top
  have differ : ∀ e ∈ (withLeaf sample "/a").nodes, ∀ f ∈ labelled.nodes, e.1 = .root →
      hashInput sample (withLeaf sample "/a") e.2 ≠ hashInput sample labelled f.2 := by decide +kernel
  exact absurd bytes (differ _ (Table.mem_of_lookup found) _ (Table.mem_of_lookup there) rfl)

theorem merkleDiff_exact_labelled :
    kindsAt ⟨"/a"⟩ (merkleDiff (withLeaf sample "/a") labelled).entries = [.added] ∧
      kindsAt .root (merkleDiff (withLeaf sample "/a") labelled).entries = [.modified] := by
  have first := @withLeaf_built Unit sample "/a" (by decide +kernel)
  have exact_ := (merkleDiff_exact sample (withLeaf sample "/a") labelled first.1 labelled_built.1 first.2
    labelled_built.2 (by unfold CollisionFree; decide +kernel)).1.mpr labelled_telling
  constructor
  · rw [exact_]
    decide +kernel
  · rw [exact_]
    decide +kernel

end Weftos.Resource.Diff
