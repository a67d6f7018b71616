import Weftos.Resource.Shape

/-! A full recomputation leaves every hash and every aggregate of a tree current. -/

namespace Weftos.Resource.Current
open Lib Lib.Forest Resource.Path Resource.Tree Shape List ResourceTree

variable {V : Type} {t t' : ResourceTree V} {id : ResourceId} {n : ResourceNode V} {from_ : Option ResourceId}

/-! ### Depth -/

theorem climb_stable {fuel : Nat} (ended : (t.climb fuel from_).length < fuel) :
    t.climb (fuel + 1) from_ = t.climb fuel from_ := by
  induction fuel generalizing from_ with
  | zero => exact absurd ended (Nat.not_lt_zero _)
  | succ fuel ih =>
    cases from_ with
    | none => rfl
    | some pid =>
      rw [climb, climb, ih (Nat.lt_of_succ_lt_succ ended)]

section
variable {rank : ResourceId → Nat} {fuel : Nat} {x y : ResourceId} (wf : Wf t)
include wf

section
variable (ranked : Ranked t.parentOf rank)
include ranked

theorem climb_above (met : y ∈ t.climb fuel (t.parentOf x)) : (t.get y).isSome = true ∧ rank y < rank x := by
  induction fuel generalizing x with
  | zero => exact absurd met not_mem_nil
  | succ fuel ih =>
    cases above : t.parentOf x with
    | none =>
      rw [above] at met
      exact absurd met not_mem_nil
    | some p =>
      rw [above] at met
      have up := ranked above
      cases met with
      | head => exact ⟨wf.parent_present above, up⟩
      | tail _ later => exact ⟨(ih later).1, (ih later).2.trans up⟩

theorem climb_falls (fuel : Nat) (x : ResourceId) :
    (x :: t.climb fuel (t.parentOf x)).Pairwise fun a b => rank b < rank a := by
  induction fuel generalizing x with
  | zero => exact pairwise_singleton _ x
  | succ fuel ih =>
    refine pairwise_cons.mpr ⟨fun y met => (climb_above wf ranked met).2, ?_⟩
    cases t.parentOf x with
    | none => exact .nil
    | some p => exact ih p

end

theorem path_nodup (fuel : Nat) (x : ResourceId) : (x :: t.climb fuel (t.parentOf x)).Nodup := by
  obtain ⟨rank, ranked⟩ := wf.ranked
  refine List.Pairwise.imp ?_ (climb_falls wf ranked fuel x)
  rintro a b lower rfl
  exact Nat.lt_irrefl _ lower

theorem climb_short (fuel : Nat) (present : (t.get x).isSome = true) :
    (t.climb fuel (t.parentOf x)).length < t.nodes.length := by
  obtain ⟨rank, ranked⟩ := wf.ranked
  have keys : x :: t.climb fuel (t.parentOf x) ⊆ t.nodes.map (·.1) := by
    intro y met
    cases met with
    | head => exact mem_keys present
    | tail _ later => exact mem_keys (climb_above wf ranked later).1
  have bound := (subperm_of_subset (path_nodup wf fuel x) keys).length_le
  rwa [length_map, length_cons] at bound

theorem ancestors_of_parent (link : t.parentOf id = some p) : t.ancestors id = p :: t.ancestors p := by
  have short := climb_short wf t.nodes.length (present_of_parentOf link)
  rw [ancestors, ancestors, link]
  rw [link] at short
  cases size : t.nodes.length with
  | zero =>
    rw [size] at short
    exact absurd short (Nat.not_lt_zero _)
  | succ fuel =>
    rw [size, climb, length_cons] at short
    rw [climb, climb_stable (Nat.lt_of_succ_lt_succ short)]

end

theorem deepestFirst_order (wf : Wf t) :
    t.deepestFirst.Perm (t.nodes.map (·.1)) ∧ t.deepestFirst.Pairwise fun a b => t.parentOf b ≠ some a := by
  constructor
  · rw [deepestFirst]
    have sorted := (perm_insertionSort (fun a b : ResourceId × Nat => b.2 ≤ a.2)
      (t.nodes.map fun entry => (entry.1, (t.ancestors entry.1).length))).map (·.1)
    rw [map_map] at sorted
    exact sorted
  · rw [deepestFirst, pairwise_map]
    have depth : ∀ pair ∈ (t.nodes.map fun entry => (entry.1, (t.ancestors entry.1).length)).insertionSort
        (fun a b : ResourceId × Nat => b.2 ≤ a.2), pair.2 = (t.ancestors pair.1).length := by
      intro pair listed
      obtain ⟨entry, -, rfl⟩ := mem_map.mp ((perm_insertionSort _ _).subset listed)
      rfl
    have : Std.Total fun a b : ResourceId × Nat => b.2 ≤ a.2 := ⟨fun a b => Nat.le_total b.2 a.2⟩
    have : IsTrans (ResourceId × Nat) fun a b => b.2 ≤ a.2 := ⟨fun _ _ _ first second => Nat.le_trans second first⟩
    apply (pairwise_insertionSort (fun a b : ResourceId × Nat => b.2 ≤ a.2) _).imp_of_mem
    intro a b inOrder inOrder' deeper link
    rw [depth a inOrder, depth b inOrder', ancestors_of_parent wf link, length_cons] at deeper
    omega

/-! ### One node -/

section
variable (o : Outside V)

theorem childHashes_congr (children : n'.children = n.children)
    (alike : ∀ c ∈ n.children, (t'.get c).map ResourceNode.merkleHash = (t.get c).map ResourceNode.merkleHash) :
    t'.childHashes n' = t.childHashes n := by
  rw [childHashes, childHashes, children]
  congr 1
  exact filterMap_congr alike

def settledScoring (t : ResourceTree V) (n : ResourceNode V) : NodeScoring :=
  if t.childScorings n = [] then n.scoring else o.aggregate (t.childScorings n)

def settled (t : ResourceTree V) (n : ResourceNode V) : ResourceNode V :=
  { n with
    scoring := settledScoring o t n
    merkleHash := o.shake256 (partsBytes (t.childHashes n) (settledScoring o t n).toHashBytes
      (metaBytes o n.metadata))
    dirty := false }

theorem get_aggregate (t : ResourceTree V) (id x : ResourceId) : (t.aggregateScoringFor o id).get x =
    if x = id then (t.get x).map fun n => { n with scoring := settledScoring o t n } else t.get x := by
  rw [aggregateScoringFor]
  by_cases here : x = id
  · subst here
    rw [if_pos rfl]
    cases found : t.get x with
    | none => exact found
    | some n =>
      dsimp only
      by_cases leaf : t.childScorings n = []
      · rw [if_pos leaf, found, Option.map_some, settledScoring, if_pos leaf]
      · rw [if_neg leaf, get_modify_self, found, Option.map_some, Option.map_some, settledScoring, if_neg leaf]
  · rw [if_neg here]
    cases t.get id with
    | none => rfl
    | some n =>
      dsimp only
      split
      · rfl
      · exact get_modify_of_ne here _

theorem get_recomputeMerkle (t : ResourceTree V) (id x : ResourceId) : (t.recomputeMerkle o id).get x =
    if x = id then (t.get x).map fun n => { n with merkleHash := o.shake256 (hashInput o t n) }
    else t.get x := by
  rw [recomputeMerkle]
  by_cases here : x = id
  · subst here
    rw [if_pos rfl]
    cases found : t.get x with
    | none => exact found
    | some n =>
      rw [get_modify_self, found]
      rfl
  · rw [if_neg here]
    cases t.get id with
    | none => rfl
    | some n => exact get_modify_of_ne here _

theorem get_settle (t : ResourceTree V) (id x : ResourceId) :
    (t.settle o id).get x = if x = id then (t.get x).map (settled o t) else t.get x := by
  rw [settle, clean, get_modify, get_recomputeMerkle, get_aggregate]
  by_cases here : x = id
  · rw [if_pos here, if_pos here, if_pos here, if_pos here, Option.map_map, Option.map_map]
    congr 1
    funext n
    -- the child hashes are read after the aggregation, which does not touch a hash
    have hashes : (t.aggregateScoringFor o id).childHashes { n with scoring := settledScoring o t n } =
        t.childHashes n := by
      apply childHashes_congr rfl
      intro c _
      rw [get_aggregate]
      split
      · rw [Option.map_map]
        rfl
      · rfl
    simp only [Function.comp_apply, settled, hashInput, hashes]
  · rw [if_neg here, if_neg here, if_neg here, if_neg here]

end

/-! ### All nodes -/

/-- The node's hash is that of its contents, an inner node's scoring the aggregate of its
children's, and nothing is marked for recomputation. -/
def CurrentAt (o : Outside V) (t : ResourceTree V) (id : ResourceId) : Prop :=
  ∀ n, t.get id = some n → n.merkleHash = o.shake256 (hashInput o t n) ∧
    (t.childScorings n ≠ [] → n.scoring = o.aggregate (t.childScorings n)) ∧ n.dirty = false

def seen (n : ResourceNode V) : Bytes.Digest × NodeScoring := (n.merkleHash, n.scoring)

section
variable {o : Outside V}

theorem not_child_of_self (wf : Wf t) (found : t.get id = some n) : id ∉ n.children := by
  intro child
  obtain ⟨rank, ranked⟩ := wf.ranked
  exact Nat.lt_irrefl _ (ranked ((wf.listed found id).mp child))

theorem inputs_congr (alike : ∀ c ∈ n.children, (t'.get c).map seen = (t.get c).map seen) :
    t'.childHashes n = t.childHashes n ∧ t'.childScorings n = t.childScorings n := by
  constructor
  · refine childHashes_congr rfl fun c child => ?_
    have hash := congrArg (Option.map Prod.fst) (alike c child)
    rwa [Option.map_map, Option.map_map] at hash
  · refine filterMap_congr fun c child => ?_
    have scoring := congrArg (Option.map Prod.snd) (alike c child)
    rwa [Option.map_map, Option.map_map] at scoring

theorem CurrentAt.congr (wf : Wf t) (current : CurrentAt o t id) (same : t'.get id = t.get id)
    (alike : ∀ c, t.parentOf c = some id → (t'.get c).map seen = (t.get c).map seen) : CurrentAt o t' id := by
  intro n found
  rw [same] at found
  obtain ⟨hashes, scorings⟩ := inputs_congr fun c child => alike c ((wf.listed found c).mp child)
  rw [hashInput, hashes, scorings]
  exact current n found

theorem settle_currentAt (wf : Wf t) : CurrentAt o (t.settle o id) id := by
  intro n found
  rw [get_settle, if_pos rfl] at found
  obtain ⟨old, here, rfl⟩ := Option.map_eq_some_iff.mp found
  have own : id ∉ old.children := not_child_of_self wf here
  have alike (c : ResourceId) (child : c ∈ old.children) : ((t.settle o id).get c).map seen = (t.get c).map seen := by
    rw [get_settle, if_neg]
    rintro rfl
    exact own child
  obtain ⟨hashes, scorings⟩ := @inputs_congr V t (t.settle o id) (settled o t old) alike
  refine ⟨?_, ?_, rfl⟩
  · rw [hashInput, hashes]
    rfl
  · rw [scorings]
    exact fun inner => if_neg inner

theorem get_foldl_settle {items : List ResourceId} (other : id ∉ items) (t : ResourceTree V) :
    (items.foldl (settle o) t).get id = t.get id := by
  induction items generalizing t with
  | nil => rfl
  | cons x items ih =>
    rw [foldl_cons, ih (fun later => other (mem_cons_of_mem _ later)), get_settle, if_neg]
    rintro rfl
    exact other mem_cons_self

theorem CurrentAt.foldl_settle {items : List ResourceId} (wf : Wf t) (current : CurrentAt o t id) (other : id ∉ items)
    (apart : ∀ y ∈ items, t.parentOf y ≠ some id) : CurrentAt o (items.foldl (settle o) t) id := by
  refine current.congr wf (get_foldl_settle other t) fun c link => ?_
  rw [get_foldl_settle fun listed => apart c listed link]

/-- Settling node after node, none before one of its children, leaves all of them current. -/
theorem foldl_settle_current {order : List ResourceId} (wf : Wf t) (distinct : order.Nodup)
    (ordered : order.Pairwise fun a b => t.parentOf b ≠ some a) :
    ∀ x ∈ order, CurrentAt o (order.foldl (settle o) t) x := by
  induction order generalizing t with
  | nil => exact fun _ => nofun
  | cons first rest ih =>
    obtain ⟨fresh, distinct⟩ := nodup_cons.mp distinct
    obtain ⟨notChild, ordered⟩ := pairwise_cons.mp ordered
    have same := settle_sameShape o t first
    have wf' := wf.sameShape same
    rw [foldl_cons]
    intro x listed
    cases listed with
    | head =>
      refine (settle_currentAt wf).foldl_settle wf' fresh fun y later => ?_
      rw [same.parentOf]
      exact notChild y later
    | tail _ later =>
      refine ih wf' distinct (ordered.imp fun {a b} apart => ?_) x later
      rw [same.parentOf]
      exact apart

def HashesCurrent (o : Outside V) (t : ResourceTree V) : Prop :=
  ∀ id n, t.get id = some n → n.merkleHash = o.shake256 (hashInput o t n)

def AllCurrent (o : Outside V) (t : ResourceTree V) : Prop := ∀ id, CurrentAt o t id

theorem recomputeAll_current (wf : Wf t) : AllCurrent o (t.recomputeAll o) := by
  obtain ⟨perm, ordered⟩ := deepestFirst_order wf
  have distinct : t.deepestFirst.Nodup := perm.nodup_iff.mpr wf.distinct
  intro x n found
  refine foldl_settle_current wf distinct ordered x ?_ n found
  have present := (recomputeAll_sameShape o t).present x
  rw [found] at present
  exact perm.mem_iff.mpr (mem_keys present.symm)

theorem AllCurrent.hashes (current : AllCurrent o t) : HashesCurrent o t := fun id n found => (current id n found).1

/-! ### Along a path -/

theorem markDirtyFrom_off {x : ResourceId} (off : x ∉ t.climb fuel from_) :
    (markDirtyFrom fuel from_ t).get x = t.get x := by
  induction fuel generalizing from_ t with
  | zero => rfl
  | succ fuel ih =>
    cases from_ with
    | none => rfl
    | some cid =>
      rw [climb, mem_cons, not_or] at off
      rw [markDirtyFrom]
      cases found : t.get cid with
      | none => rfl
      | some node =>
        have marked : (t.modify cid fun n => { n with dirty := true }).get x = t.get x := get_modify_of_ne off.1 _
        have shape : SameShape t (t.modify cid fun n => { n with dirty := true }) := .modify fun _ => rfl
        dsimp only
        split
        · exact marked
        · refine (ih ?_).trans marked
          rw [climb_sameShape shape, ← parentOf_of_get found]
          exact off.2

theorem climb_none (fuel : Nat) : t.climb fuel none = [] := by cases fuel <;> rfl

theorem climb_next {x y : ResourceId} (on : y ∈ t.climb fuel from_)
    (link : t.parentOf y = some x) : x ∈ t.climb (fuel + 1) from_ := by
  induction fuel generalizing from_ with
  | zero => exact absurd on not_mem_nil
  | succ fuel ih =>
    cases from_ with
    | none => exact absurd on not_mem_nil
    | some pid =>
      refine mem_cons_of_mem _ ?_
      cases on with
      | head =>
        rw [link]
        exact mem_cons_self
      | tail _ higher => exact ih higher

theorem recomputePath_current (wf : Wf t) (others : ∀ x, x ∉ id :: t.ancestors id → CurrentAt o t x) :
    AllCurrent o (t.recomputePath o id) := by
  cases here : t.get id with
  | none =>
    rw [recomputePath, recomputePathInner, here]
    change AllCurrent o t
    intro x n found
    refine others x (fun on => ?_) n found
    rw [ancestors, parentOf_of_absent here, climb_none, mem_singleton] at on
    rw [on, here] at found
    cases found
  | some own =>
    have marks : Same links t (t.markDirty id) := markDirtyFrom_same (fun _ _ => rfl) _ _ t
    have wf' := wf.sameShape marks
    have path : t.recomputePath o id = (id :: t.ancestors id).foldl (settle o) (t.markDirty id) := by
      rw [recomputePath, recomputePathInner, here,
        ← ancestors_sameShape (marks.trans (settle_same o links_blind _ id))]
      rfl
    rw [path]
    intro x
    by_cases on : x ∈ id :: t.ancestors id
    · obtain ⟨rank, ranked⟩ := wf.ranked
      refine foldl_settle_current wf' (path_nodup wf _ id) ((climb_falls wf ranked _ id).imp ?_) x on
      intro a b lower link
      rw [marks.parentOf] at link
      exact lt_asymm lower (ranked link)
    · have kept : CurrentAt o (t.markDirty id) x :=
        (others x on).congr wf (markDirtyFrom_off on) fun c _ => (markDirtyFrom_same (fun _ _ => rfl) _ _ t).parts c
      refine kept.foldl_settle wf' on fun y listed link => on ?_
      rw [marks.parentOf] at link
      -- the parent of a node of the path is one of the path
      have next : x ∈ t.climb (t.nodes.length + 2) (some id) := climb_next listed link
      rwa [climb, climb_stable (climb_short wf _ (Option.isSome_iff_exists.mpr ⟨own, here⟩))] at next

/-- The node whose path is recomputed after a change: the one inserted or changed, and the parent of
one that is removed. -/
def origin (t : ResourceTree V) : Act V → Option ResourceId
  | .insert id .. | .setMeta id .. | .removeMeta id .. => some id
  | .remove id => t.parentOf id
  | _ => none

/-- A change of the links or the metadata and the recomputation that follows it; the other acts are
none. -/
def maintain (o : Outside V) (t : ResourceTree V) (act : Act V) : ResourceTree V :=
  match origin t act with
  | some id => (step o t act).recomputePath o id
  | none => t

theorem AllCurrent.maintain (wf : Wf t) (current : AllCurrent o t) (act : Act V) : AllCurrent o (maintain o t act) := by
  have meta_ {id : ResourceId} {change : ResourceNode V → ResourceNode V} (wf' : Wf (t.modify id change))
      (keeps : ∀ n, seen (change n) = seen n) : AllCurrent o ((t.modify id change).recomputePath o id) := by
    refine recomputePath_current wf' fun x off => ?_
    have other : x ≠ id := fun same => off (mem_cons.mpr (.inl same))
    exact (current x).congr wf (get_modify_of_ne other _) fun c _ => (Same.modify keeps).parts c
  have wf' := wf.step (o := o) act
  rw [Current.maintain]
  cases act with
  | insert new kind parentId =>
    refine recomputePath_current wf' fun x off => ?_
    rw [step] at off ⊢
    cases inserted : t.insert new kind parentId with
    | error refusal => exact current x
    | ok t' =>
      have orphan := parentOf_of_absent (insert_ok inserted).2.1
      rw [step, inserted] at wf'
      rw [inserted, ancestors_of_parent wf' ((parentOf_insert inserted new).trans (if_pos rfl))] at off
      simp only [mem_cons, not_or] at off
      refine (current x).congr wf (by rw [get_insert inserted, if_neg off.1, if_neg off.2.1]) fun c link => ?_
      exact parts_insert (fun _ _ => rfl) inserted (by rintro rfl; rw [orphan] at link; cases link)
  | remove gone =>
    cases above : t.parentOf gone with
    | none =>
      rw [origin, above]
      exact current
    | some p =>
      rw [origin, above]
      refine recomputePath_current wf' fun x off => ?_
      rw [step] at off ⊢
      cases removed : t.remove gone with
      | error refusal => exact current x
      | ok result =>
        have link := (parentOf_of_get (remove_ok removed).2.1).symm.trans above
        have apart : some p ≠ some x := fun same => off (Option.some.inj same ▸ mem_cons_self)
        by_cases own : x = gone
        · intro n found
          rw [get_remove removed, if_pos own] at found
          cases found
        · refine (current x).congr wf (by rw [get_remove removed, if_neg own, if_neg (link ▸ apart)]) fun c below => ?_
          exact parts_remove (fun _ _ => rfl) removed (by rintro rfl; exact apart (above.symm.trans below))
  | setMeta id key value | removeMeta id key => exact meta_ wf' fun _ => rfl
  | updateScoring | recomputePath | recomputeAll => exact current

theorem AllCurrent.recomputeAll (wf : Wf t) (current : AllCurrent o t) (x : ResourceId) :
    (t.recomputeAll o).get x = t.get x := by
  rw [ResourceTree.recomputeAll]
  generalize t.deepestFirst = order
  induction order generalizing t with
  | nil => rfl
  | cons y order ih =>
    have same (z : ResourceId) : (t.settle o y).get z = t.get z := by
      rw [get_settle]
      split
      · cases found : t.get z with
        | none => rfl
        | some n =>
          obtain ⟨hash, scoring, clean⟩ := current z n found
          have kept : settledScoring o t n = n.scoring := by
            rw [settledScoring]
            split
            · rfl
            · next inner => exact (scoring inner).symm
          rw [Option.map_some, settled, kept, ← clean]
          exact congrArg (fun h => some { n with merkleHash := h }) hash.symm
      · rfl
    rw [foldl_cons, ih (wf.sameShape (settle_sameShape o t y))
      fun z => (current z).congr wf (same z) fun c _ => by rw [same], same]

/-- Changes that each recompute their path leave nothing that a full recomputation would change. -/
theorem paths_recomputed (built : Built o t) (current : AllCurrent o t) (acts : List (Act V)) :
    (∀ x, ((Run.run (maintain o) t acts).recomputeAll o).get x = (Run.run (maintain o) t acts).get x) ∧
      ∀ x n, (Run.run (maintain o) t acts).get x = some n → n.dirty = false := by
  have kept : Wf (Run.run (maintain o) t acts) ∧ AllCurrent o (Run.run (maintain o) t acts) := by
    refine Run.run_always (fun t act (both : Wf t ∧ AllCurrent o t) => ⟨?_, both.2.maintain both.1 act⟩) acts
      ⟨built.wf, current⟩
    rw [maintain]
    split
    · exact (both.1.step act).sameShape (recomputePathInner_sameShape o _ _ true)
    · exact both.1
  exact ⟨kept.2.recomputeAll kept.1, fun x n found => (kept.2 x n found).2.2⟩

end

def constant : Outside Unit := ⟨fun _ => Bytes.Digest.zero, fun _ => "", fun _ => .default⟩

theorem paths_recomputed_leaf :
    ((Run.run (maintain constant) (step constant .new .recomputeAll) [.insert ⟨"/a"⟩ .service .root]).recomputeAll
        constant).get .root =
      (Run.run (maintain constant) (step constant .new .recomputeAll) [.insert ⟨"/a"⟩ .service .root]).get .root :=
  (paths_recomputed ⟨[.recomputeAll], rfl⟩ (recomputeAll_current wf_new) _).1 .root

end Weftos.Resource.Current
