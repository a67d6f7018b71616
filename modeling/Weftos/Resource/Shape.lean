import Weftos.Lib.Forest
import Weftos.Lib.Run
import Weftos.Resource.Tree

/-! The links of a resource tree: they form a tree under the root whatever operations are made,
and recomputations do not touch them. -/

namespace Weftos.Resource.Shape
open Lib Lib.Outcome Lib.Forest Lib.Text Resource.Path Resource.Tree List Option ResourceTree

variable {V : Type} {t t' : ResourceTree V} {id : ResourceId} {n : ResourceNode V} {x parentId p : ResourceId}
  {kind : ResourceKind} {node : ResourceNode V}

/-! ### What the operations leave under a path -/

theorem get_modify (t : ResourceTree V) (id x : ResourceId) (change : ResourceNode V → ResourceNode V) :
    (t.modify id change).get x = if x = id then (t.get x).map change else t.get x := by
  rw [ResourceTree.get, ResourceTree.modify, Table.lookup_modify]
  by_cases here : x = id
  · rw [if_pos here, if_pos (beq_iff_eq.mpr here)]
    rfl
  · rw [if_neg here, if_neg (mt beq_iff_eq.mp here)]
    rfl

theorem get_modify_self (change : ResourceNode V → ResourceNode V) :
    (t.modify id change).get id = (t.get id).map change := by
  rw [get_modify, if_pos rfl]

theorem get_modify_of_ne (differ : x ≠ id) (change : ResourceNode V → ResourceNode V) :
    (t.modify id change).get x = t.get x := by
  rw [get_modify, if_neg differ]

theorem modify_keys (t : ResourceTree V) (id : ResourceId) (change : ResourceNode V → ResourceNode V) :
    (t.modify id change).nodes.map (·.1) = t.nodes.map (·.1) := Table.modify_keys ..

section
variable (inserted : t.insert id kind parentId = .ok t')
include inserted

theorem insert_ok :
    startsWith id.path "/" = true ∧ t.get id = none ∧ (t.get parentId).isSome = true ∧
      t' = ResourceTree.modify ⟨Table.insert t.nodes id (.new id kind (some parentId))⟩ parentId
        fun parent => { parent with children := parent.children ++ [id] } := by
  simp only [ResourceTree.insert, bind_ok_iff, ensure_ok_iff, pure_ok_iff] at inserted
  obtain ⟨_, slash, _, absent, _, present, rfl⟩ := inserted
  exact ⟨slash, isNone_iff_eq_none.mp absent, present, rfl⟩

theorem insert_apart : id ≠ parentId := by
  rintro rfl
  obtain ⟨-, absent, present, -⟩ := insert_ok inserted
  rw [absent] at present
  exact absurd present nofun

theorem get_insert (x : ResourceId) : t'.get x =
      if x = id then some (.new id kind (some parentId))
      else if x = parentId then (t.get x).map fun parent => { parent with children := parent.children ++ [id] }
      else t.get x := by
  have apart := insert_apart inserted
  obtain ⟨-, -, -, rfl⟩ := insert_ok inserted
  rw [get_modify]
  by_cases here : x = id
  · subst here
    rw [if_neg apart, if_pos rfl]
    exact Table.lookup_insert_self ..
  · have old : ResourceTree.get ⟨Table.insert t.nodes id (.new id kind (some parentId))⟩ x = t.get x :=
      Table.lookup_insert_other _ _ here
    rw [if_neg here, old]

end

theorem remove_ok (removed : t.remove id = .ok (node, t')) :
    id ≠ .root ∧ t.get id = some node ∧ node.children = [] ∧
      t' = match node.parent with
        | some parentId => ResourceTree.modify ⟨Table.remove t.nodes id⟩ parentId
            fun parent => { parent with children := parent.children.filter (· ≠ id) }
        | none => ⟨Table.remove t.nodes id⟩ := by
  simp only [remove, bind_ok_iff, ensure_ok_iff, require_ok_iff] at removed
  obtain ⟨_, notRoot, found, here, _, empty, result⟩ := removed
  have notRoot : id ≠ .root := by
    rintro rfl
    exact absurd notRoot (by decide)
  cases parent : found.parent with
  | none | some parentId =>
    rw [parent] at result
    cases result
    rw [parent]
    exact ⟨notRoot, here, length_eq_zero_iff.mp empty, rfl⟩

theorem get_remove (removed : t.remove id = .ok (node, t')) (x : ResourceId) : t'.get x = if x = id then none
    else if node.parent = some x then
      (t.get x).map fun parent => { parent with children := parent.children.filter (· ≠ id) }
    else t.get x := by
  obtain ⟨-, -, -, rfl⟩ := remove_ok removed
  have gone : ResourceTree.get ⟨Table.remove t.nodes id⟩ id = none := Table.lookup_remove_self ..
  have others (y : ResourceId) (differ : y ≠ id) : ResourceTree.get ⟨Table.remove t.nodes id⟩ y = t.get y :=
    Table.lookup_remove_of_ne _ differ
  cases parent : node.parent with
  | none =>
    by_cases here : x = id
    · rw [if_pos here, here]
      exact gone
    · rw [if_neg here, if_neg nofun]
      exact others x here
  | some parentId =>
    rw [get_modify]
    by_cases here : x = id
    · rw [if_pos here, here, gone]
      exact ite_self _
    · rw [if_neg here, others x here]
      by_cases above : x = parentId
      · rw [if_pos above, if_pos (congrArg some above.symm)]
      · rw [if_neg above, if_neg fun same => above (some.inj same).symm]

theorem parts_insert {α : Type} {part : ResourceNode V → α} (blind : ∀ n children, part { n with children } = part n)
    (inserted : t.insert id kind parentId = .ok t') (other : x ≠ id) :
    (t'.get x).map part = (t.get x).map part := by
  rw [get_insert inserted, if_neg other]
  split
  · rw [Option.map_map]
    exact map_congr fun n _ => blind n _
  · rfl

theorem parts_remove {α : Type} {part : ResourceNode V → α} (blind : ∀ n children, part { n with children } = part n)
    (removed : t.remove id = .ok (node, t')) (other : x ≠ id) :
    (t'.get x).map part = (t.get x).map part := by
  rw [get_remove removed, if_neg other]
  split
  · rw [Option.map_map]
    exact map_congr fun n _ => blind n _
  · rfl

/-! ### Changes that leave the links -/

def links (n : ResourceNode V) : ResourceId × Option ResourceId × List ResourceId := (n.id, n.parent, n.children)

structure Same {α : Type} (part : ResourceNode V → α) (t t' : ResourceTree V) : Prop where
  keys : t'.nodes.map (·.1) = t.nodes.map (·.1)
  parts : ∀ x, (t'.get x).map part = (t.get x).map part

namespace Same
variable {α : Type} {part : ResourceNode V → α}

theorem refl (t : ResourceTree V) : Same part t t := ⟨rfl, fun _ => rfl⟩

theorem symm (same : Same part t t') : Same part t' t := ⟨same.keys.symm, fun x => (same.parts x).symm⟩

theorem trans (first : Same part t t') (second : Same part t' t'') : Same part t t'' :=
  ⟨second.keys.trans first.keys, fun x => (second.parts x).trans (first.parts x)⟩

theorem modify {change : ResourceNode V → ResourceNode V} (keeps : ∀ n, part (change n) = part n) :
    Same part t (t.modify id change) where
  keys := modify_keys ..
  parts x := by
    rw [get_modify]
    split
    · rw [Option.map_map]
      congr 1
      funext n
      exact keeps n
    · rfl

theorem foldl {β : Type} {change : ResourceTree V → β → ResourceTree V} (keeps : ∀ t b, Same part t (change t b))
    (items : List β) (t : ResourceTree V) : Same part t (items.foldl change t) := by
  induction items generalizing t with
  | nil => exact .refl t
  | cons b items ih => exact (keeps t b).trans (ih (change t b))

end Same

abbrev SameShape (t t' : ResourceTree V) : Prop := Same links t t'

section
variable (same : SameShape t t')
include same

theorem Same.found (found : t'.get id = some n) :
    ∃ old, t.get id = some old ∧ old.id = n.id ∧ old.parent = n.parent ∧ old.children = n.children := by
  have kept := same.parts id
  rw [found] at kept
  obtain ⟨old, here, alike⟩ := map_eq_some_iff.mp kept.symm
  simp only [Shape.links, Prod.mk.injEq] at alike
  exact ⟨old, here, alike⟩

theorem Same.present (x : ResourceId) : (t'.get x).isSome = (t.get x).isSome := by
  have kept := congrArg isSome (same.parts x)
  rwa [isSome_map, isSome_map] at kept

theorem Same.parentOf (x : ResourceId) : t'.parentOf x = t.parentOf x := by
  have kept := congrArg (fun found => found.bind fun alike => alike.2.1) (same.parts x)
  simp only [bind_map] at kept
  exact kept

theorem climb_sameShape (fuel : Nat) (from_ : Option ResourceId) :
    t'.climb fuel from_ = t.climb fuel from_ := by
  induction fuel generalizing from_ with
  | zero => rfl
  | succ fuel ih =>
    cases from_ with
    | none => rfl
    | some pid => rw [climb, climb, same.parentOf, ih]

theorem ancestors_sameShape (x : ResourceId) : t'.ancestors x = t.ancestors x := by
  have sizes : t'.nodes.length = t.nodes.length := by
    have lengths := congrArg length same.keys
    rwa [length_map, length_map] at lengths
  rw [ancestors, ancestors, same.parentOf, sizes, climb_sameShape same]

end

section
variable {α : Type} {part : ResourceNode V → α}

theorem markDirtyFrom_same (blind : ∀ n dirty, part { n with dirty } = part n) (fuel : Nat) (from_ : Option ResourceId)
    (t : ResourceTree V) : Same part t (markDirtyFrom fuel from_ t) := by
  induction fuel generalizing from_ t with
  | zero => exact .refl t
  | succ fuel ih =>
    cases from_ with
    | none => exact .refl t
    | some cid =>
      rw [markDirtyFrom]
      cases t.get cid with
      | none => exact .refl t
      | some node =>
        have marked : Same part t (t.modify cid fun n => { n with dirty := true }) := .modify fun n => blind n true
        dsimp only
        split
        · exact marked
        · exact marked.trans (ih node.parent _)

def Blind (part : ResourceNode V → α) : Prop :=
  ∀ n scoring merkleHash dirty, part { n with scoring, merkleHash, dirty } = part n

variable (o : Outside V) (blind : Blind part)
include blind

variable (t : ResourceTree V) (id : ResourceId)

theorem recomputeMerkle_same : Same part t (t.recomputeMerkle o id) := by
  rw [recomputeMerkle]
  split
  · exact .modify fun n => blind n n.scoring _ n.dirty
  · exact .refl t

theorem aggregate_same : Same part t (t.aggregateScoringFor o id) := by
  rw [aggregateScoringFor]
  split
  · split
    · exact .refl t
    · exact .modify fun n => blind n _ n.merkleHash n.dirty
  · exact .refl t

omit o in
theorem clean_same : Same part t (t.clean id) :=
  .modify fun n => blind n n.scoring n.merkleHash false

theorem settle_same : Same part t (t.settle o id) :=
  ((aggregate_same o blind t id).trans (recomputeMerkle_same o blind _ id)).trans (clean_same blind _ id)

theorem pathOrigin_same (aggregateOrigin : Bool) : Same part t (((if aggregateOrigin then
    (t.markDirty id).aggregateScoringFor o id else t.markDirty id).recomputeMerkle o id).clean id) := by
  have marked : Same part t (t.markDirty id) :=
    markDirtyFrom_same (fun n dirty => blind n n.scoring n.merkleHash dirty) _ _ t
  refine .trans (.trans ?_ (recomputeMerkle_same o blind _ id)) (clean_same blind _ id)
  split
  · exact marked.trans (aggregate_same o blind _ id)
  · exact marked

theorem recomputePathInner_same (aggregateOrigin : Bool) :
    Same part t (t.recomputePathInner o id aggregateOrigin).1 := by
  rw [recomputePathInner]
  split
  · exact .refl t
  · exact (pathOrigin_same o blind t id aggregateOrigin).trans (.foldl (settle_same o blind) _ _)

theorem recomputeAll_same : Same part t (t.recomputeAll o) := .foldl (settle_same o blind) _ t

theorem updateScoring_same (scoring : NodeScoring) :
    Same part t (t.updateScoring o id scoring) := by
  rw [updateScoring]
  split
  · have set_ : Same part t (t.modify id fun n => { n with scoring }) :=
      .modify fun n => blind n scoring n.merkleHash n.dirty
    exact set_.trans (recomputePathInner_same o blind _ id false)
  · exact .refl t

end

section
variable (o : Outside V)

theorem links_blind : Blind (V := V) links := fun _ _ _ _ => rfl

variable (t : ResourceTree V) (id : ResourceId)

theorem settle_sameShape : SameShape t (t.settle o id) :=
  settle_same o links_blind t id

theorem recomputePathInner_sameShape (aggregateOrigin : Bool) :
    SameShape t (t.recomputePathInner o id aggregateOrigin).1 :=
  recomputePathInner_same o links_blind t id aggregateOrigin

theorem recomputeAll_sameShape : SameShape t (t.recomputeAll o) :=
  recomputeAll_same o links_blind t

theorem updateScoring_sameShape (scoring : NodeScoring) :
    SameShape t (t.updateScoring o id scoring) :=
  updateScoring_same o links_blind t id scoring

end

/-! ### Trees -/

/-- The links of a tree: every node but the root hangs under a node that lists it, and the way
up ends. -/
structure Wf (t : ResourceTree V) : Prop where
  distinct : (t.nodes.map (·.1)).Nodup
  named : ∀ {id n}, t.get id = some n → n.id = id
  slash : ∀ {id n}, t.get id = some n → startsWith id.path "/" = true
  rooted : ∃ n, t.get .root = some n ∧ n.parent = none
  hung : ∀ {id n}, t.get id = some n → id ≠ .root → ∃ p, n.parent = some p ∧ (t.get p).isSome = true
  once : ∀ {id n}, t.get id = some n → n.children.Nodup
  listed : ∀ {id n}, t.get id = some n → ∀ c, c ∈ n.children ↔ t.parentOf c = some id
  ranked : ∃ rank, Ranked t.parentOf rank

theorem Wf.sameShape (wf : Wf t) (same : SameShape t t') : Wf t' where
  distinct := by
    rw [same.keys]
    exact wf.distinct
  named found := by
    obtain ⟨old, here, name, -, -⟩ := same.found found
    rw [← name]
    exact wf.named here
  slash found := by
    obtain ⟨old, here, -⟩ := same.found found
    exact wf.slash here
  rooted := by
    obtain ⟨n, here, top⟩ := wf.rooted
    obtain ⟨n', here', -, parent, -⟩ := same.symm.found here
    exact ⟨n', here', parent.trans top⟩
  hung found notRoot := by
    obtain ⟨old, here, -, parent, -⟩ := same.found found
    obtain ⟨p, above, present⟩ := wf.hung here notRoot
    exact ⟨p, parent ▸ above, (same.present p).trans present⟩
  once found := by
    obtain ⟨old, here, -, -, children⟩ := same.found found
    exact children ▸ wf.once here
  listed found c := by
    obtain ⟨old, here, -, -, children⟩ := same.found found
    rw [← children, same.parentOf]
    exact wf.listed here c
  ranked := by
    obtain ⟨rank, ranked⟩ := wf.ranked
    refine ⟨rank, fun {x y} link => ranked ?_⟩
    rwa [← same.parentOf]

theorem wf_new : Wf (.new : ResourceTree V) := by
  have only {x : ResourceId} {n : ResourceNode V} (found : new.get x = some n) :
      x = .root ∧ n = .new .root .namespace_ none := by
    have here := mem_singleton.mp (Table.mem_of_lookup found)
    exact Prod.mk.injEq .. ▸ here
  have noParent (x : ResourceId) : (new : ResourceTree V).parentOf x = none := by
    rw [parentOf]
    cases found : (new : ResourceTree V).get x with
    | none => rfl
    | some n => rw [(only found).2]; rfl
  exact {
    distinct := nodup_singleton _
    named := fun found => by rw [(only found).1, (only found).2]; rfl
    slash := fun found => by rw [(only found).1]; decide
    rooted := ⟨_, rfl, rfl⟩
    hung := fun found notRoot => absurd (only found).1 notRoot
    once := fun found => by rw [(only found).2]; exact nodup_nil
    listed := fun found c => by
      rw [(only found).2, noParent]
      exact ⟨nofun, nofun⟩
    ranked := ⟨fun _ => 0, fun {x y} link => absurd ((noParent x).symm.trans link) nofun⟩ }

theorem parentOf_of_get (found : t.get id = some n) : t.parentOf id = n.parent := by
  rw [parentOf, found]
  rfl

theorem parentOf_of_absent (absent : t.get id = none) : t.parentOf id = none := by
  rw [parentOf, absent]
  rfl

theorem get_of_parentOf (link : t.parentOf id = some p) : ∃ n, t.get id = some n ∧ n.parent = some p :=
  bind_eq_some_iff.mp link

theorem present_of_parentOf (link : t.parentOf x = some p) : (t.get x).isSome = true := by
  obtain ⟨n, found, -⟩ := get_of_parentOf link
  exact isSome_iff_exists.mpr ⟨n, found⟩

theorem mem_keys (present : (t.get x).isSome = true) : x ∈ t.nodes.map (·.1) := by
  obtain ⟨n, found⟩ := isSome_iff_exists.mp present
  exact mem_map.mpr ⟨_, Table.mem_of_lookup found, rfl⟩

theorem Wf.parent_present (wf : Wf t) (link : t.parentOf x = some p) : (t.get p).isSome = true := by
  obtain ⟨n, found, above⟩ := get_of_parentOf link
  have notRoot : x ≠ .root := by
    rintro rfl
    obtain ⟨r, root, top⟩ := wf.rooted
    rw [root] at found
    cases found
    exact absurd (top.symm.trans above) nofun
  obtain ⟨q, same, present⟩ := wf.hung found notRoot
  rw [above] at same
  cases same
  exact present

theorem Wf.childless_of_absent (wf : Wf t) (absent : t.get id = none) (x : ResourceId) : t.parentOf x ≠ some id := by
  intro link
  have present := wf.parent_present link
  rw [absent] at present
  exact absurd present nofun

section
variable {kind : ResourceKind} {parentId : ResourceId} (inserted : t.insert id kind parentId = .ok t')
include inserted

theorem insert_old (other : x ≠ id) (found : t'.get x = some n) :
    ∃ old, t.get x = some old ∧ n.id = old.id ∧ n.parent = old.parent ∧
      n.children = old.children ++ if x = parentId then [id] else [] := by
  rw [get_insert inserted, if_neg other] at found
  by_cases above : x = parentId
  · rw [if_pos above] at found
    obtain ⟨old, here, rfl⟩ := map_eq_some_iff.mp found
    rw [if_pos above]
    exact ⟨old, here, rfl, rfl, rfl⟩
  · rw [if_neg above] at found
    rw [if_neg above]
    exact ⟨n, found, rfl, rfl, (append_nil _).symm⟩

theorem parentOf_insert (x : ResourceId) : t'.parentOf x = if x = id then some parentId else t.parentOf x := by
  rw [parentOf, get_insert inserted]
  split
  · rfl
  · split
    · rw [bind_map]
      rfl
    · rfl

theorem insert_present (present : (t.get x).isSome = true) : (t'.get x).isSome = true := by
  rw [get_insert inserted]
  split
  · rfl
  · split
    · rw [isSome_map]
      exact present
    · exact present

theorem Wf.insert (wf : Wf t) : Wf t' := by
  obtain ⟨slash, absent, parentHere, made⟩ := insert_ok inserted
  have apart := insert_apart inserted
  have orphan := parentOf_of_absent absent
  have parentOf := parentOf_insert inserted
  have new {n : ResourceNode V} (found : t'.get id = some n) : n = .new id kind (some parentId) := by
    rw [get_insert inserted, if_pos rfl] at found
    exact (some.inj found).symm
  constructor
  case distinct =>
    rw [made, modify_keys]
    exact Table.nodup_insert wf.distinct ..
  case named =>
    intro x n found
    by_cases here : x = id
    · subst here
      rw [new found]
      rfl
    · obtain ⟨old, there, name, -, -⟩ := insert_old inserted here found
      rw [name]
      exact wf.named there
  case slash =>
    intro x n found
    by_cases here : x = id
    · exact here ▸ slash
    · obtain ⟨old, there, -⟩ := insert_old inserted here found
      exact wf.slash there
  case rooted =>
    obtain ⟨r, root, top⟩ := wf.rooted
    have other : ResourceId.root ≠ id := by
      rintro rfl
      exact absurd (absent.symm.trans root) nofun
    have present := insert_present inserted (isSome_iff_exists.mpr ⟨r, root⟩)
    obtain ⟨r', root'⟩ := isSome_iff_exists.mp present
    obtain ⟨old, there, -, parent, -⟩ := insert_old inserted other root'
    rw [root] at there
    cases there
    exact ⟨r', root', parent.trans top⟩
  case hung =>
    intro x n found notRoot
    by_cases here : x = id
    · subst here
      rw [new found]
      exact ⟨parentId, rfl, insert_present inserted parentHere⟩
    · obtain ⟨old, there, -, parent, -⟩ := insert_old inserted here found
      obtain ⟨p, above, present⟩ := wf.hung there notRoot
      exact ⟨p, parent.trans above, insert_present inserted present⟩
  case once =>
    intro x n found
    by_cases here : x = id
    · subst here
      rw [new found]
      exact nodup_nil
    · obtain ⟨old, there, -, -, children⟩ := insert_old inserted here found
      rw [children]
      split
      · refine nodup_append.mpr ⟨wf.once there, nodup_singleton id, ?_⟩
        intro c inOld d isNew same
        rw [same, mem_singleton.mp isNew, wf.listed there, orphan] at inOld
        exact absurd inOld nofun
      · rw [append_nil]
        exact wf.once there
  case listed =>
    intro x n found c
    rw [parentOf]
    by_cases here : x = id
    · subst here
      rw [new found]
      refine ⟨nofun, fun link => ?_⟩
      split at link
      · exact absurd (some.inj link).symm apart
      · exact absurd link (wf.childless_of_absent absent c)
    · obtain ⟨old, there, -, -, children⟩ := insert_old inserted here found
      rw [children, mem_append, wf.listed there]
      by_cases isNew : c = id
      · rw [if_pos isNew, isNew, orphan]
        by_cases above : x = parentId
        · simp [above]
        · simp [above, Ne.symm above]
      · rw [if_neg isNew]
        by_cases above : x = parentId
        · simp [above, isNew]
        · simp [above]
  case ranked =>
    obtain ⟨rank, ranked⟩ := wf.ranked
    refine ⟨fun x => if x = id then rank parentId + 1 else rank x, fun {x y} link => ?_⟩
    rw [parentOf] at link
    by_cases here : x = id
    · rw [if_pos here] at link
      cases link
      beta_reduce
      rw [if_pos here, if_neg (Ne.symm apart)]
      exact Nat.lt_succ_self _
    · rw [if_neg here] at link
      have other : y ≠ id := fun same => wf.childless_of_absent absent x (same ▸ link)
      beta_reduce
      rw [if_neg here, if_neg other]
      exact ranked link

end

section
variable {node : ResourceNode V} (removed : t.remove id = .ok (node, t'))
include removed

theorem parentOf_remove (x : ResourceId) : t'.parentOf x = if x = id then none else t.parentOf x := by
  rw [parentOf, get_remove removed]
  split
  · rfl
  · split
    · rw [bind_map]
      rfl
    · rfl

theorem Wf.remove_old (wf : Wf t) (found : t'.get x = some n) :
    x ≠ id ∧ ∃ old, t.get x = some old ∧ n.id = old.id ∧ n.parent = old.parent ∧
      n.children = old.children.filter (· ≠ id) := by
  obtain ⟨-, here, -, -⟩ := remove_ok removed
  rw [get_remove removed] at found
  by_cases same : x = id
  · rw [if_pos same] at found
    exact absurd found nofun
  · refine ⟨same, ?_⟩
    rw [if_neg same] at found
    by_cases above : node.parent = some x
    · rw [if_pos above] at found
      obtain ⟨old, there, rfl⟩ := map_eq_some_iff.mp found
      exact ⟨old, there, rfl, rfl, rfl⟩
    · rw [if_neg above] at found
      refine ⟨n, found, rfl, rfl, (filter_eq_self.mpr ?_).symm⟩
      intro c child
      have link := (wf.listed found c).mp child
      have other : c ≠ id := by
        rintro rfl
        exact above ((parentOf_of_get here).symm.trans link)
      exact decide_eq_true other

theorem remove_present (present : (t.get x).isSome = true) (other : x ≠ id) : (t'.get x).isSome = true := by
  rw [get_remove removed, if_neg other]
  split
  · rw [isSome_map]
    exact present
  · exact present

theorem Wf.remove (wf : Wf t) : Wf t' := by
  obtain ⟨notRoot, here, empty, made⟩ := remove_ok removed
  have parentOf := parentOf_remove removed
  have leaf (x : ResourceId) : t.parentOf x ≠ some id := by
    intro link
    have child := (wf.listed here x).mpr link
    rw [empty] at child
    exact absurd child not_mem_nil
  constructor
  case distinct =>
    rw [made]
    split
    · rw [modify_keys]
      exact Table.nodup_filter wf.distinct _
    · exact Table.nodup_filter wf.distinct _
  case named =>
    intro x n found
    obtain ⟨-, old, there, name, -, -⟩ := wf.remove_old removed found
    rw [name]
    exact wf.named there
  case slash =>
    intro x n found
    obtain ⟨-, old, there, -⟩ := wf.remove_old removed found
    exact wf.slash there
  case rooted =>
    obtain ⟨r, root, top⟩ := wf.rooted
    have present := remove_present removed (isSome_iff_exists.mpr ⟨r, root⟩) (Ne.symm notRoot)
    obtain ⟨r', root'⟩ := isSome_iff_exists.mp present
    obtain ⟨-, old, there, -, parent, -⟩ := wf.remove_old removed root'
    rw [root] at there
    cases there
    exact ⟨r', root', parent.trans top⟩
  case hung =>
    intro x n found notTop
    obtain ⟨-, old, there, -, parent, -⟩ := wf.remove_old removed found
    obtain ⟨p, above, present⟩ := wf.hung there notTop
    have other : p ≠ id := by
      rintro rfl
      exact leaf x ((parentOf_of_get there).trans above)
    exact ⟨p, parent.trans above, remove_present removed present other⟩
  case once =>
    intro x n found
    obtain ⟨-, old, there, -, -, children⟩ := wf.remove_old removed found
    rw [children]
    exact (wf.once there).filter _
  case listed =>
    intro x n found c
    obtain ⟨-, old, there, -, -, children⟩ := wf.remove_old removed found
    rw [children, mem_filter, wf.listed there, parentOf]
    by_cases gone : c = id
    · simp [gone]
    · simp [gone]
  case ranked =>
    obtain ⟨rank, ranked⟩ := wf.ranked
    refine ⟨rank, fun {x y} link => ?_⟩
    rw [parentOf] at link
    split at link
    · exact absurd link nofun
    · exact ranked link

end

/-! ### Histories of a tree -/

inductive Act (V : Type) where
  | insert (id : ResourceId) (kind : ResourceKind) (parentId : ResourceId)
  | remove (id : ResourceId)
  | setMeta (id : ResourceId) (key : String) (value : V)
  | removeMeta (id : ResourceId) (key : String)
  | updateScoring (id : ResourceId) (scoring : NodeScoring)
  | recomputePath (id : ResourceId)
  | recomputeAll

section
variable (o : Outside V)

def step (t : ResourceTree V) : Act V → ResourceTree V
  | .insert id kind parentId =>
    match t.insert id kind parentId with
    | .ok t' => t'
    | .error _ => t
  | .remove id =>
    match t.remove id with
    | .ok (_, t') => t'
    | .error _ => t
  | .setMeta id key value => t.modify id fun n => { n with metadata := Table.insert n.metadata key value }
  | .removeMeta id key => t.modify id fun n => { n with metadata := Table.remove n.metadata key }
  | .updateScoring id scoring => t.updateScoring o id scoring
  | .recomputePath id => t.recomputePath o id
  | .recomputeAll => t.recomputeAll o

def Built (t : ResourceTree V) : Prop := ∃ acts, t = Run.run (step o) .new acts

variable {o}

theorem step_cases (t : ResourceTree V) (act : Act V) :
    (∃ id kind parentId, act = .insert id kind parentId ∧ t.insert id kind parentId = .ok (step o t act)) ∨
      (∃ id node, t.remove id = .ok (node, step o t act)) ∨ SameShape t (step o t act) := by
  cases act with
  | insert id kind parentId =>
    cases done : t.insert id kind parentId with
    | ok t' =>
      refine .inl ⟨id, kind, parentId, rfl, ?_⟩
      rw [step, done]
    | error refusal =>
      refine .inr (.inr ?_)
      rw [step, done]
      exact .refl t
  | remove id =>
    cases done : t.remove id with
    | ok result =>
      refine .inr (.inl ⟨id, result.1, ?_⟩)
      rw [step, done]
    | error refusal =>
      refine .inr (.inr ?_)
      rw [step, done]
      exact .refl t
  | setMeta | removeMeta id key => exact .inr (.inr (.modify fun _ => rfl))
  | updateScoring id scoring => exact .inr (.inr (updateScoring_sameShape o t id scoring))
  | recomputePath id => exact .inr (.inr (recomputePathInner_sameShape o t id true))
  | recomputeAll => exact .inr (.inr (recomputeAll_sameShape o t))

theorem Wf.step (wf : Wf t) (act : Act V) : Wf (step o t act) := by
  obtain ⟨id, kind, parentId, -, inserted⟩ | ⟨id, node, removed⟩ | same := step_cases t act
  · exact wf.insert inserted
  · exact wf.remove removed
  · exact wf.sameShape same

theorem Built.wf (built : Built o t) : Wf t := by
  obtain ⟨acts, rfl⟩ := built
  exact Run.run_always (fun _ act wf => wf.step act) acts wf_new

def Placed (t : ResourceTree V) : Prop := ∀ id n, t.get id = some n → n.parent = id.parent

def UnderNamed : Act V → Prop
  | .insert id _ parentId => id.parent = some parentId
  | _ => True

theorem placed_new : Placed (.new : ResourceTree V) := by
  intro id n found
  have here := mem_singleton.mp (Table.mem_of_lookup found)
  cases here
  rfl

theorem Placed.step (placed : Placed t) (wf : Wf t) (under : UnderNamed act) : Placed (step o t act) := by
  obtain ⟨id, kind, parentId, rfl, inserted⟩ | ⟨id, node, removed⟩ | same := step_cases t act
  · intro x n found
    by_cases here : x = id
    · subst here
      rw [get_insert inserted, if_pos rfl] at found
      cases found
      exact under.symm
    · obtain ⟨old, there, -, parent, -⟩ := insert_old inserted here found
      exact parent.trans (placed x old there)
  · intro x n found
    obtain ⟨-, old, there, -, parent, -⟩ := wf.remove_old removed found
    exact parent.trans (placed x old there)
  · intro x n found
    obtain ⟨old, there, -, parent, -⟩ := same.found found
    exact parent.symm.trans (placed x old there)

theorem placed_run (under : ∀ act ∈ acts, UnderNamed act) : Placed (Run.run (step o) .new acts) := by
  have both : Wf (Run.run (step o) .new acts) ∧ Placed (Run.run (step o) .new acts) :=
    Run.run_keeps_mem (fun t act (inv : Wf t ∧ Placed t) ok => ⟨inv.1.step act, inv.2.step inv.1 ok⟩)
      ⟨wf_new, placed_new⟩ under
  exact both.2

end

end Weftos.Resource.Shape
