import Weftos.Resource.Sync

/-! What a peer's difference changes in a tree, and who signed it: the steps of a call against the contents the peer
signed. -/

namespace Weftos.Resource.Signed
open Lib Lib.Bytes Lib.Outcome Lib.Text Chain.Event
open Resource.Path Resource.Tree Shape Current Merkle Sync List ResourceTree
open Inclusion (sample oneChild)

variable {V K : Type} {step : Step V}

/-! ### What a node shows -/

def content (n : ResourceNode V) : ResourceKind × List (String × V) := (n.kind, n.metadata)

def contentAt (t : ResourceTree V) (p : ResourceId) : Option (ResourceKind × List (String × V)) := (t.get p).map content

def scoringAt (t : ResourceTree V) (p : ResourceId) : Option NodeScoring := (t.get p).map ResourceNode.scoring

/-- Whether there is a node, its kind, its metadata and its scoring. -/
def factsAt (t : ResourceTree V) (p : ResourceId) : Option (ResourceKind × List (String × V)) × Option NodeScoring :=
  (contentAt t p, scoringAt t p)

/-- What the event says of the node it names. -/
def tells : MutationEvent V → Option (ResourceKind × List (String × V)) × Option NodeScoring →
    Option (ResourceKind × List (String × V)) × Option NodeScoring
  | .create _ kind _ _ _, _ => (some (kind, []), some .default)
  | .remove _ _ _, _ => (none, none)
  | .updateMeta _ key value _ _, old => (old.1.map fun c => (c.1, setOrRemove c.2 key value), old.2)
  | .updateScoring _ _ new _ _, old => (old.1, old.2.map fun _ => new)
  | .move _ _ _ _ _, old => old

/-- What the step changes of a node is what a content says that the peer signed. -/
def Told (signed : MutationEvent V → Prop) (step : Step V) : Prop :=
  ∀ p, factsAt step.after p ≠ factsAt step.before p → ∃ event, step.cause = .inl event ∧ event.id = p ∧
    (∃ c, signed c ∧ c.unsigned = event.unsigned) ∧ factsAt step.after p = tells event (factsAt step.before p)

/-- The tree with the event's own change, and the nodes whose scoring is aggregated after it. -/
def bare (t : ResourceTree V) : MutationEvent V → ResourceTree V × List ResourceId
  | .create id kind parent _ _ =>
    match t.insert id kind parent with
    | .ok inserted => (inserted, id :: inserted.ancestors id)
    | .error _ => (t, [])
  | .remove id _ _ =>
    match t.remove id with
    | .ok (node, rest) => (rest, (node.parent.map fun parent => parent :: rest.ancestors parent).getD [])
    | .error _ => (t, [])
  | .updateMeta id key value _ _ =>
    (t.modify id fun node => { node with metadata := setOrRemove node.metadata key value }, id :: t.ancestors id)
  | .updateScoring id _ new _ _ => (t.modify id fun node => { node with scoring := new }, t.ancestors id)
  | .move _ _ _ _ _ => (t, [])

/-- The event finds its node as it says. -/
def Idle (t : ResourceTree V) : MutationEvent V → Prop
  | .create id _ _ _ _ => (t.get id).isSome = true
  | .remove id _ _ => (t.get id).isNone = true
  | .updateMeta id key value _ _ => ∀ n, t.get id = some n → setOrRemove n.metadata key value = n.metadata
  | .updateScoring id _ new _ _ => ∀ n, t.get id = some n → new = n.scoring
  | .move _ _ _ _ _ => True

/-- An inner node scores what its children make together. -/
def Balanced (o : Outside V) (t : ResourceTree V) (p : ResourceId) : Prop :=
  ∀ n, t.get p = some n → settledScoring o t n = n.scoring

/-- The node is as the payload says, and so are the aggregates above it; or there is none, and nowhere to put it. -/
def Agrees (o : Outside V) (t : ResourceTree V) (payload : DiffNodePayload V) : Prop :=
  match t.get payload.id with
  | some n => content n = (payload.kind, payload.metadata) ∧
      settledScoring o t { n with scoring := payload.scoring } = n.scoring ∧
        ∀ p ∈ t.ancestors payload.id, Balanced o t p
  | none => ∀ parent, payload.parent = some parent → startsWith payload.id.path "/" = true → t.get parent = none

/-- If the peer signed the event's bytes then also what the event says. -/
def Unaltered (s : Signing K) (signed : MutationEvent V → Prop) (event : MutationEvent V) : Prop :=
  (∃ c, signed c ∧ canonical s c = canonical s event) → ∃ c, signed c ∧ c.unsigned = event.unsigned

def Sound (o : Outside V) (s : Signing K) (signed : MutationEvent V → Prop) (step : Step V) : Prop :=
  match step.cause with
  | .inl event => (Unaltered s signed event ∨ Idle step.before event) ∧
      ∀ p ∈ (bare step.before event).2, Balanced o (bare step.before event).1 p
  | .inr payload => Agrees o step.before payload

/-! ### Aggregation along a path -/

def scored (n : ResourceNode V) : List ResourceId × NodeScoring := (n.children, n.scoring)

section
variable {o : Outside V} {t t' : ResourceTree V} {id p : ResourceId}

theorem scoringAt_of_same (same : Same scored t t') (p : ResourceId) : scoringAt t' p = scoringAt t p := by
  have parts := congrArg (Option.map Prod.snd) (same.parts p)
  rwa [Option.map_map, Option.map_map] at parts

theorem settledScoring_of_same (same : Same scored t t') (alike : scored n' = scored n) :
    settledScoring o t' n' = settledScoring o t n := by
  obtain ⟨children, scoring⟩ := Prod.mk.inj alike
  have scorings : t'.childScorings n' = t.childScorings n := by
    rw [childScorings, childScorings, children]
    exact filterMap_congr fun c _ => scoringAt_of_same same c
  rw [settledScoring, settledScoring, scorings, scoring]

theorem Balanced.of_same (balanced : Balanced o t p) (same : Same scored t t') : Balanced o t' p := by
  intro n found
  have parts := same.parts p
  rw [found] at parts
  obtain ⟨old, here, alike⟩ := Option.map_eq_some_iff.mp parts.symm
  rw [settledScoring_of_same same alike.symm, balanced old here]
  exact (Prod.mk.inj alike).2

theorem balanced_iff (same : Same scored t t') : Balanced o t' p ↔ Balanced o t p :=
  ⟨fun balanced => balanced.of_same same.symm, fun balanced => balanced.of_same same⟩

theorem settle_scored (balanced : Balanced o t id) : Same scored t (t.settle o id) where
  keys := (settle_sameShape o t id).keys
  parts x := by
    rw [get_settle]
    split
    next here =>
      subst here
      rw [Option.map_map]
      refine Option.map_congr fun n found => ?_
      exact congrArg (n.children, ·) (balanced n found)
    next => rfl

theorem scoringAt_settle : scoringAt (t.settle o id) id = scoringAt t id ↔ Balanced o t id := by
  rw [scoringAt, scoringAt, get_settle, if_pos rfl, Option.map_map, Balanced]
  cases t.get id with
  | none => simp
  | some n => simp [settled]

/-- The nodes of a path keep their scoring exactly if each is balanced before. -/
theorem settles_iff {items : List ResourceId} (distinct : items.Nodup) :
    (∀ p ∈ items, scoringAt (items.foldl (settle o) t) p = scoringAt t p) ↔ ∀ p ∈ items, Balanced o t p := by
  induction items generalizing t with
  | nil => simp
  | cons first rest ih =>
    obtain ⟨fresh, others⟩ := nodup_cons.mp distinct
    have own : scoringAt (rest.foldl (settle o) (t.settle o first)) first = scoringAt (t.settle o first) first :=
      congrArg (Option.map ResourceNode.scoring) (get_foldl_settle fresh _)
    rw [foldl_cons, forall_mem_cons, forall_mem_cons, own, scoringAt_settle]
    refine and_congr_right fun balanced => ?_
    have same := settle_scored balanced
    simp only [← scoringAt_of_same same, ← balanced_iff same]
    exact ih others

theorem ancestors_absent (absent : t.get id = none) : t.ancestors id = [] := by
  rw [ancestors, parentOf_of_absent absent, climb_none]

theorem scored_markDirty (t : ResourceTree V) (id : ResourceId) : Same scored t (t.markDirty id) :=
  markDirtyFrom_same (fun _ _ => rfl) _ _ t

def path (t : ResourceTree V) (id : ResourceId) (aggregateOrigin : Bool) : List ResourceId :=
  if aggregateOrigin then id :: t.ancestors id else t.ancestors id

theorem recompute_settles (t : ResourceTree V) (id : ResourceId) (aggregateOrigin : Bool) :
    ∃ origin, Same scored t origin ∧ ∀ p, scoringAt (t.recomputePathInner o id aggregateOrigin).1 p =
      scoringAt ((path t id aggregateOrigin).foldl (settle o) origin) p := by
  have shape := pathOrigin_same o links_blind t id aggregateOrigin
  rw [recomputePathInner, path]
  split
  next absent =>
    have absent := Option.isNone_iff_eq_none.mp absent
    refine ⟨t, .refl t, fun p => ?_⟩
    rw [ancestors_absent absent]
    cases aggregateOrigin with
    | false => rfl
    | true =>
      change _ = scoringAt (t.settle o id) p
      rw [scoringAt, scoringAt, get_settle]
      split
      next here => rw [here, absent]; rfl
      next => rfl
  next =>
    dsimp only
    rw [ancestors_sameShape shape]
    have marked := scored_markDirty t id
    cases aggregateOrigin with
    | true => exact ⟨t.markDirty id, marked, fun _ => rfl⟩
    | false =>
      refine ⟨((t.markDirty id).recomputeMerkle o id).clean id, ?_, fun _ => rfl⟩
      have hashed : Same scored (t.markDirty id) ((t.markDirty id).recomputeMerkle o id) := by
        rw [recomputeMerkle]
        split
        · exact .modify fun _ => rfl
        · exact .refl _
      exact (marked.trans hashed).trans (.modify fun _ => rfl)

theorem path_distinct (wf : Wf t) (id : ResourceId) (aggregateOrigin : Bool) : (path t id aggregateOrigin).Nodup := by
  have nodup : (id :: t.ancestors id).Nodup := path_nodup wf _ id
  cases aggregateOrigin with
  | true => exact nodup
  | false => exact (nodup_cons.mp nodup).2

theorem recompute_iff (wf : Wf t) (id : ResourceId) (aggregateOrigin : Bool) :
    (∀ p ∈ path t id aggregateOrigin, scoringAt (t.recomputePathInner o id aggregateOrigin).1 p = scoringAt t p) ↔
      ∀ p ∈ path t id aggregateOrigin, Balanced o t p := by
  obtain ⟨origin, same, scoring⟩ := recompute_settles (o := o) t id aggregateOrigin
  simp only [scoring, ← scoringAt_of_same same, ← balanced_iff same]
  exact settles_iff (path_distinct wf id aggregateOrigin)

theorem recompute_off (t : ResourceTree V) (off : p ∉ path t id aggregateOrigin) :
    scoringAt (t.recomputePathInner o id aggregateOrigin).1 p = scoringAt t p := by
  obtain ⟨origin, same, scoring⟩ := recompute_settles (o := o) t id aggregateOrigin
  rw [scoring, scoringAt, get_foldl_settle off]
  exact scoringAt_of_same same p

theorem contentAt_recompute (t : ResourceTree V) (id p : ResourceId) (aggregateOrigin : Bool) :
    contentAt (t.recomputePathInner o id aggregateOrigin).1 p = contentAt t p :=
  (recomputePathInner_same o (fun _ _ _ _ => rfl) t id aggregateOrigin).parts p

theorem contentAt_recomputePath (t : ResourceTree V) (id p : ResourceId) :
    contentAt (t.recomputePath o id) p = contentAt t p := contentAt_recompute t id p true

theorem factsAt_recompute (balanced : ∀ p ∈ path t id aggregateOrigin, Balanced o t p) (wf : Wf t) (p : ResourceId) :
    factsAt (t.recomputePathInner o id aggregateOrigin).1 p = factsAt t p := by
  refine Prod.ext (contentAt_recompute t id p aggregateOrigin) ?_
  by_cases on : p ∈ path t id aggregateOrigin
  · exact (recompute_iff wf id aggregateOrigin).mpr balanced p on
  · exact recompute_off t on

end

/-! ### One step -/

/-- The event's own change takes `t` to `t1`, and the scoring on `trail` is aggregated after it. -/
structure Makes (t : ResourceTree V) (event : MutationEvent V) (t1 : ResourceTree V) (trail : List ResourceId) :
    Prop where
  others : ∀ p, p ≠ event.id → factsAt t1 p = factsAt t p
  own : factsAt t1 event.id = tells event (factsAt t event.id)
  idle : Idle t event → factsAt t1 event.id = factsAt t event.id
  busy : ¬Idle t event → contentAt t1 event.id ≠ contentAt t event.id ∨
    event.id ∉ trail ∧ scoringAt t1 event.id ≠ scoringAt t event.id
  apart : event.id ∈ trail → contentAt t1 event.id = contentAt t event.id →
    scoringAt t1 event.id = scoringAt t event.id

inductive Applies (o : Outside V) (t : ResourceTree V) (event : MutationEvent V) : ResourceTree V → Prop
  | still (idle : Idle t event) (nothing : (bare t event).2 = []) : Applies o t event t
  | makes (id : ResourceId) (aggregateOrigin : Bool) (wf : Wf t1)
      (split : bare t event = (t1, path t1 id aggregateOrigin))
      (makes : Makes t event t1 (path t1 id aggregateOrigin)) :
    Applies o t event (t1.recomputePathInner o id aggregateOrigin).1

section
variable {o : Outside V} {signed : MutationEvent V → Prop} {t t1 t' : ResourceTree V} {event : MutationEvent V}
  {id p : ResourceId} {aggregateOrigin : Bool}

/-- An event's own change, with the aggregation that follows it, is told exactly if the content was signed, or is no
change, and the aggregation leaves everything. -/
theorem Makes.told_iff (makes : Makes t event t1 (path t1 id aggregateOrigin)) (wf : Wf t1) :
    Told signed ⟨t, .inl event, (t1.recomputePathInner o id aggregateOrigin).1⟩ ↔
      ((∃ c, signed c ∧ c.unsigned = event.unsigned) ∨ Idle t event) ∧
        ∀ p ∈ path t1 id aggregateOrigin, Balanced o t1 p := by
  have content (p : ResourceId) := contentAt_recompute (o := o) t1 id p aggregateOrigin
  constructor
  · intro told
    constructor
    · by_cases still : Idle t event
      · exact .inr still
      · have changed : factsAt (t1.recomputePathInner o id aggregateOrigin).1 event.id ≠ factsAt t event.id := by
          intro same
          rcases makes.busy still with differs | ⟨off, differs⟩
          · exact differs ((content _).symm.trans (Prod.mk.inj same).1)
          · exact differs ((recompute_off t1 off).symm.trans (Prod.mk.inj same).2)
        obtain ⟨e, cause, -, known, -⟩ := told event.id changed
        cases cause
        exact .inl known
    · refine (recompute_iff wf id aggregateOrigin).mp fun p on => ?_
      by_cases changed : factsAt (t1.recomputePathInner o id aggregateOrigin).1 p = factsAt t p
      · by_cases here : p = event.id
        · subst here
          rw [makes.apart on ((content _).symm.trans (Prod.mk.inj changed).1)]
          exact (Prod.mk.inj changed).2
        · exact (Prod.mk.inj (changed.trans (makes.others p here).symm)).2
      · obtain ⟨e, cause, rfl, -, known⟩ := told p changed
        cases cause
        exact (Prod.mk.inj (known.trans makes.own.symm)).2
  · rintro ⟨known, balanced⟩ p changed
    have kept := factsAt_recompute balanced wf p
    rw [kept] at changed ⊢
    have here : p = event.id := by
      by_contra other
      exact changed (makes.others p other)
    subst here
    exact ⟨event, rfl, rfl, known.resolve_right fun still => changed (makes.idle still), makes.own⟩

theorem told_unchanged (same : ∀ p, factsAt t' p = factsAt t p) : Told signed ⟨t, cause, t'⟩ :=
  fun p changed => absurd (same p) changed

theorem contentAt_modify_self {id : ResourceId} (change : ResourceNode V → ResourceNode V) :
    contentAt (t.modify id change) id = (t.get id).map fun n => content (change n) := by
  rw [contentAt, get_modify_self, Option.map_map]
  rfl

theorem scoringAt_modify_self {id : ResourceId} (change : ResourceNode V → ResourceNode V) :
    scoringAt (t.modify id change) id = (t.get id).map fun n => (change n).scoring := by
  rw [scoringAt, get_modify_self, Option.map_map]
  rfl

theorem factsAt_modify_of_ne (other : p ≠ id) (change : ResourceNode V → ResourceNode V) :
    factsAt (t.modify id change) p = factsAt t p := by
  rw [factsAt, contentAt, scoringAt, get_modify_of_ne other]
  rfl

/-- A node comes or goes. -/
theorem Makes.of_presence (others : ∀ p, p ≠ event.id → factsAt t1 p = factsAt t p)
    (own : factsAt t1 event.id = tells event (factsAt t event.id)) (busy : ¬Idle t event)
    (differs : contentAt t1 event.id ≠ contentAt t event.id) : Makes t event t1 trail where
  others := others
  own := own
  idle still := absurd still busy
  busy _ := .inl differs
  apart _ same := absurd same differs

theorem create_applies (wf : Wf t) (done : applyEvent o t (.create id kind parent timestamp signature) = .ok t') :
    Applies o t (.create id kind parent timestamp signature) t' := by
  rw [applyEvent] at done
  split at done
  next absent =>
    obtain ⟨inserted, made, rest⟩ := bind_ok_iff.mp done
    cases rest
    have absent := Option.isNone_iff_eq_none.mp absent
    have own : inserted.get id = some (.new id kind (some parent)) := by rw [get_insert made, if_pos rfl]
    refine .makes id true (wf.insert made) (by rw [bare, made]; rfl) (.of_presence (fun p other => ?_) ?_ ?_ ?_)
    · exact Prod.ext (parts_insert (fun _ _ => rfl) made other) (parts_insert (fun _ _ => rfl) made other)
    · change ((inserted.get id).map _, (inserted.get id).map _) = _
      rw [own]
      rfl
    · simp [Idle, absent]
    · change (inserted.get id).map content ≠ (t.get id).map content
      simp [own, absent]
  next present =>
    cases done
    have present : (t.get id).isSome = true := Option.isSome_iff_ne_none.mpr (by simpa using present)
    refine .still present ?_
    rw [bare]
    split
    next made =>
      rw [(insert_ok made).2.1] at present
      cases present
    next => rfl

theorem remove_applies (wf : Wf t) (done : applyEvent o t (.remove id timestamp signature) = .ok t') :
    Applies o t (.remove id timestamp signature) t' := by
  rw [applyEvent] at done
  split at done
  next present =>
    obtain ⟨⟨node, rest⟩, made, result⟩ := bind_ok_iff.mp done
    obtain ⟨notRoot, found, -⟩ := remove_ok made
    obtain ⟨parent, above, -⟩ := wf.hung found notRoot
    simp only [above] at result
    cases result
    have gone : rest.get id = none := by rw [get_remove made, if_pos rfl]
    refine .makes parent true (wf.remove made) (by simp [bare, made, above, path])
      (.of_presence (fun p other => ?_) ?_ ?_ ?_)
    · exact Prod.ext (parts_remove (fun _ _ => rfl) made other) (parts_remove (fun _ _ => rfl) made other)
    · change ((rest.get id).map _, (rest.get id).map _) = _
      rw [gone]
      rfl
    · simp [Idle, found]
    · change (rest.get id).map content ≠ (t.get id).map content
      simp [gone, found]
  next absent =>
    cases done
    have absent : (t.get id).isNone = true := by simpa using absent
    refine .still absent ?_
    rw [bare]
    split
    next made =>
      rw [(remove_ok made).2.1] at absent
      cases absent
    next => rfl

theorem updateMeta_makes (id : ResourceId) (key : String) (value : Option V) (trail : List ResourceId) :
    Makes t (.updateMeta id key value timestamp signature)
      (t.modify id fun node => { node with metadata := setOrRemove node.metadata key value }) trail where
  others p other := factsAt_modify_of_ne other _
  own := by
    refine Prod.ext ?_ (scoringAt_modify_self _)
    change contentAt _ id = (contentAt t id).map _
    rw [contentAt_modify_self, contentAt, Option.map_map]
    rfl
  idle still := by
    refine Prod.ext ?_ (scoringAt_modify_self _)
    change contentAt _ id = contentAt t id
    rw [contentAt_modify_self]
    exact Option.map_congr fun n found => congrArg (n.kind, ·) (still n found)
  busy busy := by
    refine .inl fun same => busy fun n found => ?_
    change contentAt _ id = contentAt t id at same
    rw [contentAt_modify_self, contentAt, found] at same
    exact (Prod.mk.inj (Option.some.inj same)).2
  apart _ _ := scoringAt_modify_self _

theorem updateScoring_makes (old new : NodeScoring) (off : id ∉ trail) :
    Makes t (.updateScoring id old new timestamp signature) (t.modify id fun node => { node with scoring := new })
      trail where
  others p other := factsAt_modify_of_ne other _
  own := by
    refine Prod.ext (contentAt_modify_self _) ?_
    change scoringAt _ id = (scoringAt t id).map _
    rw [scoringAt_modify_self, scoringAt, Option.map_map]
    rfl
  idle still := by
    refine Prod.ext (contentAt_modify_self _) ?_
    change scoringAt _ id = scoringAt t id
    rw [scoringAt_modify_self]
    exact Option.map_congr still
  busy busy := by
    refine .inr ⟨off, fun same => busy fun m known => ?_⟩
    change scoringAt _ id = scoringAt t id at same
    rw [scoringAt_modify_self, scoringAt, known] at same
    exact Option.some.inj same
  apart on := absurd on off

/-- Every event that the tree takes. -/
theorem applyEvent_applies (wf : Wf t) (done : applyEvent o t event = .ok t') : Applies o t event t' := by
  cases event with
  | create => exact create_applies wf done
  | remove => exact remove_applies wf done
  | updateMeta id key value timestamp signature =>
    cases done
    have shape : SameShape t (t.modify id fun node => { node with metadata := setOrRemove node.metadata key value }) :=
      .modify fun _ => rfl
    refine .makes id true (wf.sameShape shape) ?_ (updateMeta_makes id key value _)
    rw [bare, ← ancestors_sameShape shape id]
    rfl
  | updateScoring id old new timestamp signature =>
    rw [applyEvent] at done
    split at done
    next present =>
      obtain ⟨n, found⟩ := Option.isSome_iff_exists.mp present
      cases done
      have shape : SameShape t (t.modify id fun node => { node with scoring := new }) := .modify fun _ => rfl
      have wf := wf.sameShape shape
      rw [updateScoring, found]
      refine .makes id false wf ?_ (updateScoring_makes old new (nodup_cons.mp (path_nodup wf _ id)).1)
      rw [bare, ← ancestors_sameShape shape id]
      rfl
    next absent =>
      cases done
      have absent : t.get id = none := by simpa using absent
      refine .still (fun n found => ?_) (ancestors_absent absent)
      cases absent.symm.trans found
  | move =>
    cases done
    exact .still trivial rfl

theorem Applies.told_iff (applies : Applies o t event t') : Told signed ⟨t, .inl event, t'⟩ ↔
    ((∃ c, signed c ∧ c.unsigned = event.unsigned) ∨ Idle t event) ∧
      ∀ p ∈ (bare t event).2, Balanced o (bare t event).1 p := by
  cases applies with
  | still idle nothing =>
    rw [nothing]
    exact iff_of_true (told_unchanged fun _ => rfl) ⟨.inr idle, fun _ => nofun⟩
  | makes id aggregateOrigin wf split makes =>
    rw [split]
    exact makes.told_iff wf

theorem Applies.wf (applies : Applies o t event t') (wf : Wf t) : Wf t' := by
  cases applies with
  | still => exact wf
  | makes id aggregateOrigin wf => exact wf.sameShape (recomputePathInner_sameShape o _ _ _)

theorem insert_refused (absent : t.get id = none) (refused : t.insert id kind parent = .error e)
    (slash : startsWith id.path "/" = true) : t.get parent = none := by
  by_contra present
  have present : (t.get parent).isSome = true := Option.isSome_iff_ne_none.mpr present
  simp [ResourceTree.insert, slash, absent, present, ensure, bind, Except.bind, pure, Except.pure] at refused

variable {payload : DiffNodePayload V}

/-- Either the node is there, or it is put where the payload says, or nothing is done. -/
theorem ensureNode_cases (t : ResourceTree V) (payload : DiffNodePayload V) :
    ((t.get payload.id).isSome = true ∧ ensureNode t payload = t) ∨
      (∃ parent, payload.parent = some parent ∧ t.insert payload.id payload.kind parent = .ok (ensureNode t payload)) ∨
      t.get payload.id = none ∧ ensureNode t payload = t ∧
        ∀ parent, payload.parent = some parent → startsWith payload.id.path "/" = true → t.get parent = none := by
  cases found : t.get payload.id with
  | some n => exact .inl ⟨rfl, by simp [ensureNode, found]⟩
  | none =>
    refine .inr ?_
    cases above : payload.parent with
    | none => exact .inr ⟨rfl, by simp [ensureNode, found, above], fun _ => nofun⟩
    | some parent =>
      cases made : t.insert payload.id payload.kind parent with
      | ok inserted => exact .inl ⟨parent, rfl, by simp [ensureNode, found, above, made]⟩
      | error e =>
        refine .inr ⟨rfl, by simp [ensureNode, found, above, made], ?_⟩
        rintro _ ⟨⟩
        exact insert_refused found made

theorem told_payload : Told signed ⟨t, .inr payload, t'⟩ ↔ ∀ p, factsAt t' p = factsAt t p := by
  refine ⟨fun told p => ?_, told_unchanged⟩
  by_contra changed
  obtain ⟨e, cause, -⟩ := told p changed
  cases cause

/-- After the payload is written over a node, the aggregation gives every node the scoring it had. -/
theorem overwrite_iff (wf : Wf t) (found : t.get payload.id = some n) :
    (∀ p, scoringAt ((t.modify payload.id (overwritten payload)).recomputePath o payload.id) p = scoringAt t p) ↔
      settledScoring o t { n with scoring := payload.scoring } = n.scoring ∧
        ∀ p ∈ t.ancestors payload.id, Balanced o t p := by
  have shape : SameShape t (t.modify payload.id (overwritten payload)) := .modify fun _ => rfl
  have distinct : (payload.id :: t.ancestors payload.id).Nodup := path_nodup wf _ payload.id
  obtain ⟨fresh, others⟩ := nodup_cons.mp distinct
  obtain ⟨origin, same, scoring⟩ := recompute_settles (o := o) (t.modify payload.id (overwritten payload)) payload.id
    true
  unfold recomputePath
  rw [path, if_pos rfl, ancestors_sameShape shape, foldl_cons] at scoring
  have own : ((origin.settle o payload.id).get payload.id).map scored =
      some (n.children, settledScoring o t { n with scoring := payload.scoring }) := by
    have parts := same.parts payload.id
    rw [get_modify_self, found] at parts
    obtain ⟨m, there, alike⟩ := Option.map_eq_some_iff.mp parts
    have scorings : (t.modify payload.id (overwritten payload)).childScorings (overwritten payload n) =
      t.childScorings n :=
      filterMap_congr fun c child => by
        have other : c ≠ payload.id := by
          rintro rfl
          exact not_child_of_self wf found child
        rw [get_modify_of_ne other]
    have settles : settledScoring o (t.modify payload.id (overwritten payload)) (overwritten payload n) =
        settledScoring o t { n with scoring := payload.scoring } := by
      rw [settledScoring, scorings]
      rfl
    rw [get_settle, if_pos rfl, there, ← settles, ← settledScoring_of_same same alike]
    exact congrArg (fun children => some (children, settledScoring o origin m)) (Prod.mk.inj alike).1
  have alike (kept : settledScoring o t { n with scoring := payload.scoring } = n.scoring) :
      Same scored t (origin.settle o payload.id) := by
    refine ⟨(settle_sameShape o origin payload.id).keys.trans (same.keys.trans shape.keys), fun p => ?_⟩
    by_cases here : p = payload.id
    · rw [here, own, found, kept]
      rfl
    · rw [get_settle, if_neg here, same.parts, get_modify_of_ne here]
  constructor
  · intro kept
    have here := kept payload.id
    have settled := congrArg (Option.map Prod.snd) own
    rw [Option.map_map] at settled
    rw [scoring, scoringAt, get_foldl_settle fresh, scoringAt, found] at here
    have settled := Option.some.inj (settled.symm.trans here)
    refine ⟨settled, ?_⟩
    have after := alike settled
    simp only [scoring, ← scoringAt_of_same after] at kept
    simp only [← balanced_iff after]
    exact (settles_iff others).mp fun p _ => kept p
  · rintro ⟨settled, balanced⟩ p
    have after := alike settled
    simp only [← balanced_iff after] at balanced
    rw [scoring, ← scoringAt_of_same after]
    by_cases on : p ∈ t.ancestors payload.id
    · exact (settles_iff others).mpr balanced p on
    · rw [scoringAt, get_foldl_settle on]
      rfl

theorem payload_told_iff (wf : Wf t) : Told signed ⟨t, .inr payload, reconcile o t payload⟩ ↔ Agrees o t payload := by
  rw [told_payload, Agrees, reconcile]
  obtain ⟨present, stays⟩ | ⟨parent, above, made⟩ | ⟨absent, stays, nowhere⟩ := ensureNode_cases t payload
  · obtain ⟨n, found⟩ := Option.isSome_iff_exists.mp present
    have content : (∀ p, contentAt ((t.modify payload.id (overwritten payload)).recomputePath o payload.id) p =
        contentAt t p) ↔ content n = (payload.kind, payload.metadata) := by
      simp only [contentAt_recomputePath]
      constructor
      · intro same
        have here := same payload.id
        rw [contentAt_modify_self, contentAt, found] at here
        exact (Option.some.inj here).symm
      · intro same p
        by_cases here : p = payload.id
        · rw [here, contentAt_modify_self, contentAt, found]
          exact congrArg some same.symm
        · rw [contentAt, get_modify_of_ne here]
          rfl
    rw [stays, found]
    simp only [factsAt, Prod.mk.injEq, forall_and]
    exact and_congr content (overwrite_iff wf found)
  · obtain ⟨slash, absent, parentHere, -⟩ := insert_ok made
    rw [absent]
    refine iff_of_false (fun same => ?_) fun nowhere => ?_
    · have here := (Prod.mk.inj (same payload.id)).1
      rw [contentAt_recomputePath, contentAt_modify_self, get_insert made, if_pos rfl, contentAt, absent] at here
      cases here
    · rw [nowhere parent above slash] at parentHere
      cases parentHere
  · rw [stays, absent]
    have gone : (t.modify payload.id (overwritten payload)).get payload.id =
      none := by rw [get_modify_self, absent]; rfl
    refine iff_of_true (fun p => ?_) nowhere
    rw [recomputePath, recomputePathInner, if_pos (Option.isNone_iff_eq_none.mpr gone)]
    by_cases here : p = payload.id
    · rw [here, factsAt, contentAt, scoringAt, gone, factsAt, contentAt, scoringAt, absent]
    · exact factsAt_modify_of_ne here _

/-! ### Trees stay trees -/

theorem reconcile_wf (wf : Wf t) : Wf (reconcile o t payload) := by
  have ensured : Wf (ensureNode t payload) := by
    obtain ⟨-, stays⟩ | ⟨parent, -, made⟩ | ⟨-, stays, -⟩ := ensureNode_cases t payload
    · rwa [stays]
    · exact wf.insert made
    · rwa [stays]
  refine Wf.sameShape (ensured.sameShape ?_) (recomputePathInner_sameShape o _ _ true)
  exact .modify fun _ => rfl

theorem leads_wf (leads : Leads t call t') (keeps : ∀ step ∈ call, Wf step.before → Wf step.after) (wf : Wf t) :
    ∀ step ∈ call, Wf step.before := by
  induction leads with
  | nil => exact fun _ => nofun
  | cons _ ih =>
    obtain ⟨first, rest⟩ := forall_mem_cons.mp keeps
    exact forall_mem_cons.mpr ⟨wf, ih rest (first wf)⟩

theorem leads_factsAt (leads : Leads t call t') (told : ∀ step ∈ call, Told signed step)
    (silent : ∀ step ∈ call, ∀ e, step.cause = .inl e → e.id = p → ¬∃ c, signed c ∧ c.unsigned = e.unsigned) :
    factsAt t' p = factsAt t p := by
  induction leads with
  | nil => rfl
  | cons _ ih =>
    obtain ⟨first, rest⟩ := forall_mem_cons.mp told
    obtain ⟨silent, others⟩ := forall_mem_cons.mp silent
    refine (ih rest others).trans ?_
    by_contra changed
    obtain ⟨e, cause, named, known, -⟩ := first p changed
    exact silent e cause named known

end

def oneMessage (message : Octets) : Signing Unit where
  verify _ bytes _ := if bytes = message then .ok () else .error "signature error"
  rfc3339 _ := "2026-01-01T00:00:00+00:00"

def sealing : Option Octets := some (replicate 64 0)

def zoneEvent (value : V) : MutationEvent V := .updateMeta .root "zone" (some value) .epoch sealing

def plantedDiff : MerkleDiff V where
  localRoot := Digest.zero
  remoteRoot := Digest.zero
  entries := [⟨⟨"/x"⟩, .added, some ⟨⟨"/x"⟩, .service, some .root, [], .default, Digest.zero⟩, []⟩]
  nodesVisited := 1

def bareDiff : MerkleDiff V where
  localRoot := Digest.zero
  remoteRoot := Digest.zero
  entries := [⟨⟨"/x"⟩, .removed, none, []⟩]
  nodesVisited := 1

theorem planted_content [BEq V] (o : Outside V) (s : Signing K) (pubkey : K) :
    contentAt (applyMerkleDiffVerified o s ⟨.new, []⟩ plantedDiff [] pubkey).1.tree ⟨"/x"⟩ = some (.service, []) := by
  change contentAt (reconcile o .new ⟨⟨"/x"⟩, .service, some .root, [], .default, Digest.zero⟩) ⟨"/x"⟩ = _
  rw [reconcile, contentAt_recomputePath, contentAt_modify_self, ensureNode]
  dsimp only
  rfl

theorem zone_content [BEq V] (o : Outside V) (s : Signing K) (pubkey : K) (value : V)
    (verified : verifyMutationSignature s (zoneEvent value) pubkey = .ok ()) :
    contentAt (applyMerkleDiffVerified o s ⟨.new, []⟩ bareDiff [zoneEvent value] pubkey).1.tree .root =
      some (.namespace_, [("zone", value)]) := by
  let zoned : ResourceTree V := (modify .new .root fun node =>
    { node with metadata := setOrRemove node.metadata "zone" (some value) }).recomputePath o .root
  have applied : applyRemoteMutationVerified o s ⟨.new, []⟩ (zoneEvent value) pubkey =
    .ok ⟨zoned, [zoneEvent value]⟩ := by
    rw [applyRemoteMutationVerified, verified]
    rfl
  have looped : applyEvents o s pubkey ⟨.new, []⟩ [zoneEvent value] 0 = (⟨zoned, [zoneEvent value]⟩, .ok 1) := by
    rw [applyEvents]
    simp only [any_nil, Bool.false_eq_true, if_false, applied]
    rfl
  have whole : (applyMerkleDiffVerified o s ⟨.new, []⟩ bareDiff [zoneEvent value] pubkey).1.tree = zoned := by
    have busy : (bareDiff : MerkleDiff V).inSync = false := rfl
    rw [applyMerkleDiffVerified, busy, looped]
    rfl
  rw [whole, contentAt_recomputePath, contentAt_modify_self]
  rfl

def raised : NodeScoring := { NodeScoring.default with trust := ⟨0x3f800000⟩ }

def raisedEvent : MutationEvent Unit := .updateScoring ⟨"/a"⟩ .default raised .epoch sealing

end Weftos.Resource.Signed
