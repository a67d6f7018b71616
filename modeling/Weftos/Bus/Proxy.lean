import Weftos.Bus.Mesh

/-! What a step of the node can do to its topics and its mesh subscriptions. -/

namespace Weftos.Bus.Mesh
open Lib.Outcome Lib.Text Bus.Types Broker List Function

variable (topics : Key → Option Topic) (cfg : MeshConfig) (offers : Key → Option Offer) (gone : List (Nat × Key))
  (r : Remote) (subs : List (Nat × Sub)) {entries : List (Nat × Remote)}

/-! ### Steps -/

inductive Change (env : Env) (cfg : MeshConfig) (n : Node) : Act → Node → Prop where
  | refused (act : Act) : Change env cfg n act n
  | called (change : Broker.Change env n.core act core) :
    Change env cfg n (.call act) { n with core := core }
  | asked (offered : n.mesh.offers ask.key = some o) (project : ask.project = o.project) :
    Change env cfg n (.meshCheck conn policy name schema raw readers now)
      { n with asking := update n.asking conn (some ask) }
  | denied :
    Change env cfg n (.meshCommit conn policy) { n with asking := update n.asking conn none }
  | committed (waiting : n.asking conn = some ask) :
    Change env cfg n (.meshCommit conn policy) (n.meshCommit env conn sess ask)
  | adverted {topics : List Advert} :
    Change env cfg n (.meshAdvert node topics expires) { n with mesh := n.mesh.advert node topics expires }
  | taken {r : Remote}
    (found : n.mesh.remoteOf node rsub = some r) (accepts : n.core.Accepts (n.remotePut node r seq tNs body)) :
    Change env cfg n (.meshReading node rsub seq tNs body now recvNs)
      { n with
        core := n.core.write env (n.remotePut node r seq tNs body) recvNs
        mesh := n.mesh.modify node rsub fun r => (r.take cfg now).2 }
  | unread :
    Change env cfg n (.meshReading node rsub seq tNs body now recvNs)
      { n with mesh := n.mesh.modify node rsub fun r => (r.take cfg now).2 }
  | ended :
    Change env cfg n (.meshEnded node rsub why now)
      { n with mesh := n.mesh.modify node rsub fun r => r.broke cfg why now }
  | peerDown :
    Change env cfg n (.meshPeerDown node) { n with mesh := { n.mesh with offers := withoutNode n.mesh.offers node } }
  | due : Change env cfg n (.meshDue now) (n.meshDue cfg now).2

section
variable {env : Env} {cfg : MeshConfig} {n : Node}

theorem MeshState.offerFor_ok {m : MeshState} (found : m.offerFor key name schema raw now no = .ok o) :
    m.offers key = some o := by
  simp only [MeshState.offerFor, bind_ok_iff, require_ok_iff, ensure_ok_iff, pure_ok_iff] at found
  obtain ⟨_, offered, _, _, _, _, _, _, rfl⟩ := found
  exact (Option.filter_eq_some_iff.mp offered).1

theorem Node.meshCheck_ok {policy : BusPolicy}
    (checked : n.meshCheck env cfg policy sess name schema raw readers now = .ok ask) :
    ∃ o, n.mesh.offers ask.key = some o ∧ ask.project = o.project := by
  simp only [Node.meshCheck, bind_ok_iff, require_ok_iff, ensure_ok_iff, pure_ok_iff] at checked
  obtain ⟨_, _, _, _, _, _, _, _, _, _, _, _, o, offer, _, _, _, _, rfl⟩ := checked
  exact ⟨o, MeshState.offerFor_ok offer, rfl⟩

theorem Node.check_change (conn : Nat) (policy : BusPolicy) (name schema : String) (raw : Bool) (readers now : Nat) :
    Change env cfg n (.meshCheck conn policy name schema raw readers now)
      (n.check env cfg conn policy name schema raw readers now) := by
  unfold Node.check
  cases n.core.sessions conn with
  | none => exact .refused _
  | some sess =>
    dsimp only
    cases checked : n.meshCheck env cfg policy sess name schema raw readers now with
    | error _ => exact .refused _
    | ok ask =>
      obtain ⟨o, offered, project⟩ := Node.meshCheck_ok checked
      exact .asked offered project

theorem Node.commit_change (conn : Nat) (policy : BusPolicy) :
    Change env cfg n (.meshCommit conn policy) (n.commit env conn policy) := by
  unfold Node.commit
  cases waiting : n.asking conn with
  | none => exact .refused _
  | some ask =>
    cases n.core.sessions conn with
    | none => exact .refused _
    | some sess =>
      dsimp only
      cases policy.decide ask.req with
      | some _ => exact .denied
      | none => exact .committed waiting

theorem Node.meshReading_change (node : String) (rsub seq tNs : Nat) (body : Lib.Json.Value) (now recvNs : Nat) :
    Change env cfg n (.meshReading node rsub seq tNs body now recvNs)
      (n.meshReading env cfg node rsub seq tNs body now recvNs) := by
  unfold Node.meshReading
  cases found : n.mesh.remoteOf node rsub with
  | none => exact .refused _
  | some r =>
    dsimp only
    cases put : n.core.put env (n.remotePut node r seq tNs body) recvNs with
    | error _ => exact .unread
    | ok result =>
      obtain ⟨accepts, next⟩ := State.put_ok put
      rw [State.attempt, next]
      exact .taken found accepts

theorem step_change (env : Env) (cfg : MeshConfig) (n : Node) (act : Act) :
    Change env cfg n act (step env cfg n act) := by
  cases act with
  | call act =>
    by_cases busy : (caller act).any n.waiting = true
    · rw [step, if_pos busy]
      exact .refused _
    · rw [step, if_neg busy]
      exact .called (Broker.step_change env n.core act)
  | meshCheck conn =>
    by_cases busy : n.waiting conn = true
    · rw [step, if_pos busy]
      exact .refused _
    · rw [step, if_neg busy]
      exact Node.check_change ..
  | meshCommit conn policy => exact Node.commit_change ..
  | meshAdvert => exact .adverted
  | meshReading => exact Node.meshReading_change ..
  | meshEnded => exact .ended
  | meshPeerDown node => exact .peerDown
  | meshDue now => exact .due

end

def isProxy (writer : String) : Bool := startsWith writer "@mesh:"

/-- What the first lock region of a `subscribe_mesh` found of its topic still holds. -/
def settled (core : State) (ask : Ask) : Bool :=
  ask.stream || (core.topics ask.key).all fun t =>
    t.writer.all isProxy && t.projectId = ask.project && t.schema = ask.schema

/-! ### Topics stay -/

def Stay (before after : Key → Option Topic) : Prop :=
  ∀ key t, before key = some t → ∃ t', after key = some t' ∧ t'.projectId = t.projectId ∧ t'.schema = t.schema

theorem Stay.refl : Stay topics topics := fun _ t found => ⟨t, found, rfl, rfl⟩

theorem Stay.trans (one : Stay first second) (two : Stay second third) : Stay first third := by
  intro key t found
  obtain ⟨t', found', project, schema⟩ := one key t found
  obtain ⟨t'', found'', project', schema'⟩ := two key t' found'
  exact ⟨t'', found'', project'.trans project, schema'.trans schema⟩

theorem Stay.update (key : Key) (changed : Option Topic)
    (same : ∀ t, topics key = some t → ∃ t', changed = some t' ∧ t'.projectId = t.projectId ∧ t'.schema = t.schema) :
    Stay topics (update topics key changed) := by
  intro other t found
  by_cases here : other = key
  · subst here
    rw [update_self]
    exact same t found
  · rw [update_of_ne here]
    exact ⟨t, found, rfl, rfl⟩

theorem topicsChange_stay {gone : Option String} {topics : Key → Option Topic}
    (change : TopicsChange s gone topics) : Stay s.topics topics := by
  cases change with
  | same => exact .refl _
  | written p t accepts writer project schema =>
    apply Stay.update
    intro old found
    have same : s.topicOr p.reading.key p.reading.schema p.project = old := by simp [State.topicOr, found]
    refine ⟨t, rfl, project.trans ?_, schema.trans ?_⟩
    · rw [← same, accepts.project]
    · rw [← same, accepts.schema]
  | revoked id =>
    intro key t found
    refine ⟨t.without id, congrArg (Option.map (·.without id)) found, ?_⟩
    unfold Topic.without
    split_ifs <;> exact ⟨rfl, rfl⟩

theorem claimTopic_stay (ask : Ask) : Stay topics (claimTopic topics ask) := by
  unfold claimTopic
  split_ifs
  · exact .refl _
  · apply Stay.update
    intro t found
    exact ⟨_, rfl, by simp [found], by simp [found]⟩

theorem foldl_release_stay :
    Stay topics (gone.foldl release topics) := by
  induction gone generalizing topics with
  | nil => exact .refl _
  | cons entry gone ih =>
    refine Stay.trans (.update _ _ _ ?_) (ih _)
    intro t found
    refine ⟨released t, congrArg (Option.map released) found, ?_⟩
    unfold released
    split_ifs <;> exact ⟨rfl, rfl⟩

theorem foldl_release_of_notMem (kept : key ∉ gone.map (·.2)) : gone.foldl release topics key = topics key := by
  induction gone generalizing topics with
  | nil => rfl
  | cons entry gone ih =>
    rw [map_cons, mem_cons, not_or] at kept
    rw [foldl_cons, ih _ kept.2]
    exact update_of_ne kept.1 ..

/-! ### What a frame does to a mesh subscription -/

structure SameRemote (r r' : Remote) : Prop where
  key : r'.key = r.key
  stream : r'.stream = r.stream
  offered : r'.offered = r.offered

theorem Remote.take_same (now : Nat) : SameRemote r (r.take cfg now).2 := by
  unfold Remote.take
  dsimp only
  split_ifs <;> exact ⟨rfl, rfl, rfl⟩

theorem Remote.broke_same (why : String) (now : Nat) : SameRemote r (r.broke cfg why now) :=
  ⟨rfl, rfl, rfl⟩

section
variable {m : MeshState} {node : String} {rsub : Nat} {change : Remote → Remote} (same : ∀ r, SameRemote r (change r))
include same

theorem MeshState.modify_keys : (m.modify node rsub change).remote.map (·.2.key) = m.remote.map (·.2.key) := by
  rw [MeshState.modify, map_map]
  apply map_congr_left
  intro e _
  show (if _ then (e.1, change e.2) else e).2.key = e.2.key
  split_ifs
  · exact (same e.2).key
  · rfl

theorem MeshState.mem_modify (listed : e ∈ (m.modify node rsub change).remote) :
    ∃ old ∈ m.remote, SameRemote old.2 e.2 := by
  obtain ⟨old, there, rfl⟩ := mem_map.mp listed
  refine ⟨old, there, ?_⟩
  split_ifs
  · exact same old.2
  · exact ⟨rfl, rfl, rfl⟩

end

/-! ### What a pump does to the mesh subscriptions -/

/-- A mesh subscription that is kept: it is the one it was, or subscribed under an offer. -/
structure Turn (offers : Key → Option Offer) (r r' : Remote) : Prop where
  key : r'.key = r.key
  stream : r'.stream.isSome = r.stream.isSome
  offered : r'.offered = r.offered ∨ ∃ o, offers r.key = some o ∧ r'.offered = o.project

structure OwedFrom (offers : Key → Option Offer) (entries : List (Nat × Remote)) (acc out : Owed) : Prop where
  kept : ∀ e ∈ out.remote, e ∈ acc.remote ∨ ∃ e₀ ∈ entries, Turn offers e₀.2 e.2
  keys : (out.remote.map (·.2.key) ++ out.gone.map (·.2)).Perm
    (acc.remote.map (·.2.key) ++ acc.gone.map (·.2) ++ entries.map (·.2.key))
  topics : ∀ key, out.topics key = acc.topics key ∨ key ∈ entries.map (·.2.key) ∧
    ∃ node, out.topics key = (acc.topics key).map fun t => { t with writer := some (proxyWriter node) }

theorem Remote.renew_turn (id now : Nat) :
    Turn offers r (r.renew cfg id now).1 := by
  unfold Remote.renew
  split_ifs <;> exact ⟨rfl, rfl, .inl rfl⟩

theorem owe_owedFrom (now : Nat) (acc : Owed) (entry : Nat × Remote) :
    OwedFrom offers [entry] acc (owe cfg offers subs now acc entry) := by
  obtain ⟨id, r⟩ := entry
  have turn := r.renew_turn cfg offers id now
  have front (keys gone : List Key) (key : Key) : (keys ++ [key] ++ gone).Perm (keys ++ gone ++ [key]) := by
    have swap : ([key] ++ gone).Perm (gone ++ [key]) := perm_append_comm
    simpa using swap.append_left keys
  unfold owe
  dsimp only
  by_cases read : subs.any (fun sub => readsRemote r sub.2) = true
  · rw [if_pos read]
    cases found : (offers (r.renew cfg id now).1.key).filter _ with
    | none =>
      refine ⟨?_, ?_, fun _ => .inl rfl⟩
      · intro e listed
        rcases mem_append.mp listed with before | new
        · exact .inl before
        · obtain rfl := mem_singleton.mp new
          exact .inr ⟨_, mem_singleton.mpr rfl, turn⟩
      · simpa [turn.key] using front (acc.remote.map (·.2.key)) (acc.gone.map (·.2)) r.key
    | some o =>
      have offered := (Option.filter_eq_some_iff.mp found).1
      rw [turn.key] at offered
      have moved : Turn offers r ((r.renew cfg id now).1.follow cfg o now) :=
        ⟨turn.key, by simpa [Remote.follow] using turn.stream, .inr ⟨o, offered, rfl⟩⟩
      refine ⟨?_, ?_, ?_⟩
      · intro e listed
        rcases mem_append.mp listed with before | new
        · exact .inl before
        · obtain rfl := mem_singleton.mp new
          exact .inr ⟨_, mem_singleton.mpr rfl, moved⟩
      · simpa [moved.key] using front (acc.remote.map (·.2.key)) (acc.gone.map (·.2)) r.key
      · intro key
        by_cases here : key = r.key
        · subst here
          refine .inr ⟨mem_singleton.mpr rfl, o.node, ?_⟩
          dsimp only
          rw [moved.key, update_self]
          rfl
        · refine .inl ?_
          dsimp only
          rw [moved.key, update_of_ne here]
  · rw [if_neg read]
    refine ⟨fun e listed => .inl listed, ?_, fun _ => .inl rfl⟩
    simp [← append_assoc]

theorem OwedFrom.cons {offers : Key → Option Offer} (one : OwedFrom offers [entry] acc mid)
    (rest : OwedFrom offers entries mid out) : OwedFrom offers (entry :: entries) acc out where
  kept e listed := by
    rcases rest.kept e listed with before | ⟨e₀, there, turn⟩
    · rcases one.kept e before with earlier | ⟨e₀, here, turn⟩
      · exact .inl earlier
      · exact .inr ⟨e₀, mem_cons.mpr (.inl (mem_singleton.mp here)), turn⟩
    · exact .inr ⟨e₀, mem_cons_of_mem _ there, turn⟩
  keys := by
    refine rest.keys.trans ?_
    simpa [append_assoc] using one.keys.append_right (entries.map (·.2.key))
  topics key := by
    rcases one.topics key with same | ⟨here, node, changed⟩
    · rcases rest.topics key with same' | ⟨there, node, changed⟩
      · exact .inl (same'.trans same)
      · rw [same] at changed
        exact .inr ⟨mem_cons_of_mem _ there, node, changed⟩
    · have here : key ∈ (entry :: entries).map (·.2.key) :=
        mem_cons.mpr (.inl (mem_singleton.mp here))
      rcases rest.topics key with same' | ⟨_, node', changed'⟩
      · exact .inr ⟨here, node, same'.trans changed⟩
      · refine .inr ⟨here, node', ?_⟩
        rw [changed', changed, Option.map_map]
        rfl

theorem foldl_owedFrom (now : Nat) (acc : Owed) (entries : List (Nat × Remote)) :
    OwedFrom offers entries acc (entries.foldl (owe cfg offers subs now) acc) := by
  induction entries generalizing acc with
  | nil => exact ⟨fun e listed => .inl listed, by simp, fun _ => .inl rfl⟩
  | cons entry entries ih => exact (owe_owedFrom cfg offers subs now acc entry).cons (ih _)

theorem Node.owedFrom (n : Node) (now : Nat) :
    OwedFrom n.mesh.offers n.mesh.remote ⟨n.core.topics, [], [], []⟩ (n.owed cfg now) := foldl_owedFrom ..

theorem OwedFrom.stay (owed : OwedFrom offers entries acc out) : Stay acc.topics out.topics := by
  intro key t found
  rcases owed.topics key with same | ⟨_, node, changed⟩
  · exact ⟨t, same.trans found, rfl, rfl⟩
  · exact ⟨_, changed.trans (congrArg _ found), rfl, rfl⟩

theorem Node.meshDue_stay (n : Node) (now : Nat) :
    Stay n.core.topics (n.meshDue cfg now).2.core.topics :=
  (n.owedFrom cfg now).stay.trans (foldl_release_stay _ _)

theorem Change.stay {cfg : MeshConfig} {n next : Node} (change : Change env cfg n act next) :
    Stay n.core.topics next.core.topics := by
  cases change with
  | called change => exact topicsChange_stay change.topics
  | committed => exact claimTopic_stay _ _
  | taken found accepts => exact topicsChange_stay (State.write_topics none accepts)
  | due => exact n.meshDue_stay cfg _
  | refused | asked | denied | adverted | unread | ended | peerDown => exact .refl _

end Weftos.Bus.Mesh
