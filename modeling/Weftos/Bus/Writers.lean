import Weftos.Bus.Proxy

/-! A live local writer keeps its topic: who can become the writer of a topic that a
registered instance writes. -/

namespace Weftos.Bus.Writers
open Lib.Run Lib.Text Bus.Types Broker Bus.Mesh List Function

def writtenHere (core : State) (key : Key) : Bool :=
  (core.topics key).any fun t => t.writer.any fun w => (core.instances w).isSome

/-- No instance id starts with `@`, no second lock region finds its topic changed, and no
stream of another node has the key of a topic written here. -/
def calm (n : Node) : Mesh.Act → Bool
  | .call (.register spec _) => !startsWith spec.instanceId "@"
  | .meshCommit conn _ => (n.asking conn).all (settled n.core)
  | .meshDue _ => n.mesh.remote.all fun e => e.2.stream.isNone || !writtenHere n.core e.2.key
  | _ => true

def revokes (id : String) : Mesh.Act → Bool
  | .call act => act.gone = some id
  | _ => false

/-! ### Proxy writers -/

theorem isProxy_proxyWriter (node : String) : isProxy (proxyWriter node) = true := by
  simp [isProxy, proxyWriter, startsWith]

theorem at_of_isProxy (proxy : isProxy writer = true) : startsWith writer "@" = true := by
  have long := isPrefixOf_iff_prefix.mp proxy
  have short : "@".toList <+: "@mesh:".toList := by decide
  exact isPrefixOf_iff_prefix.mpr (short.trans long)

def Named (instances : String → Option Instance) : Prop :=
  ∀ id inst, instances id = some inst → startsWith id "@" = false

def Proxied (topics : Key → Option Topic) (key : Key) : Prop :=
  ∃ t w, topics key = some t ∧ t.writer = some w ∧ isProxy w = true

variable {topics : Key → Option Topic} {instances : String → Option Instance} {s : State}

/-- A proxy topic stays one through any call: nobody else is accepted as its writer, and
no instance of its writer's name can be revoked. -/
theorem Proxied.change (change : TopicsChange s gone topics)
    (named : Named s.instances) (proxied : Proxied s.topics key) : Proxied topics key := by
  obtain ⟨t, w, found, writer, proxy⟩ := proxied
  cases change with
  | same => exact ⟨t, w, found, writer, proxy⟩
  | written p t' accepts writer' =>
    by_cases here : key = p.reading.key
    · subst here
      have same : w = p.writer := by simpa [State.topicOr, found, writer] using accepts.writer
      exact ⟨t', p.writer, update_self .., writer', same ▸ proxy⟩
    · exact ⟨t, w, (update_of_ne here ..).trans found, writer, proxy⟩
  | revoked id inst _ live =>
    have other : t.writer ≠ some id := by
      intro same
      obtain rfl : w = id := Option.some.inj (writer.symm.trans same)
      have clash := (at_of_isProxy proxy).symm.trans (named w inst live)
      cases clash
    refine ⟨t, w, ?_, writer, proxy⟩
    show (s.topics key).map (·.without id) = some t
    rw [found, Option.map_some, Topic.without, if_neg other]

theorem Named.change (named : Named s.instances) (change : InstancesChange s act instances)
    (ok : ∀ spec token, act = .register spec token → startsWith spec.instanceId "@" = false) : Named instances := by
  intro id inst live
  cases change with
  | same => exact named id inst live
  | registered spec token =>
    by_cases new : id = spec.instanceId
    · exact new ▸ ok spec token rfl
    · exact named id inst ((update_of_ne new ..).symm.trans live)
  | revoked gone =>
    by_cases same : id = gone
    · subst same
      rw [update_self] at live
      cases live
    · exact named id inst ((update_of_ne same ..).symm.trans live)

structure Inv (n : Node) : Prop where
  named : Named n.core.instances
  keys : (n.mesh.remote.map (·.2.key)).Nodup
  proxies : ∀ e ∈ n.mesh.remote, e.2.stream = none → Proxied n.core.topics e.2.key

theorem Inv.new : Inv Node.new := ⟨nofun, nodup_nil, nofun⟩

section
variable {env : Env} {cfg : MeshConfig} {n : Node}

theorem claimTopic_proxied (topics : Key → Option Topic) (ask : Ask) (reading : ask.stream = false) :
    Proxied (claimTopic topics ask) ask.key := by
  rw [claimTopic, reading]
  exact ⟨_, _, update_self .., rfl, isProxy_proxyWriter _⟩

theorem Proxied.claim (proxied : Proxied topics key) (ask : Ask) : Proxied (claimTopic topics ask) key := by
  cases reading : ask.stream with
  | true =>
    rw [claimTopic, reading]
    exact proxied
  | false =>
    by_cases here : key = ask.key
    · exact here ▸ claimTopic_proxied topics ask reading
    · obtain ⟨t, w, found, writer, proxy⟩ := proxied
      refine ⟨t, w, ?_, writer, proxy⟩
      rw [claimTopic, reading]
      exact (update_of_ne here ..).trans found

theorem Inv.committed (inv : Inv n) (conn : Nat) (sess : Session) (ask : Ask) :
    Inv (n.meshCommit env conn sess ask) := by
  have old : ∀ e ∈ n.mesh.remote, e.2.stream = none → Proxied (claimTopic n.core.topics ask) e.2.key :=
    fun e listed reading => (inv.proxies e listed reading).claim ask
  by_cases exists_ : n.mesh.remote.any (fun e => e.2.kind = ask.key.1 && e.2.source = ask.key.2) = true
  · have same : (n.meshCommit env conn sess ask).mesh = n.mesh := if_pos exists_
    exact ⟨inv.named, same ▸ inv.keys, same ▸ old⟩
  · have added : (n.meshCommit env conn sess ask).mesh.remote = n.mesh.remote ++ [(n.mesh.next + 1, ask.remote)] := by
      show (n.mesh.addRemote ask).remote = _
      rw [MeshState.addRemote, if_neg exists_]
    have unused : ask.key ∉ n.mesh.remote.map (·.2.key) := by
      intro listed
      obtain ⟨e, there, same⟩ := mem_map.mp listed
      refine exists_ (any_eq_true.mpr ⟨e, there, ?_⟩)
      have kind : e.2.kind = ask.key.1 := congrArg Prod.fst same
      have source : e.2.source = ask.key.2 := congrArg Prod.snd same
      simp [kind, source]
    refine ⟨inv.named, ?_, ?_⟩
    · rw [added, map_append]
      exact List.Nodup.append inv.keys (nodup_singleton _) (by simpa [Ask.remote, Remote.key] using unused)
    · rw [added]
      intro e listed reading
      rcases mem_append.mp listed with before | new
      · exact old e before reading
      · obtain rfl := mem_singleton.mp new
        refine claimTopic_proxied _ ask ?_
        simpa [Ask.remote] using reading

theorem Inv.modify (inv : Inv n) (node : String) (rsub : Nat)
    (same : ∀ r, SameRemote r (change r)) : Inv { n with mesh := n.mesh.modify node rsub change } where
  named := inv.named
  keys := by
    have keys : (n.mesh.modify node rsub change).remote.map (·.2.key) = _ := MeshState.modify_keys same
    exact keys ▸ inv.keys
  proxies e listed reading := by
    obtain ⟨old, there, kept⟩ := MeshState.mem_modify same listed
    rw [kept.key]
    exact inv.proxies old there (kept.stream.symm.trans reading)

theorem Inv.due (inv : Inv n) (now : Nat) : Inv (n.meshDue cfg now).2 := by
  have owed := n.owedFrom cfg now
  have nodup : ((n.owed cfg now).remote.map (·.2.key) ++ (n.owed cfg now).gone.map (·.2)).Nodup :=
    owed.keys.symm.nodup (by simpa using inv.keys)
  rw [nodup_append] at nodup
  refine ⟨inv.named, nodup.1, ?_⟩
  intro e listed reading
  obtain ⟨old, there, turn⟩ := (owed.kept e listed).resolve_left not_mem_nil
  have before : old.2.stream = none := by
    have kept := turn.stream
    rw [reading] at kept
    simpa using kept.symm
  obtain ⟨t, w, found, writer, proxy⟩ := inv.proxies old there before
  have still : e.2.key ∉ (n.owed cfg now).gone.map (·.2) :=
    fun gone => nodup.2.2 _ (mem_map_of_mem listed) _ gone rfl
  show Proxied ((n.owed cfg now).gone.foldl release (n.owed cfg now).topics) e.2.key
  unfold Proxied
  rw [foldl_release_of_notMem _ _ still, turn.key]
  rcases owed.topics old.2.key with same | ⟨_, node, changed⟩
  · exact ⟨t, w, same.trans found, writer, proxy⟩
  · exact ⟨_, _, changed.trans (congrArg _ found), rfl, isProxy_proxyWriter node⟩

theorem Inv.step {next : Node} (inv : Inv n) (ok : calm n act = true) (change : Mesh.Change env cfg n act next) :
    Inv next := by
  cases change with
  | called change =>
    refine ⟨inv.named.change change.instances ?_, inv.keys, fun e listed reading =>
      (inv.proxies e listed reading).change change.topics inv.named⟩
    rintro spec token rfl
    simpa [calm] using ok
  | committed => exact inv.committed ..
  | @taken node rsub _ _ _ now _ r found accepts =>
    have kept := inv.modify node rsub fun r => r.take_same cfg now
    refine ⟨inv.named, kept.keys, fun e listed reading => ?_⟩
    exact (kept.proxies e listed reading).change (State.write_topics none accepts) inv.named
  | @unread _ _ _ _ _ now _ => exact inv.modify _ _ fun r => r.take_same cfg now
  | @ended _ _ why now => exact inv.modify _ _ fun r => r.broke_same cfg why now
  | due => exact inv.due _
  | refused | asked | denied | adverted | peerDown => exact ⟨inv.named, inv.keys, inv.proxies⟩

end

/-! ### Writers -/

def WrittenBy (topics : Key → Option Topic) (id : String) (key : Key) (project : Option String) (schema : String) :
    Prop :=
  ∃ t, topics key = some t ∧ t.writer = some id ∧ t.projectId = project ∧ t.schema = schema

section
variable {env : Env} {cfg : MeshConfig} {n : Node} {id : String} {key : Key} {project : Option String} {schema : String}

theorem WrittenBy.not_proxied (written : WrittenBy topics id key project schema)
    (named : Named instances) (live : instances id = some inst) :
    ¬Proxied topics key := by
  rintro ⟨t, w, found, writer, proxy⟩
  obtain ⟨t', found', writer', _⟩ := written
  obtain rfl : t = t' := Option.some.inj (found.symm.trans found')
  obtain rfl : w = id := Option.some.inj (writer.symm.trans writer')
  have clash := (at_of_isProxy proxy).symm.trans (named w inst live)
  cases clash

theorem WrittenBy.congr (written : WrittenBy topics id key project schema)
    (same : topics' key = topics key) : WrittenBy topics' id key project schema := by
  obtain ⟨t, found, rest⟩ := written
  exact ⟨t, same.trans found, rest⟩

theorem WrittenBy.change
    (change : TopicsChange s gone topics) (kept : gone ≠ some id) (written : WrittenBy s.topics id key project schema) :
    WrittenBy topics id key project schema := by
  cases change with
  | same => exact written
  | written p t' accepts writer' project' schema' =>
    by_cases here : key = p.reading.key
    · subst here
      obtain ⟨t, found, writer, rfl, rfl⟩ := written
      have old : s.topicOr p.reading.key p.reading.schema p.project = t := by simp [State.topicOr, found]
      have same : id = p.writer := by simpa [old, writer] using accepts.writer
      refine ⟨t', update_self .., same ▸ writer', ?_, ?_⟩
      · rw [project', ← accepts.project, old]
      · rw [schema', ← accepts.schema, old]
    · exact written.congr (update_of_ne here ..)
  | revoked gone inst named =>
    obtain ⟨t, found, writer, rest⟩ := written
    have other : t.writer ≠ some gone := by
      rw [writer, ← named]
      exact fun same => kept same.symm
    refine ⟨t, ?_, writer, rest⟩
    show (s.topics key).map (·.without gone) = some t
    rw [found, Option.map_some, Topic.without, if_neg other]

theorem live_change (change : InstancesChange s act instances) (kept : act.gone ≠ some id)
    (live : s.instances id = some inst) : instances id = some inst := by
  cases change with
  | same => exact live
  | registered spec token new free =>
    have other : id ≠ spec.instanceId := by
      rintro rfl
      rw [free] at live
      cases live
    exact (update_of_ne other ..).trans live
  | revoked gone =>
    have other : id ≠ gone := by
      rintro rfl
      exact kept rfl
    exact (update_of_ne other ..).trans live

structure Writes (n : Node) (id : String) (inst : Instance) (key : Key) (project : Option String) (schema : String) :
    Prop where
  live : n.core.instances id = some inst
  topic : WrittenBy n.core.topics id key project schema

variable {inst : Instance}

section
variable (writes : Writes n id inst key project schema)
include writes

theorem Writes.no_remote (inv : Inv n) (ok : calm n (.meshDue now) = true) : key ∉ n.mesh.remote.map (·.2.key) := by
  intro listed
  obtain ⟨e, there, rfl⟩ := mem_map.mp listed
  cases stream : e.2.stream with
  | none => exact writes.topic.not_proxied inv.named writes.live (inv.proxies e there stream)
  | some _ =>
    have apart := all_eq_true.mp ok e there
    obtain ⟨t, found, writer, _⟩ := writes.topic
    simp [stream, writtenHere, found, writer, writes.live] at apart

theorem Writes.due (inv : Inv n) (ok : calm n (.meshDue now) = true) :
    Writes (n.meshDue cfg now).2 id inst key project schema := by
  have absent := writes.no_remote inv ok
  have owed := n.owedFrom cfg now
  have gone : key ∉ (n.owed cfg now).gone.map (·.2) := by
    intro listed
    have there := owed.keys.mem_iff.mp (mem_append_right _ listed)
    exact absent (by simpa using there)
  refine ⟨writes.live, writes.topic.congr ?_⟩
  show (n.owed cfg now).gone.foldl release (n.owed cfg now).topics key = _
  rw [foldl_release_of_notMem _ _ gone]
  exact (owed.topics key).resolve_right fun changed => absent changed.1

theorem Writes.committed (inv : Inv n) (conn : Nat) (sess : Session) (ok : settled n.core ask = true) :
    Writes (n.meshCommit env conn sess ask) id inst key project schema := by
  refine ⟨writes.live, writes.topic.congr ?_⟩
  show claimTopic n.core.topics ask key = _
  cases stream : ask.stream with
  | true => rw [claimTopic, stream, if_pos rfl]
  | false =>
    have other : key ≠ ask.key := by
      rintro rfl
      obtain ⟨t, found, writer, _⟩ := writes.topic
      have proxy : isProxy id = true := by
        simp only [settled, stream, found, writer, Bool.false_or, Option.all_some, Bool.and_eq_true] at ok
        exact ok.1.1
      exact writes.topic.not_proxied inv.named writes.live ⟨t, id, found, writer, proxy⟩
    rw [claimTopic, stream]
    exact update_of_ne other ..

theorem Writes.step {next : Node} (inv : Inv n) (ok : calm n act = true)
    (kept : revokes id act = false) (change : Mesh.Change env cfg n act next) :
    Writes next id inst key project schema := by
  cases change with
  | called change =>
    have other := of_decide_eq_false kept
    exact ⟨live_change change.instances other writes.live, writes.topic.change change.topics other⟩
  | committed waiting =>
    rw [calm, waiting] at ok
    exact writes.committed inv _ _ ok
  | taken found accepts =>
    exact ⟨writes.live, writes.topic.change (State.write_topics none accepts) nofun⟩
  | due => exact writes.due inv ok
  | refused | asked | denied | adverted | unread | ended | peerDown => exact ⟨writes.live, writes.topic⟩

end

end

/-- In a calm run a topic that a registered instance is recorded as the writer of keeps that writer, its project
and its schema until the instance is revoked. -/
theorem writer_kept (env : Env) (cfg : MeshConfig) (first rest : List Mesh.Act)
    (along : Along (step env cfg) (fun n act => calm n act = true) Node.new (first ++ rest)) (id : String)
    (inst : Instance) (key : Key) (t : Topic) (live : (run (step env cfg) Node.new first).core.instances id = some inst)
    (found : (run (step env cfg) Node.new first).core.topics key = some t) (writer : t.writer = some id)
    (unrevoked : ∀ act ∈ rest, revokes id act = false) :
    ∃ t', (run (step env cfg) Node.new (first ++ rest)).core.topics key = some t' ∧ t'.writer = some id ∧
      t'.projectId = t.projectId ∧ t'.schema = t.schema := by
  rw [along_append] at along
  have inv : Inv (run (step env cfg) Node.new first) :=
    run_keeps (fun n act (inv : Inv n) ok => inv.step ok (step_change env cfg n act)) Inv.new along.1
  have start : Inv (run (step env cfg) Node.new first) ∧
      Writes (run (step env cfg) Node.new first) id inst key t.projectId t.schema :=
    ⟨inv, live, t, found, writer, rfl, rfl⟩
  have both := run_keeps (fun n act (both : Inv n ∧ Writes n id inst key t.projectId t.schema) ok =>
    ⟨both.1.step ok.1 (step_change env cfg n act), both.2.step both.1 ok.1 ok.2 (step_change env cfg n act)⟩)
    start (along.2.and_mem unrevoked)
  rw [run_append]
  exact both.2.topic

/-! A topic of this node beside one of another node. -/

def publishHere : Mesh.Act := .call (.publish 1 AllowAll (sample 10) 11 none)

theorem writer_kept_beside :
    let first := offered "reading" ++ [publishHere]
    let rest := [askRemote false, .meshCommit 2 AllowAll, .meshDue 12, publishHere]
    ∃ t, (run (step bench meshBench) Node.new first).core.topics ("temp", "k1") = some t ∧ t.writer = some "a" ∧
      ∃ t', (run (step bench meshBench) Node.new (first ++ rest)).core.topics ("temp", "k1") = some t' ∧
        t'.writer = some "a" ∧ t'.projectId = t.projectId ∧ t'.schema = t.schema := by
  intro first rest
  obtain ⟨t, found, writer⟩ : ∃ t ∈ (run (step bench meshBench) Node.new first).core.topics ("temp", "k1"),
      t.writer = some "a" := by decide +kernel
  obtain ⟨inst, live⟩ : ∃ inst, (run (step bench meshBench) Node.new first).core.instances "a" = some inst :=
    Option.isSome_iff_exists.mp (by decide +kernel)
  refine ⟨t, found, writer, writer_kept bench meshBench first rest (by decide +kernel) "a" inst _ t live found writer
    ?_⟩
  decide +kernel

/-- The sensor writes its topic after `first`; after `rest`, in which it is not revoked,
the peer does. -/
def Loses (first rest : List Mesh.Act) : Prop :=
  ((run (step bench meshBench) Node.new first).core.topics ("temp", "k1")).bind (·.writer) = some "a" ∧
    ((run (step bench meshBench) Node.new first).core.instances "a").isSome = true ∧
    (∀ act ∈ rest, revokes "a" act = false) ∧
    ((run (step bench meshBench) Node.new (first ++ rest)).core.topics ("temp", "k1")).bind (·.writer) =
      some "@mesh:n2"

instance (first rest : List Mesh.Act) : Decidable (Loses first rest) := inferInstanceAs (Decidable (_ ∧ _))

/-- The sensor's first reading falls between the two lock regions of a remote subscribe; or the peer offers a
stream under the same name. -/
theorem writer_lost :
    Loses (offered "reading" ++ [askRemote false, publishHere]) [.meshCommit 2 AllowAll] ∧
      Loses (offered "stream" ++ [publishHere]) [askRemote true, .meshCommit 2 AllowAll, .meshDue 12] := by
  decide +kernel

end Weftos.Bus.Writers
