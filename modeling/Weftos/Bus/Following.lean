import Weftos.Bus.Mail
import Weftos.Bus.Proxy

/-! Remote readings stay in their project: a proxy topic is fed by a node whose offer named
the topic's project, also when its source is followed to another node. -/

namespace Weftos.Bus.Following
open Lib.Run Bus.Types Broker Bus.Mesh

/-- Offers of one topic name one project whoever makes them, the second lock region of a
`subscribe_mesh` finds its topic as the first one did, and a reading comes on a subscription
of readings. -/
def aligned (projectOf : Key → Option String) (n : Node) : Mesh.Act → Bool
  | .meshAdvert node topics expires =>
    ((topics.take 1024).filterMap fun a => Offer.ofAdvert node a expires).all fun o => o.2.project = projectOf o.1
  | .meshCommit conn _ => (n.asking conn).all (settled n.core)
  | .meshReading node rsub .. => (n.mesh.remoteOf node rsub).all (·.stream.isNone)
  | _ => true

def InProject (topics : Key → Option Topic) (key : Key) (project : Option String) : Prop :=
  ∃ t, topics key = some t ∧ t.projectId = project

theorem InProject.stay
    (there : InProject topics key project) (stay : Stay topics topics') : InProject topics' key project := by
  obtain ⟨t, found, same⟩ := there
  obtain ⟨t', found', project', _⟩ := stay key t found
  exact ⟨t', found', project'.trans same⟩

structure Inv (projectOf : Key → Option String) (n : Node) : Prop where
  offers : ∀ key o, n.mesh.offers key = some o → o.project = projectOf key
  asks : ∀ conn ask, n.asking conn = some ask → ask.project = projectOf ask.key
  remotes : ∀ e ∈ n.mesh.remote, e.2.stream = none →
    e.2.offered = projectOf e.2.key ∧ InProject n.core.topics e.2.key (projectOf e.2.key)

theorem Inv.new (projectOf : Key → Option String) : Inv projectOf Node.new :=
  ⟨fun _ _ => nofun, fun _ _ => nofun, fun _ => nofun⟩

section
variable {projectOf : Key → Option String} {env : Env} {cfg : MeshConfig} {n : Node}

theorem Inv.setAsk (inv : Inv projectOf n) (conn : Nat) (changed : Option Ask)
    (ok : ∀ ask, changed = some ask → ask.project = projectOf ask.key) :
    ∀ conn' ask, Function.update n.asking conn changed conn' = some ask → ask.project = projectOf ask.key := by
  intro conn' ask waiting
  by_cases here : conn' = conn
  · subst here
    exact ok ask (by simpa using waiting)
  · exact inv.asks conn' ask (by simpa [here] using waiting)

theorem foldl_offers (before : ∀ key o, offers key = some o → o.project = projectOf key)
    (new : List (Key × Offer)) (ok : ∀ o ∈ new, o.2.project = projectOf o.1) :
    ∀ key o, new.foldl (fun (offers : Key → Option Offer) o => Function.update offers o.1 (some o.2)) offers key =
      some o →
      o.project = projectOf key := by
  induction new generalizing offers with
  | nil => exact before
  | cons first new ih =>
    rw [List.forall_mem_cons] at ok
    refine ih ?_ ok.2
    intro key o found
    dsimp only at found
    by_cases here : key = first.1
    · subst here
      rw [Function.update_self] at found
      exact Option.some.inj found ▸ ok.1
    · rw [Function.update_of_ne here] at found
      exact before key o found

theorem claimTopic_inProject (reading : ask.stream = false)
    (ok : ∀ t, topics ask.key = some t → t.projectId = ask.project) :
    InProject (claimTopic topics ask) ask.key ask.project := by
  rw [claimTopic, reading]
  refine ⟨_, Function.update_self .., ?_⟩
  cases found : topics ask.key with
  | none => rfl
  | some t => exact ok t found

variable (inv : Inv projectOf n)
include inv

theorem Inv.committed (sess : Session) (waiting : n.asking conn = some ask)
    (ok : settled n.core ask = true) : Inv projectOf (n.meshCommit env conn sess ask) := by
  have project := inv.asks conn ask waiting
  have old : ∀ e ∈ n.mesh.remote, e.2.stream = none → e.2.offered = projectOf e.2.key ∧
      InProject (claimTopic n.core.topics ask) e.2.key (projectOf e.2.key) := by
    intro e listed reading
    obtain ⟨offered, there⟩ := inv.remotes e listed reading
    exact ⟨offered, there.stay (claimTopic_stay _ _)⟩
  have asks := inv.setAsk conn none fun _ => nofun
  by_cases exists_ : n.mesh.remote.any (fun e => e.2.kind = ask.key.1 && e.2.source = ask.key.2) = true
  · have same : (n.meshCommit env conn sess ask).mesh = n.mesh := if_pos exists_
    exact ⟨same ▸ inv.offers, asks, same ▸ old⟩
  · have added : (n.meshCommit env conn sess ask).mesh =
        { n.mesh with next := n.mesh.next + 1, remote := n.mesh.remote ++ [(n.mesh.next + 1, ask.remote)] } :=
      if_neg exists_
    refine ⟨added ▸ inv.offers, asks, ?_⟩
    rw [added]
    intro e listed reading
    rcases List.mem_append.mp listed with before | new
    · exact old e before reading
    · obtain rfl := List.mem_singleton.mp new
      have stream : ask.stream = false := by simpa [Ask.remote] using reading
      refine ⟨project, ?_⟩
      show InProject (claimTopic n.core.topics ask) ask.key (projectOf ask.key)
      rw [← project]
      apply claimTopic_inProject stream
      intro t found
      simp only [settled, stream, found, Bool.false_or, Option.all_some, Bool.and_eq_true, decide_eq_true_eq] at ok
      exact ok.1.2

theorem Inv.modify (stay : Stay n.core.topics core.topics) (node : String)
    (rsub : Nat) (same : ∀ r, SameRemote r (change r)) :
    Inv projectOf { n with core := core, mesh := n.mesh.modify node rsub change } := by
  refine ⟨inv.offers, inv.asks, ?_⟩
  intro e listed reading
  obtain ⟨old, there, kept⟩ := MeshState.mem_modify same listed
  obtain ⟨offered, topic⟩ := inv.remotes old there (kept.stream.symm.trans reading)
  rw [kept.key, kept.offered]
  exact ⟨offered, topic.stay stay⟩

theorem Inv.due (now : Nat) : Inv projectOf (n.meshDue cfg now).2 := by
  refine ⟨inv.offers, inv.asks, ?_⟩
  intro e listed reading
  obtain ⟨old, there, turn⟩ := ((n.owedFrom cfg now).kept e listed).resolve_left List.not_mem_nil
  have before : old.2.stream = none := by
    have kept := turn.stream
    rw [reading] at kept
    simpa using kept.symm
  obtain ⟨offered, topic⟩ := inv.remotes old there before
  rw [turn.key]
  refine ⟨?_, topic.stay (n.meshDue_stay cfg now)⟩
  rcases turn.offered with same | ⟨o, found, new⟩
  · exact same.trans offered
  · exact new.trans (inv.offers _ o found)

theorem Inv.step (ok : aligned projectOf n act = true)
    (change : Mesh.Change env cfg n act next) : Inv projectOf next := by
  have stay := change.stay
  cases change with
  | refused => exact inv
  | called =>
    refine ⟨inv.offers, inv.asks, fun e listed reading => ?_⟩
    obtain ⟨offered, topic⟩ := inv.remotes e listed reading
    exact ⟨offered, topic.stay stay⟩
  | @asked o conn _ _ _ _ _ _ ask offered project =>
    refine ⟨inv.offers, inv.setAsk conn (some ask) ?_, inv.remotes⟩
    rintro _ ⟨⟩
    exact project.trans (inv.offers _ o offered)
  | @denied conn => exact ⟨inv.offers, inv.setAsk conn none fun _ => nofun, inv.remotes⟩
  | committed waiting =>
    rw [aligned, waiting] at ok
    exact inv.committed _ waiting ok
  | @adverted node _ _ =>
    have kept : ∀ key o, withoutNode n.mesh.offers node key = some o → o.project = projectOf key :=
      fun key o found => inv.offers key o (Option.filter_eq_some_iff.mp found).1
    refine ⟨foldl_offers kept _ ?_, inv.asks, inv.remotes⟩
    simpa only [aligned, List.all_eq_true, decide_eq_true_eq] using ok
  | @taken _ _ _ _ _ now | @unread _ _ _ _ _ now => exact inv.modify stay _ _ fun r => r.take_same cfg now
  | @ended _ _ why now => exact inv.modify stay _ _ fun r => r.broke_same cfg why now
  | peerDown => exact ⟨fun key o found => inv.offers key o (Option.filter_eq_some_iff.mp found).1, inv.asks,
      inv.remotes⟩
  | due => exact inv.due _

end

/-- A reading came from a node whose offer named the project of the proxy topic, and went to a subscription of
that project or with a grant for it. -/
structure FromProject (n : Node) (node : String) (rsub : Nat) (id : Nat) : Prop where
  source : ∃ r t, n.mesh.remoteOf node rsub = some r ∧ n.core.topics r.key = some t ∧ r.offered = t.projectId ∧
    ∃ sub, (id, sub) ∈ n.core.subs ∧
      (sub.projectId = t.projectId ∨ granted sub.also t.projectId r.source = true)

theorem mem_of_remoteOf {m : MeshState} (found : m.remoteOf node rsub = some r) : (rsub, r) ∈ m.remote := by
  obtain ⟨front, back, split, _⟩ := List.lookup_eq_some_iff.mp (Option.filter_eq_some_iff.mp found).1
  rw [split]
  exact List.mem_append_right _ List.mem_cons_self

theorem Inv.taken {projectOf : Key → Option String} (inv : Inv projectOf n)
    (found : n.mesh.remoteOf node rsub = some r)
    (reading : r.stream = none) {id : Nat}
    (changed : (n.core.write env (n.remotePut node r seq tNs body) recvNs).mail.pushed id ≠ n.core.mail.pushed id) :
    FromProject n node rsub id := by
  obtain ⟨offered, t, topic, project⟩ := inv.remotes _ (mem_of_remoteOf found) reading
  refine ⟨r, t, found, topic, offered.trans project.symm, ?_⟩
  by_contra nobody
  refine changed (foldl_fan_pushed _ _ _ _ _ ?_)
  rintro ⟨sub, listed, hit⟩
  refine nobody ⟨sub, listed, ?_⟩
  rw [matches_written (p := n.remotePut node r seq tNs body) topic] at hit
  simp only [Sub.matches, Bool.and_eq_true, Bool.or_eq_true, decide_eq_true_eq] at hit
  exact hit.2

/-- Every subscription of readings is to a node whose offer named the project of the proxy
topic, and the next reading stays in it. -/
structure ProjectsKept (projectOf : Key → Option String) (env : Env) (cfg : MeshConfig) (n : Node) : Prop where
  proxies : ∀ e ∈ n.mesh.remote, e.2.stream = none → InProject n.core.topics e.2.key e.2.offered
  readings : ∀ node rsub seq tNs body now recvNs,
    aligned projectOf n (.meshReading node rsub seq tNs body now recvNs) = true → ∀ id,
      (step env cfg n (.meshReading node rsub seq tNs body now recvNs)).core.mail.pushed id ≠ n.core.mail.pushed id →
        FromProject n node rsub id

/-- Every subscription of readings is to a node whose offer named the project of the proxy topic when this node
subscribed there, also after its source was followed to another node; and what the next reading reaches is of
that project or was granted it. -/
theorem remote_isolated (projectOf : Key → Option String) (env : Env) (cfg : MeshConfig) (acts : List Mesh.Act)
    (along : Along (step env cfg) (fun n act => aligned projectOf n act = true) Node.new acts) :
    ProjectsKept projectOf env cfg (run (step env cfg) Node.new acts) := by
  have inv : Inv projectOf (run (step env cfg) Node.new acts) :=
    run_keeps (fun n act (inv : Inv projectOf n) ok => inv.step ok (step_change env cfg n act))
      (Inv.new projectOf) along
  generalize run (step env cfg) Node.new acts = n at inv
  refine ⟨?_, ?_⟩
  · intro e listed reading
    obtain ⟨offered, topic⟩ := inv.remotes e listed reading
    exact offered ▸ topic
  · intro node rsub seq tNs body now recvNs ok id changed
    have change := step_change env cfg n (.meshReading node rsub seq tNs body now recvNs)
    generalize step env cfg n (.meshReading node rsub seq tNs body now recvNs) = next at change changed
    cases change with
    | refused | unread => exact absurd rfl changed
    | taken found _ =>
      rw [aligned, found] at ok
      exact inv.taken found (by simpa using ok) changed

def moved (project : Option String) : List Mesh.Act :=
  offered "reading" ++ [askRemote false, .meshCommit 2 AllowAll, .meshDue 12, .meshEnded "n2" 1 "withdrawn" 13,
    .meshAdvert "n3" [offerOf project "reading"] 100, .meshDue 60]

def movedNode : Node := run (step bench meshBench) Node.new (moved (some "p"))

theorem remote_isolated_moved :
    (movedNode.mesh.remote.map fun e => (e.2.node, e.2.offered)) = [("n3", some "p")] ∧
      ((step bench meshBench movedNode (.meshReading "n3" 1 7 10 .null 61 61)).core.mail.pushed 1).map (·.seq) = [7] ∧
      FromProject movedNode "n3" 1 1 := by
  have after : ((step bench meshBench movedNode (.meshReading "n3" 1 7 10 .null 61 61)).core.mail.pushed 1).map
    (·.seq) =
      [7] := by decide +kernel
  have before : (movedNode.core.mail.pushed 1).map (·.seq) = [] := by decide +kernel
  have kept : ProjectsKept (fun _ => some "p") bench meshBench movedNode :=
    remote_isolated (fun _ => some "p") bench meshBench (moved (some "p")) (by decide +kernel)
  refine ⟨by decide +kernel, after, kept.readings "n3" 1 7 10 .null 61 61 (by decide +kernel) 1 fun same => ?_⟩
  rw [same, before] at after
  cases after

/-- The next reading of the subscription reaches a local one, in another project than the
one its node's offer named. -/
def Crosses (acts : List Mesh.Act) (node : String) : Prop :=
  let n := run (step bench meshBench) Node.new acts
  let next := step bench meshBench n (.meshReading node 1 7 10 .null 61 61)
  ((next.core.mail.pushed 1).length + (next.core.mail.pushed 2).length ≠
      (n.core.mail.pushed 1).length + (n.core.mail.pushed 2).length) ∧
    ((n.mesh.remoteOf node 1).any fun r => (next.core.topics r.key).any fun t => r.offered ≠ t.projectId) = true

instance (acts : List Mesh.Act) (node : String) : Decidable (Crosses acts node) := inferInstanceAs (Decidable (_ ∧ _))

/-- The source is followed to a node that offers it for another project; a topic of another project is made
between the two lock regions of a subscribe; a reading comes on a subscription of a stream. -/
theorem remote_crosses :
    Crosses (moved (some "q")) "n3" ∧
      Crosses (offered "reading" ++ [askRemote false, .call (.publishInternal "@ingest" (some "q") (sample 5) 6),
        .call (.register { reader with instanceId := "c" } tokenC), .call (.hello tokenC none),
        .call (.subscribe 3 AllowAll "temp/*" "senml.v1" 0), .meshCommit 2 AllowAll]) "n2" ∧
      Crosses (offered "stream" ++ [askRemote true, .meshCommit 2 AllowAll,
        .call (.register { reader with instanceId := "c", projectId := none } tokenC), .call (.hello tokenC none),
        .call (.subscribe 3 AllowAll "temp/*" "senml.v1" 0)]) "n2" := by
  decide +kernel

end Weftos.Bus.Following
