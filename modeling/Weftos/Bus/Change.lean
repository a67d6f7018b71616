import Weftos.Bus.Broker

/-! What a call can do to the broker: one case per call, with the checks it passed and the
state it leaves. Every invariant of the broker is a case split on this. -/

namespace Weftos.Bus.Broker
open Lib.Bytes Lib.Outcome Lib.Text Bus.Types Function State

structure State.Accepts (s : State) (p : Put) : Prop where
  writer : (s.topicOr p.reading.key p.reading.schema p.project).writer.all (· = p.writer) = true
  project : (s.topicOr p.reading.key p.reading.schema p.project).projectId = p.project
  schema : (s.topicOr p.reading.key p.reading.schema p.project).schema = p.reading.schema

variable {env : Env} {act : Act}

theorem State.put_ok {s next : State} {p : Put} {recvNs : Nat}
    (done : s.put env p recvNs = .ok (d, next)) : s.Accepts p ∧ next = s.write env p recvNs := by
  simp only [put, bind_ok_iff, ensure_ok_iff, pure_ok_iff, Prod.mk.injEq] at done
  obtain ⟨_, writer, _, project, _, schema, _, rfl⟩ := done
  exact ⟨⟨writer, project, schema⟩, rfl⟩

/-- What is published for a session: its instance's registration stands behind it. -/
def asCog (sess : Session) (spec : InstanceSpec) (r : Reading) : Put :=
  ⟨sess.instanceId, spec.projectId, r, none, none, some spec⟩

def asInternal (writer : String) (project : Option String) (r : Reading) : Put := ⟨writer, project, r, none, none, none⟩

def State.registered (s : State) (spec : InstanceSpec) (h : Octets) : State :=
  { s with
    byHash := update s.byHash h (some spec.instanceId)
    instances := update s.instances spec.instanceId (some ⟨spec, h, s.serial + 1⟩)
    serial := s.serial + 1 }

def State.greeted (s : State) (inst : Instance) : State :=
  { s with
    nextConn := s.nextConn + 1
    conns := update s.conns inst.spec.instanceId ((s.nextConn + 1) :: s.conns inst.spec.instanceId)
    sessions := update s.sessions (s.nextConn + 1)
      (some ⟨inst.spec.instanceId, inst.spec.projectId, none, [], inst.serial⟩) }

def State.narrowed (s : State) (conn : Nat) (sess : Session) (declared : List OutputSpec × List InputSpec) : State :=
  { s with sessions := update s.sessions conn (some { sess with declared := some declared }) }

def State.left (s : State) (conn : Nat) (sess : Session) (sub : Nat) : State :=
  { s with
    sessions := update s.sessions conn (some { sess with subs := sess.subs.filter (· ≠ sub) })
    subs := s.subs.filter fun entry => entry.1 ≠ sub }

inductive Change (env : Env) (s : State) : Act → State → Prop where
  | refused (act : Act) : Change env s act s
  | registered (free : s.instances spec.instanceId = none) :
    Change env s (.register spec token) (s.registered spec (env.tokenHash token))
  | revoked {id : String} : Change env s (.revoke id) (s.revoke id)
  | greeted {id : String} (live : s.instances id = some inst) :
    Change env s (.hello token peerUid) (s.greeted inst)
  | narrowed (open_ : s.sessions conn = some sess) (live : s.instances sess.instanceId = some inst)
    (within : ∀ o ∈ outputs, o ∈ inst.spec.outputs) :
    Change env s (.declare conn policy outputs inputs) (s.narrowed conn sess (outputs, inputs))
  | published (open_ : s.sessions conn = some sess)
    (live : s.instances sess.instanceId = some inst) (listed : o ∈ sess.declared.elim inst.spec.outputs (·.1))
    (kind : o.topic = r.kind) (schema : o.schema = r.schema) (accepts : s.Accepts (asCog sess inst.spec r)) :
    Change env s (.publish conn policy r recvNs overRate) (s.write env (asCog sess inst.spec r) recvNs)
  | internal (at_ : startsWith writer "@" = true) (accepts : s.Accepts (asInternal writer project r)) :
    Change env s (.publishInternal writer project r recvNs) (s.write env (asInternal writer project r) recvNs)
  | subscribed (open_ : s.sessions conn = some sess)
    (project : sub.projectId = sess.projectId) (kind : decl.topic = sub.kind) (declared : decl.schema = sub.schema)
    (also : ∀ g ∈ sub.also, g ∈ grants) :
    Change env s (.subscribe conn policy topic schema readers) (s.addSub conn sess sub cap decl grants)
  | left (open_ : s.sessions conn = some sess) :
    Change env s (.unsubscribe conn sub) (s.left conn sess sub)
  | drained (open_ : s.sessions conn = some sess) :
    Change env s (.drain conn) (s.drain sess)
  | closed (open_ : s.sessions conn = some sess) :
    Change env s (.close conn) (s.close conn sess)

section
variable {env : Env} {s : State}

theorem State.attempt_change {α : Type} (result : Except BusError (α × State))
    (ok : ∀ value next, result = .ok (value, next) → Change env s act next) : Change env s act (s.attempt result) := by
  match result with
  | .error _ => exact .refused act
  | .ok (value, next) => exact ok value next rfl

theorem State.withSession_change {conn : Nat} (call : Session → State)
    (ok : ∀ sess, s.sessions conn = some sess → Change env s act (call sess)) :
    Change env s act (s.withSession conn call) := by
  unfold withSession
  cases open_ : s.sessions conn with
  | none => exact .refused act
  | some sess => exact ok sess open_

theorem State.specOf_ok {sess : Session} {action : String} (found : s.specOf sess action = .ok spec) :
    ∃ inst, s.instances sess.instanceId = some inst ∧ inst.spec = spec := by
  simpa [specOf] using found

theorem outputFor_ok {outputs : List OutputSpec} {kind schema : String}
    (found : outputFor outputs kind schema no = .ok o) : o ∈ outputs ∧ o.topic = kind ∧ o.schema = schema := by
  simp only [outputFor, bind_ok_iff, require_ok_iff, ensure_ok_iff, pure_ok_iff] at found
  obtain ⟨decl, first, _, schema, _, _, rfl⟩ := found
  exact ⟨List.mem_of_find?_eq_some first, by simpa using List.find?_some first, schema⟩

theorem inputFor_ok {inputs : List InputSpec} {kind schema : String}
    (found : inputFor inputs kind schema no = .ok decl) : decl.topic = kind ∧ decl.schema = schema := by
  simp only [inputFor, bind_ok_iff, require_ok_iff, ensure_ok_iff, pure_ok_iff] at found
  obtain ⟨decl, first, _, schema, rfl⟩ := found
  exact ⟨by simpa using List.find?_some first, schema⟩

theorem forM_ensure_ok {α : Type} {P : α → Prop} [DecidablePred P] {refusal : α → BusError} {items : List α}
    (passed : items.forM (fun item => ensure (P item) (refusal item)) = .ok u) : ∀ item ∈ items, P item := by
  induction items with
  | nil => simp
  | cons item items ih =>
    simp only [List.forM_eq_forM, List.forM_cons, bind_ok_iff, ensure_ok_iff] at passed
    obtain ⟨_, first, rest⟩ := passed
    exact List.forall_mem_cons.mpr ⟨first, ih rest⟩

theorem step_change (env : Env) (s : State) (act : Act) : Change env s act (step env s act) := by
  cases act with
  | register spec token =>
    apply attempt_change
    intro value next done
    simp only [register, bind_ok_iff, ensure_ok_iff, pure_ok_iff, Prod.mk.injEq, Bool.and_eq_true,
      Option.isNone_iff_eq_none] at done
    obtain ⟨_, _, _, _, _, _, _, ⟨free, _⟩, _, rfl⟩ := done
    exact .registered free
  | revoke id => exact .revoked
  | hello token peerUid =>
    apply attempt_change
    intro value next done
    simp only [authenticate, bind_ok_iff, require_ok_iff, ensure_ok_iff, pure_ok_iff, Prod.mk.injEq,
      Option.bind_eq_some_iff] at done
    obtain ⟨inst, ⟨id, _, live⟩, _, _, _, _, _, rfl⟩ := done
    exact .greeted live
  | declare =>
    apply withSession_change
    intro sess open_
    apply attempt_change
    intro value next done
    simp only [declare, bind_ok_iff, pure_ok_iff, Prod.mk.injEq] at done
    obtain ⟨spec, found, _, outs, _, _, _, _, _, rfl⟩ := done
    obtain ⟨inst, live, rfl⟩ := specOf_ok found
    exact .narrowed open_ live (forM_ensure_ok outs)
  | publish =>
    apply withSession_change
    intro sess open_
    apply attempt_change
    intro value next done
    simp only [publish, bind_ok_iff, ensure_ok_iff, pure_ok_iff, Prod.mk.injEq, Prod.exists] at done
    obtain ⟨_, _, _, _, _, _, spec, found, o, output, _, _, _, _, d, next, put, _, rfl⟩ := done
    obtain ⟨inst, live, rfl⟩ := specOf_ok found
    obtain ⟨listed, kind, schema⟩ := outputFor_ok output
    obtain ⟨accepts, rfl⟩ := put_ok put
    exact .published open_ live listed kind schema accepts
  | publishInternal =>
    apply attempt_change
    intro value next done
    simp only [publishInternal, bind_ok_iff, ensure_ok_iff, Bool.and_eq_true] at done
    obtain ⟨_, ⟨at_, _⟩, _, _, _, _, put⟩ := done
    obtain ⟨accepts, rfl⟩ := put_ok put
    exact .internal at_ accepts
  | subscribe =>
    apply withSession_change
    intro sess open_
    apply attempt_change
    intro value next done
    simp only [subscribe, bind_ok_iff, ensure_ok_iff, require_ok_iff, pure_ok_iff, Prod.mk.injEq] at done
    obtain ⟨_, _, _, _, _, _, _, _, decl, input, _, _, _, _, _, rfl⟩ := done
    obtain ⟨kind, declared⟩ := inputFor_ok input
    exact .subscribed open_ rfl kind declared fun g listed => (List.mem_filter.mp listed).1
  | unsubscribe conn sub =>
    apply withSession_change
    intro sess open_
    apply attempt_change
    intro value next done
    simp only [unsubscribe, bind_ok_iff, ensure_ok_iff, pure_ok_iff, Prod.mk.injEq] at done
    obtain ⟨_, _, _, rfl⟩ := done
    exact .left open_
  | drain conn =>
    apply withSession_change
    intro sess open_
    exact .drained open_
  | close conn =>
    apply withSession_change
    intro sess open_
    exact .closed open_

end

/-! ### The tables a call changes -/

def Act.gone : Act → Option String
  | .revoke id => some id
  | _ => none

inductive TopicsChange (s : State) (gone : Option String) : (Key → Option Topic) → Prop where
  | same : TopicsChange s gone s.topics
  | written (p : Put) (t : Topic) (accepts : s.Accepts p) (writer : t.writer = some p.writer)
    (project : t.projectId = p.project) (schema : t.schema = p.reading.schema) :
    TopicsChange s gone (update s.topics p.reading.key (some t))
  | revoked (id : String) (inst : Instance) (named : gone = some id) (live : s.instances id = some inst) :
    TopicsChange s gone fun key => (s.topics key).map (·.without id)

theorem State.write_topics (gone : Option String)
    (accepts : s.Accepts p) : TopicsChange s gone (s.write env p recvNs).topics :=
  .written p _ accepts rfl accepts.project accepts.schema

theorem Change.topics (change : Change env s act next) : TopicsChange s act.gone next.topics := by
  cases change with
  | @revoked id =>
    unfold revoke
    cases live : s.instances id with
    | none => exact .same
    | some inst => exact .revoked id inst rfl live
  | published _ _ _ _ _ accepts | internal _ accepts => exact write_topics _ accepts
  | refused | registered | greeted | narrowed | subscribed | left | drained | closed => exact .same

inductive InstancesChange (s : State) : Act → (String → Option Instance) → Prop where
  | same (act : Act) : InstancesChange s act s.instances
  | registered (spec : InstanceSpec) (token : String) (inst : Instance) (free : s.instances spec.instanceId = none) :
    InstancesChange s (.register spec token) (update s.instances spec.instanceId (some inst))
  | revoked (id : String) : InstancesChange s (.revoke id) (update s.instances id none)

theorem Change.instances (change : Change env s act next) : InstancesChange s act next.instances := by
  cases change with
  | registered free => exact .registered _ _ _ free
  | @revoked id =>
    unfold revoke
    cases s.instances id with
    | none => exact .same _
    | some inst => exact .revoked id
  | refused | greeted | narrowed | published | internal | subscribed | left | drained | closed => exact .same _

end Weftos.Bus.Broker
