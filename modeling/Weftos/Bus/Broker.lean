import Weftos.Bus.Types
import Weftos.Lib.DropOldest
import Weftos.Lib.Outcome
import Weftos.Lib.Run

/-! The broker core (`weftos-cogbus/src/broker.rs`, `sink.rs`, `queue.rs`): one step per call, under the
broker's lock. The state remembers what became of every reading. -/

namespace Weftos.Bus.Broker
open Lib.Bytes Lib.DropOldest Lib.Json Lib.Outcome Lib.Text Bus.Types

/-- The broker's tunables, the hash of a token and the size of a body in bytes. -/
structure Env where
  nodeId : String
  queueLen : Nat
  maxSubsPerConn : Nat
  maxConnsPerInstance : Nat
  tokenHash : String → Octets
  bodySize : Value → Nat

/-- `serial` numbers the registrations; the broker does not keep it. -/
structure Instance where
  spec : InstanceSpec
  hash : Octets
  serial : Nat

structure Topic where
  schema : String
  cls : TopicClass
  writer : Option String
  projectId : Option String
  seq : Nat
  messages : Nat
  drops : Nat

structure Sub where
  instance_ : String
  projectId : Option String
  kind : String
  source : Option String
  schema : String
  also : List Grant

def Sub.matches (sub : Sub) (key : Key) (t : Topic) : Bool :=
  sub.kind = key.1 && sub.source.all (· = key.2) && sub.schema = t.schema &&
    (sub.projectId = t.projectId || granted sub.also t.projectId key.2)

/-- A connection's view of the broker. `serial` is that of the registration it said hello
under; the broker does not keep it. -/
structure Session where
  instanceId : String
  projectId : Option String
  declared : Option (List OutputSpec × List InputSpec)
  subs : List Nat
  serial : Nat

structure Reading where
  kind : String
  sourceId : String
  schema : String
  tNs : Nat
  body : Value

def Reading.key (r : Reading) : Key := (r.kind, r.sourceId)

/-! ### What became of the readings -/

/-- A reading a topic took: its place in the topic, the project it was published for and
the registration it was published under; an internal writer has none. -/
structure Publication where
  reading : Reading
  seq : Nat
  project : Option String
  under : Option InstanceSpec

structure Loss where
  sub : Nat
  delivery : Delivery
  on : Key

/-- A subscription as it was made: the input it was declared as, all that governance
granted it, and the seq every topic had. -/
structure Opened where
  sub : Sub
  decl : InputSpec
  grants : List Grant
  after : Key → Nat

/-- The queues of all subscriptions with everything that went through them. A queue
outlives its subscription while the connection holds it. -/
structure Mail where
  queues : Nat → Queue Delivery
  pushed : Nat → List Delivery
  taken : Nat → List Delivery
  lost : List Loss

def Mail.push (m : Mail) (on : Key) (id : Nat) (d : Delivery) : Mail where
  queues := Function.update m.queues id ((m.queues id).push d)
  pushed := Function.update m.pushed id (m.pushed id ++ [d])
  taken := m.taken
  lost := m.lost ++ (m.queues id).oldest.map (⟨id, ·, on⟩)

def Mail.drain (m : Mail) (id : Nat) : Mail :=
  { m with
    queues := Function.update m.queues id (m.queues id).drained
    taken := Function.update m.taken id (m.taken id ++ (m.queues id).buf) }

def Mail.open (m : Mail) (id cap : Nat) : Mail := { m with queues := Function.update m.queues id (.new cap) }

structure State where
  byHash : Octets → Option String
  instances : String → Option Instance
  topics : Key → Option Topic
  subs : List (Nat × Sub)
  nextSub : Nat
  sessions : Nat → Option Session
  nextConn : Nat
  conns : String → List Nat
  serial : Nat
  mail : Mail
  opened : Nat → Option Opened
  published : List Publication

def State.new : State where
  byHash _ := none
  instances _ := none
  topics _ := none
  subs := []
  nextSub := 0
  sessions _ := none
  nextConn := 0
  conns _ := []
  serial := 0
  mail := ⟨fun _ => .new 0, fun _ => [], fun _ => [], []⟩
  opened _ := none
  published := []

/-! ### Registration and hello -/

def checkDecl (topic schema : String) : Except BusError Unit :=
  ensure (validTopicKind topic && isRegistered schema) (bad .badRequest s!"bad declaration {topic} / {schema}")

def State.register (env : Env) (s : State) (spec : InstanceSpec) (token : String) : Except BusError (Unit × State) := do
  ensure (32 ≤ (utf8 token).length) (bad .badRequest "token shorter than 32 chars")
  spec.outputs.forM fun o => checkDecl o.topic o.schema
  spec.inputs.forM fun i => checkDecl i.topic i.schema
  let h := env.tokenHash token
  ensure ((s.instances spec.instanceId).isNone && (s.byHash h).isNone)
    (bad .badRequest "instance or token already registered")
  return ((), { s with
    byHash := Function.update s.byHash h (some spec.instanceId)
    instances := Function.update s.instances spec.instanceId (some ⟨spec, h, s.serial + 1⟩)
    serial := s.serial + 1 })

def Topic.without (t : Topic) (id : String) : Topic := if t.writer = some id then { t with writer := none } else t

def State.revoke (s : State) (id : String) : State :=
  match s.instances id with
  | none => s
  | some inst =>
    { s with
      instances := Function.update s.instances id none
      byHash := Function.update s.byHash inst.hash none
      subs := s.subs.filter fun entry => entry.2.instance_ ≠ id
      topics := fun key => (s.topics key).map (·.without id)
      conns := Function.update s.conns id [] }

def debugUid : Option UInt32 → String
  | none => "None"
  | some uid => s!"Some({uid.toNat})"

def checkUid (inst : Instance) (peerUid : Option UInt32) : Except BusError Unit :=
  match inst.spec.uid with
  | none => .ok ()
  | some want =>
    ensure (peerUid = some want) (refuse inst.spec.instanceId "hello" "-"
      (bad .uidMismatch s!"peer uid {debugUid peerUid} is not the instance's uid {want.toNat}"))

def State.authenticate (env : Env) (s : State) (token : String) (peerUid : Option UInt32) :
    Except BusError (Nat × State) := do
  let inst ← require ((s.byHash (env.tokenHash token)).bind s.instances)
    (refuse "-" "hello" "-" (bad .unauthorized "unknown token"))
  checkUid inst peerUid
  let id := inst.spec.instanceId
  let held := s.conns id
  ensure (held.length < env.maxConnsPerInstance)
    (refuse id "hello" "-" (bad .busy s!"{id} already has {held.length} connections open"))
  let conn := s.nextConn + 1
  return (conn, { s with
    nextConn := conn
    conns := Function.update s.conns id (conn :: held)
    sessions := Function.update s.sessions conn (some ⟨id, inst.spec.projectId, none, [], inst.serial⟩) })

/-- The registration a session acts under: the one now live under its instance id. -/
def State.specOf (s : State) (sess : Session) (action : String) : Except BusError InstanceSpec :=
  require ((s.instances sess.instanceId).map (·.spec))
    (refuse sess.instanceId action "-" (bad .revoked "instance revoked"))

/-! ### Declare -/

def declareOutputs (me : String) (spec : InstanceSpec) (outputs : List OutputSpec) : Except BusError Unit :=
  outputs.forM fun o =>
    ensure (o ∈ spec.outputs) (refuse me "declare" o.topic
      (bad .undeclared s!"output {o.topic} ({o.schema}, {o.cls.debug}) is not in the manifest"))

def declareInputs (me : String) (spec : InstanceSpec) (inputs : List InputSpec) : Except BusError Unit :=
  inputs.forM fun i =>
    ensure (i ∈ spec.inputs) (refuse me "declare" i.topic
      (bad .undeclared s!"input {i.topic} ({i.schema}) is not in the manifest"))

def BusPolicy.declare (policy : BusPolicy) (spec : InstanceSpec) (outputs : List OutputSpec) (inputs : List InputSpec) :
    Except BusError Unit :=
  (outputs.map (fun o => (o.topic, o.schema)) ++ inputs.map fun i => (i.topic, i.schema)).forM fun entry =>
    policy.gate ⟨.declare, spec.instanceId, spec.cogId, spec.projectId, entry.1, entry.2, none⟩

/-- The entries are compared under the lock, governance is asked after it. Nobody else has
the session in between, so what it declares is set here at once. -/
def State.declare (policy : BusPolicy) (s : State) (conn : Nat) (sess : Session) (outputs : List OutputSpec)
    (inputs : List InputSpec) : Except BusError ((Nat × Nat) × State) := do
  let spec ← s.specOf sess "declare"
  declareOutputs sess.instanceId spec outputs
  declareInputs sess.instanceId spec inputs
  BusPolicy.declare policy spec outputs inputs
  return ((outputs.length, inputs.length),
    { s with sessions := Function.update s.sessions conn (some { sess with declared := some (outputs, inputs) }) })

/-! ### Publish -/

/-- `origin` and `seq` are set for a reading of another node. -/
structure Put where
  writer : String
  project : Option String
  reading : Reading
  origin : Option String
  seq : Option Nat
  under : Option InstanceSpec

def Topic.fresh (schema : String) (project : Option String) : Topic := ⟨schema, .reading, none, project, 0, 0, 0⟩

/-- One subscriber's turn in the fan-out; a full queue counts as a drop of the topic that
is being published. -/
def fan (key : Key) (t : Topic) (d : Delivery) (acc : Mail × Nat) (entry : Nat × Sub) : Mail × Nat :=
  if entry.2.matches key t then
    (acc.1.push key entry.1 { d with sub := entry.1 }, acc.2 + if (acc.1.queues entry.1).full then 1 else 0)
  else acc

def State.topicOr (s : State) (key : Key) (schema : String) (project : Option String) : Topic :=
  (s.topics key).getD (.fresh schema project)

def State.written (s : State) (p : Put) : Topic :=
  let t := s.topicOr p.reading.key p.reading.schema p.project
  { t with writer := some p.writer, seq := p.seq.getD (t.seq + 1), messages := t.messages + 1 }

def State.delivery (env : Env) (s : State) (p : Put) (recvNs : Nat) : Delivery :=
  ⟨0, p.reading.key.topic, p.reading.schema, p.reading.sourceId, p.origin.getD env.nodeId, p.reading.tNs,
    (s.written p).seq, recvNs, p.reading.body⟩

/-- The topic takes the reading and every matching subscription gets it, in the order of
the ids. -/
def State.write (env : Env) (s : State) (p : Put) (recvNs : Nat) : State :=
  let key := p.reading.key
  let t := s.written p
  let out := s.subs.foldl (fan key t (s.delivery env p recvNs)) (s.mail, t.drops)
  { s with
    topics := Function.update s.topics key (some { t with drops := out.2 })
    mail := out.1
    published := s.published ++ [⟨p.reading, t.seq, t.projectId, p.under⟩] }

/-- Write one reading to its topic and fan it out. A topic made for this reading passes
the checks, so a refusal leaves the table as it was. -/
def State.put (env : Env) (s : State) (p : Put) (recvNs : Nat) : Except BusError (Delivery × State) := do
  let topic := p.reading.key.topic
  let no e := refuse p.writer "publish" topic e
  let t := s.topicOr p.reading.key p.reading.schema p.project
  ensure (t.writer.all (· = p.writer)) (no (bad .writerConflict s!"{topic} is written by another instance"))
  ensure (t.projectId = p.project) (no (bad .crossProject s!"{topic} belongs to another project"))
  ensure (t.schema = p.reading.schema) (no (bad .schemaMismatch s!"{topic} carries {t.schema}"))
  return (s.delivery env p recvNs, s.write env p recvNs)

def KIND_PREFIX : String := "svc."

def outputFor (outputs : List OutputSpec) (kind schema : String) (no : BusError → BusError) :
    Except BusError OutputSpec := do
  let decl ← require (outputs.find? (·.topic = kind)) (no (bad .undeclared s!"{kind} is not a declared output"))
  ensure (decl.schema = schema)
    (no (bad .schemaMismatch s!"{kind} is declared with schema {decl.schema}, not {schema}"))
  ensure (decl.cls = .reading)
    (no (bad .unsupported s!"class {decl.cls.debug} is not in B1 readings; streams use stream_open"))
  return decl

/-- Governance is asked unless the instance already writes the topic. -/
def State.publishGate (policy : BusPolicy) (s : State) (spec : InstanceSpec) (me : String) (key : Key)
    (schema : String) : Except BusError Unit :=
  if (s.topics key).bind (·.writer) = some me then .ok ()
  else policy.gate ⟨.publish, me, spec.cogId, spec.projectId, key.topic, schema, (s.topics key).bind (·.projectId)⟩

/-- `overRate` is the text of the rate bucket's refusal, if it refuses. -/
def State.publish (env : Env) (policy : BusPolicy) (s : State) (sess : Session) (r : Reading) (recvNs : Nat)
    (overRate : Option String) : Except BusError (Nat × State) := do
  let topic := r.key.topic
  let me := sess.instanceId
  let no e := refuse me "publish" topic e
  ensure (validTopicKind r.kind && validSourceId r.sourceId) (no (bad .badRequest "bad topic kind or source id"))
  let size := env.bodySize r.body
  ensure (size ≤ MAX_BODY) (no (bad .tooLarge s!"body of {size} bytes exceeds {MAX_BODY}; larger is a blob"))
  ensure (!startsWith r.kind KIND_PREFIX) (no (bad .unsupported s!"{r.kind} is a service; use serve and call"))
  let spec ← s.specOf sess "publish"
  let _ ← outputFor (sess.declared.elim spec.outputs (·.1)) r.kind r.schema no
  ensure overRate.isNone (no (bad .rateLimited (overRate.getD "")))
  s.publishGate policy spec me r.key r.schema
  let sent ← s.put env ⟨me, spec.projectId, r, none, none, some spec⟩ recvNs
  return (sent.1.seq, sent.2)

/-- An internal publisher writes as `@...` and has no manifest. -/
def State.publishInternal (env : Env) (s : State) (writer : String) (project : Option String) (r : Reading)
    (recvNs : Nat) : Except BusError (Delivery × State) := do
  let no e := refuse writer "publish" r.key.topic e
  ensure (startsWith writer "@" && 2 ≤ (utf8 writer).length) (no (bad .badRequest "internal writers start with @"))
  ensure (validTopicKind r.kind && validSourceId r.sourceId && isRegistered r.schema)
    (no (bad .badRequest "bad topic kind, source id or schema"))
  let size := env.bodySize r.body
  ensure (size ≤ MAX_BODY) (no (bad .tooLarge s!"body of {size} bytes exceeds {MAX_BODY}; larger is a blob"))
  s.put env ⟨writer, project, r, none, none, none⟩ recvNs

/-! ### Subscribe -/

/-- `<kind>/<source_id>`, or `<kind>/*` for every source. -/
def parseTopic (topic : String) : Option (String × Option String) :=
  match splitOnce topic with
  | none => none
  | some (kind, source) =>
    if validTopicKind kind && (source = "*" || validSourceId source) then
      some (kind, if source = "*" then none else some source)
    else none

def inputFor (inputs : List InputSpec) (kind schema : String) (no : BusError → BusError) :
    Except BusError InputSpec := do
  let decl ← require (inputs.find? (·.topic = kind)) (no (bad .undeclared s!"{kind} is not a declared input"))
  ensure (decl.schema = schema)
    (no (bad .schemaMismatch s!"{kind} is declared as input with schema {decl.schema}, not {schema}"))
  return decl

def State.named (s : State) (kind : String) (source : Option String) : Option (String × Topic) :=
  source.bind fun src => (s.topics (kind, src)).map fun t => (src, t)

/-- An existing topic is read only in its own project or under a grant, with its schema. -/
def checkNamed (named : Option (String × Topic)) (project : Option String) (also : List Grant) (topic schema : String)
    (no : BusError → BusError) : Except BusError Unit :=
  match named with
  | none => .ok ()
  | some (src, t) => do
    ensure (t.projectId = project || granted also t.projectId src)
      (no (bad .crossProject s!"{topic} belongs to another project"))
    ensure (t.schema = schema) (no (bad .schemaMismatch s!"{topic} carries {t.schema}"))

def foreignProject (named : Option (String × Topic)) (project : Option String) : Option String :=
  named.bind fun found => if found.2.projectId = project then none else found.2.projectId

def InputPolicy.cap (env : Env) : InputPolicy → Nat
  | .sample => 1
  -- `block` is drop-oldest for readings
  | .dropOldest | .block => env.queueLen

def State.seqs (s : State) (key : Key) : Nat := ((s.topics key).map (·.seq)).getD 0

def State.addSub (s : State) (conn : Nat) (sess : Session) (sub : Sub) (cap : Nat) (decl : InputSpec)
    (grants : List Grant) : State :=
  let id := s.nextSub + 1
  { s with
    nextSub := id
    subs := s.subs ++ [(id, sub)]
    sessions := Function.update s.sessions conn (some { sess with subs := sess.subs ++ [id] })
    mail := s.mail.open id cap
    opened := Function.update s.opened id (some ⟨sub, decl, grants, s.seqs⟩) }

/-- `readers` is the number of streams the connection reads. A `weftos://` name does not
come here. -/
def State.subscribe (env : Env) (policy : BusPolicy) (s : State) (conn : Nat) (sess : Session)
    (topic schema : String) (readers : Nat) : Except BusError (Nat × State) := do
  let me := sess.instanceId
  let no e := refuse me "subscribe" topic e
  let parsed ← require (parseTopic topic) (no (bad .badRequest "topic must be <kind>/<source_id> or <kind>/*"))
  let kind := parsed.1
  let source := parsed.2
  ensure (!startsWith kind KIND_PREFIX) (no (bad .unsupported s!"{kind} is a service; use serve and call"))
  let held := sess.subs.length + readers
  ensure (held < env.maxSubsPerConn) (no (bad .busy s!"this connection already holds {held} subscriptions"))
  let spec ← s.specOf sess "subscribe"
  let decl ← inputFor (sess.declared.elim spec.inputs (·.2)) kind schema no
  let req : BusRequest := ⟨.subscribe, me, spec.cogId, sess.projectId, topic, schema, none⟩
  let also := policy.grantsFor req source
  let named := s.named kind source
  checkNamed named sess.projectId also topic schema no
  policy.gate { req with topicProject := foreignProject named sess.projectId }
  return (s.nextSub + 1, s.addSub conn sess ⟨me, sess.projectId, kind, source, schema, also⟩
    (InputPolicy.cap env decl.policy) decl (policy.grants req))

def State.unsubscribe (s : State) (conn : Nat) (sess : Session) (sub : Nat) : Except BusError (Unit × State) := do
  ensure (sub ∈ sess.subs) (refuse sess.instanceId "unsubscribe" "-"
    (bad .unknownSubscription s!"no subscription {sub} on this connection"))
  return ((), { s with
    sessions := Function.update s.sessions conn (some { sess with subs := sess.subs.filter (· ≠ sub) })
    subs := s.subs.filter fun entry => entry.1 ≠ sub })

def State.drain (s : State) (sess : Session) : State := { s with mail := sess.subs.foldl Mail.drain s.mail }

/-- The connection closed: its subscriptions go and its slot is free. -/
def State.close (s : State) (conn : Nat) (sess : Session) : State :=
  { s with
    subs := s.subs.filter fun entry => entry.1 ∉ sess.subs
    sessions := Function.update s.sessions conn none
    conns := Function.update s.conns sess.instanceId ((s.conns sess.instanceId).filter (· ≠ conn)) }

/-- A call of the broker. A connection's call names the connection; the policy is the one
in force when it is asked. -/
inductive Act where
  | register (spec : InstanceSpec) (token : String)
  | revoke (id : String)
  | hello (token : String) (peerUid : Option UInt32)
  | declare (conn : Nat) (policy : BusPolicy) (outputs : List OutputSpec) (inputs : List InputSpec)
  | publish (conn : Nat) (policy : BusPolicy) (r : Reading) (recvNs : Nat) (overRate : Option String)
  | publishInternal (writer : String) (project : Option String) (r : Reading) (recvNs : Nat)
  | subscribe (conn : Nat) (policy : BusPolicy) (topic schema : String) (readers : Nat)
  | unsubscribe (conn sub : Nat)
  | drain (conn : Nat)
  | close (conn : Nat)

def State.attempt {α : Type} (s : State) (result : Except BusError (α × State)) : State :=
  match result with
  | .ok (_, next) => next
  | .error _ => s

def State.withSession (s : State) (conn : Nat) (call : Session → State) : State := (s.sessions conn).elim s call

def step (env : Env) (s : State) : Act → State
  | .register spec token => s.attempt (s.register env spec token)
  | .revoke id => s.revoke id
  | .hello token peerUid => s.attempt (s.authenticate env token peerUid)
  | .declare conn policy outputs inputs =>
    s.withSession conn fun sess => s.attempt (s.declare policy conn sess outputs inputs)
  | .publish conn policy r recvNs overRate =>
    s.withSession conn fun sess => s.attempt (s.publish env policy sess r recvNs overRate)
  | .publishInternal writer project r recvNs => s.attempt (s.publishInternal env writer project r recvNs)
  | .subscribe conn policy topic schema readers =>
    s.withSession conn fun sess => s.attempt (s.subscribe env policy conn sess topic schema readers)
  | .unsubscribe conn sub => s.withSession conn fun sess => s.attempt (s.unsubscribe conn sess sub)
  | .drain conn => s.withSession conn fun sess => s.drain sess
  | .close conn => s.withSession conn fun sess => s.close conn sess

/-! ### A small bus

One cog that measures and one that reads, for worked runs; the reader has room for one
reading. -/

def bench : Env := ⟨"n1", 1, 64, 8, utf8, fun _ => 2⟩

def tokenA : String := "aaaaaaaaaaaaaaaaaaaaaaaaaaaaaaaa"
def tokenB : String := "bbbbbbbbbbbbbbbbbbbbbbbbbbbbbbbb"
def tokenC : String := "cccccccccccccccccccccccccccccccc"

def sensor : InstanceSpec := ⟨"a", "probe", some "p", none, [⟨"temp", "senml.v1", .reading⟩], []⟩
def reader : InstanceSpec := ⟨"b", "board", some "q", none, [], [⟨"temp", "senml.v1", .dropOldest⟩]⟩

def sample (t : Nat) : Reading := ⟨"temp", "k1", "senml.v1", t, .null⟩

end Weftos.Bus.Broker
