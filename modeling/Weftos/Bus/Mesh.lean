import Weftos.Bus.Change

/-! The broker's side of topics on other nodes (`weftos-cogbus/src/mesh_ops.rs`). `subscribe_mesh` gives the
lock up to ask governance and takes it again, so it is two steps. -/

namespace Weftos.Bus.Mesh
open Lib.Json Lib.Outcome Lib.Text Bus.Types Broker Function

structure Credit where
  n : Nat
  bytes : Nat

inductive TopicReq where
  | subscribe (sub : Nat) (topic schema policy : String) (raw : Bool) (credit : Credit)
  | credit (sub : Nat) (credit : Credit)
  | unsubscribe (sub : Nat)

structure Advert where
  topic : String
  schema : String
  cls : String
  project : Option String

structure Offer where
  node : String
  schema : String
  cls : TopicClass
  project : Option String
  expires : Nat

inductive Phase where
  | want
  | open
  | broken (retryAt backoff : Nat) (why : String)
  deriving DecidableEq

structure StreamRemote where
  project : Option String
  outBytes : Nat

/-- One mesh subscription for one proxy topic. `offered` is the project its node's offer
named when this node last subscribed there; the broker does not keep it. -/
structure Remote where
  node : String
  kind : String
  source : String
  schema : String
  policy : InputPolicy
  raw : Bool
  phase : Phase
  outstanding : Nat
  renewed : Nat
  received : Nat
  stream : Option StreamRemote
  offered : Option String

def Remote.key (r : Remote) : Key := (r.kind, r.source)

structure MeshConfig where
  window : Nat
  windowBytes : Nat
  renewEvery : Nat
  maxBackoff : Nat
  meshName : Option String

structure MeshState where
  offers : Key → Option Offer
  remote : List (Nat × Remote)
  next : Nat

structure Ask where
  name : String
  key : Key
  schema : String
  raw : Bool
  decl : InputSpec
  node : String
  project : Option String
  stream : Bool
  also : List Grant
  grants : List Grant
  req : BusRequest
  now : Nat

structure Node where
  core : State
  mesh : MeshState
  asking : Nat → Option Ask

def Node.new : Node := ⟨State.new, ⟨fun _ => none, [], 0⟩, fun _ => none⟩

def proxyWriter (node : String) : String := "@mesh:" ++ node

/-- `weftos://<mesh>/sensors|services/<source>/topics/<kind>` to mesh, kind and source. -/
def parseMeshTopic (name : String) : Option (String × Key) :=
  match (stripPrefix name "weftos://").map fun rest => (rest.toList.splitOn '/').map String.ofList with
  | some [mesh, cls, source, topics, kind] =>
    if mesh ≠ "" && (cls = "sensors" || cls = "services") && topics = "topics" && validSourceId source &&
        validTopicKind kind then
      some (mesh, (kind, source))
    else none
  | _ => none

/-! ### Subscribe -/

/-- The topic under the key of a reading asked for from another node: none, or one that no
local writer has and that agrees with the offer. -/
def checkProxy (found : Option Topic) (key : Key) (project : Option String) (schema : String)
    (no : BusError → BusError) : Except BusError Unit :=
  match found with
  | none => .ok ()
  | some t => do
    ensure (t.writer.all (startsWith · "@mesh:"))
      (no (bad .writerConflict s!"{key.topic} is written on this node"))
    ensure (t.projectId = project && t.schema = schema)
      (no (bad .writerConflict s!"{key.topic} is already a different topic here"))

def checkMeshName (cfg : MeshConfig) (mesh : String) (no : BusError → BusError) : Except BusError Unit :=
  ensure (cfg.meshName.all (· = mesh)) (no (bad .badRequest s!"{mesh} is not this node's mesh"))

def MeshState.offerFor (m : MeshState) (key : Key) (name schema : String) (raw : Bool) (now : Nat)
    (no : BusError → BusError) : Except BusError Offer := do
  let offer ← require ((m.offers key).filter (now < ·.expires))
    (no (bad .unavailable s!"no node offers {name} to this node now"))
  ensure (offer.schema = schema) (no (bad .schemaMismatch s!"{name} carries {offer.schema}"))
  ensure (offer.cls ≠ .blob) (no (bad .unsupported s!"{name} is a blob topic; blobs travel by handle"))
  ensure (!isRaw offer.cls schema || raw) (no (bad .rawNotExposed s!"{name} is raw: subscribe with raw: true"))
  return offer

def Node.meshCheck (env : Env) (cfg : MeshConfig) (n : Node) (policy : BusPolicy) (sess : Session)
    (name schema : String)
    (raw : Bool) (readers now : Nat) : Except BusError Ask := do
  let me := sess.instanceId
  let no e := refuse me "subscribe" name e
  let parsed ← require (parseMeshTopic name)
    (no (bad .badRequest "name must be weftos://<mesh>/sensors/<source_id>/topics/<kind>"))
  let key := parsed.2
  ensure (!startsWith key.1 "svc.") (no (bad .unsupported s!"{key.1} is a service; use serve and call"))
  let held := sess.subs.length + readers
  ensure (held < env.maxSubsPerConn) (no (bad .busy s!"this connection already holds {held} subscriptions"))
  checkMeshName cfg parsed.1 no
  let spec ← n.core.specOf sess "subscribe"
  let decl ← inputFor (sess.declared.elim spec.inputs (·.2)) key.1 schema no
  let offer ← n.mesh.offerFor key name schema raw now no
  let req : BusRequest := ⟨.subscribe, me, spec.cogId, sess.projectId, name, schema, none⟩
  let also := policy.grantsFor req (some key.2)
  ensure (offer.project = sess.projectId || granted also offer.project key.2)
    (no (bad .crossProject s!"{name} belongs to another project"))
  let stream := offer.cls = .stream
  checkProxy (if stream then none else n.core.topics key) key offer.project schema no
  let topicProject := if offer.project = sess.projectId then none else offer.project
  return ⟨name, key, schema, raw, decl, offer.node, offer.project, stream, also, policy.grants req,
    { req with topicProject := topicProject }, now⟩

/-- The proxy topic of a reading is written by its node from now on, whoever wrote it. -/
def claimTopic (topics : Key → Option Topic) (ask : Ask) : Key → Option Topic :=
  if ask.stream then topics
  else
    let t := (topics ask.key).getD (.fresh ask.schema ask.project)
    update topics ask.key (some { t with writer := some (proxyWriter ask.node) })

/-- `sample` stays, anything else is drop-oldest across nodes. -/
def meshPolicy (policy : InputPolicy) : InputPolicy := if policy = .sample then .sample else .dropOldest

def Ask.remote (ask : Ask) : Remote where
  node := ask.node
  kind := ask.key.1
  source := ask.key.2
  schema := ask.schema
  policy := meshPolicy ask.decl.policy
  raw := ask.raw
  phase := .want
  outstanding := 0
  renewed := ask.now
  received := 0
  stream := if ask.stream then some ⟨ask.project, 0⟩ else none
  offered := ask.project

def MeshState.addRemote (m : MeshState) (ask : Ask) : MeshState :=
  if m.remote.any (fun entry => entry.2.kind = ask.key.1 && entry.2.source = ask.key.2) then m
  else { m with next := m.next + 1, remote := m.remote ++ [(m.next + 1, ask.remote)] }

def Node.meshCommit (env : Env) (n : Node) (conn : Nat) (sess : Session) (ask : Ask) : Node where
  core :=
    { n.core with topics := claimTopic n.core.topics ask }.addSub conn sess
      ⟨sess.instanceId, sess.projectId, ask.key.1, some ask.key.2, ask.schema, ask.also⟩
      (InputPolicy.cap env ask.decl.policy) ask.decl ask.grants
  mesh := n.mesh.addRemote ask
  asking := update n.asking conn none

/-! ### Offers and readings of peers -/

def Offer.ofAdvert (node : String) (a : Advert) (expires : Nat) : Option (Key × Offer) :=
  match splitOnce a.topic, TopicClass.parse a.cls with
  | some (kind, source), some cls =>
    if validTopicKind kind && validSourceId source && isRegistered a.schema &&
        a.project.all (fun p => (Lib.Bytes.utf8 p).length ≤ 128) then
      some ((kind, source), ⟨node, a.schema, cls, a.project, expires⟩)
    else none
  | _, _ => none

def withoutNode (offers : Key → Option Offer) (node : String) (key : Key) : Option Offer :=
  (offers key).filter (·.node ≠ node)

def MeshState.advert (m : MeshState) (node : String) (topics : List Advert) (expires : Nat) : MeshState :=
  let valid := (topics.take 1024).filterMap fun a => Offer.ofAdvert node a expires
  { m with offers := valid.foldl (fun offers o => update offers o.1 (some o.2)) (withoutNode m.offers node) }

def MeshState.remoteOf (m : MeshState) (node : String) (rsub : Nat) : Option Remote :=
  (m.remote.lookup rsub).filter (·.node = node)

def MeshState.modify (m : MeshState) (node : String) (rsub : Nat) (change : Remote → Remote) : MeshState :=
  { m with remote := m.remote.map fun entry =>
      if entry.1 = rsub && entry.2.node = node then (entry.1, change entry.2) else entry }

/-- A reading came: credit is granted again once half the window is used. -/
def Remote.take (cfg : MeshConfig) (r : Remote) (now : Nat) : Nat × Remote :=
  let left := r.outstanding - 1
  let r := { r with phase := .open, received := r.received + 1, outstanding := left }
  if left ≤ cfg.window / 2 then (cfg.window - left, { r with outstanding := cfg.window, renewed := now }) else (0, r)

/-- What is published for a node: in the project of the proxy topic, with the source's
seq. -/
def Node.remotePut (n : Node) (node : String) (r : Remote) (seq tNs : Nat) (body : Value) : Put where
  writer := proxyWriter node
  project := (n.core.topics r.key).bind (·.projectId)
  reading := ⟨r.kind, r.source, r.schema, tNs, body⟩
  origin := some node
  seq := some seq
  under := none

def Node.meshReading (env : Env) (cfg : MeshConfig) (n : Node) (node : String) (rsub seq tNs : Nat) (body : Value)
    (now recvNs : Nat) : Node :=
  match n.mesh.remoteOf node rsub with
  | none => n
  | some r =>
    { n with
      core := n.core.attempt (n.core.put env (n.remotePut node r seq tNs body) recvNs)
      mesh := n.mesh.modify node rsub fun r => (r.take cfg now).2 }

def SECOND : Nat := 1000000000

/-- The source ended or refused a subscription: retry with backoff. -/
def Remote.broke (cfg : MeshConfig) (r : Remote) (why : String) (now : Nat) : Remote :=
  let backoff :=
    match r.phase with
    | .broken _ backoff _ => min (backoff * 2) cfg.maxBackoff
    | _ => min SECOND cfg.maxBackoff
  { r with phase := .broken (now + backoff) backoff why }

def MeshState.ended (cfg : MeshConfig) (m : MeshState) (node : String) (rsub : Nat) (why : String) (now : Nat) :
    MeshState :=
  m.modify node rsub fun r => r.broke cfg why now

/-! ### Frames the subscriber owes -/

def readsRemote (r : Remote) (sub : Sub) : Bool :=
  !startsWith sub.instance_ "@" && sub.kind = r.kind && sub.source = some r.source

structure Owed where
  topics : Key → Option Topic
  remote : List (Nat × Remote)
  out : List (String × TopicReq)
  gone : List (Nat × Key)

def Remote.renew (cfg : MeshConfig) (r : Remote) (id now : Nat) : Remote × List (String × TopicReq) :=
  if r.phase = .open && cfg.renewEvery ≤ now - r.renewed then
    ({ r with renewed := now }, [(r.node, .credit id ⟨0, 0⟩)])
  else (r, [])

def Remote.due (r : Remote) (now : Nat) : Bool :=
  match r.phase with
  | .want => true
  | .broken retryAt _ _ => retryAt ≤ now
  | .open => false

def Remote.follow (cfg : MeshConfig) (r : Remote) (o : Offer) (now : Nat) : Remote :=
  { r with
    node := o.node
    phase := .open
    outstanding := cfg.window
    stream := r.stream.map fun x => { x with outBytes := cfg.windowBytes }
    renewed := now
    offered := o.project }

def Remote.request (cfg : MeshConfig) (r : Remote) (id : Nat) : TopicReq :=
  .subscribe id r.key.topic r.schema (if r.policy = .sample then "sample" else "drop-oldest") r.raw
    ⟨cfg.window, (r.stream.map fun _ => cfg.windowBytes).getD 0⟩

def owe (cfg : MeshConfig) (offers : Key → Option Offer) (subs : List (Nat × Sub)) (now : Nat) (acc : Owed)
    (entry : Nat × Remote) : Owed :=
  let (id, r) := entry
  if subs.any (fun sub => readsRemote r sub.2) then
    let (r, renewal) := r.renew cfg id now
    match (offers r.key).filter fun o => now < o.expires && o.schema = r.schema && r.due now with
    | none => { acc with remote := acc.remote ++ [(id, r)], out := acc.out ++ renewal }
    -- the source may have moved to another node; its offer is followed
    | some o =>
      let r := r.follow cfg o now
      { acc with
        topics := update acc.topics r.key
          ((acc.topics r.key).map fun t => { t with writer := some (proxyWriter r.node) })
        remote := acc.remote ++ [(id, r)]
        out := acc.out ++ renewal ++ [(r.node, r.request cfg id)] }
  else
    { acc with
      out := if r.phase = .open then acc.out ++ [(r.node, .unsubscribe id)] else acc.out
      gone := acc.gone ++ [(id, r.key)] }

def released (t : Topic) : Topic := if t.writer.any (startsWith · "@mesh:") then { t with writer := none } else t

def release (topics : Key → Option Topic) (gone : Nat × Key) : Key → Option Topic :=
  update topics gone.2 ((topics gone.2).map released)

def Node.owed (cfg : MeshConfig) (n : Node) (now : Nat) : Owed :=
  n.mesh.remote.foldl (owe cfg n.mesh.offers n.core.subs now) ⟨n.core.topics, [], [], []⟩

def Node.meshDue (cfg : MeshConfig) (n : Node) (now : Nat) : List (String × TopicReq) × Node :=
  let acc := n.owed cfg now
  (acc.out, { n with
    core := { n.core with topics := acc.gone.foldl release acc.topics }
    mesh := { n.mesh with remote := acc.remote } })

/-- A call of the broker or a frame of a peer. `meshPeerDown` is what it does under its
first lock; its calls of `mesh_ended` are steps of their own. -/
inductive Act where
  | call (act : Broker.Act)
  | meshCheck (conn : Nat) (policy : BusPolicy) (name schema : String) (raw : Bool) (readers now : Nat)
  | meshCommit (conn : Nat) (policy : BusPolicy)
  | meshAdvert (node : String) (topics : List Advert) (expires : Nat)
  | meshReading (node : String) (rsub seq tNs : Nat) (body : Value) (now recvNs : Nat)
  | meshEnded (node : String) (rsub : Nat) (why : String) (now : Nat)
  | meshPeerDown (node : String)
  | meshDue (now : Nat)

def caller : Broker.Act → Option Nat
  | .declare conn .. | .publish conn .. | .subscribe conn .. | .unsubscribe conn _ | .drain conn | .close conn =>
    some conn
  | .register .. | .revoke _ | .hello .. | .publishInternal .. => none

/-- A connection inside `subscribe_mesh` makes no other call. -/
def Node.waiting (n : Node) (conn : Nat) : Bool := (n.asking conn).isSome

def Node.check (env : Env) (cfg : MeshConfig) (n : Node) (conn : Nat) (policy : BusPolicy) (name schema : String)
    (raw : Bool) (readers now : Nat) : Node :=
  match n.core.sessions conn with
  | none => n
  | some sess =>
    match n.meshCheck env cfg policy sess name schema raw readers now with
    | .error _ => n
    | .ok ask => { n with asking := update n.asking conn (some ask) }

/-- Governance is asked without the lock; a refusal ends the call. -/
def Node.commit (env : Env) (n : Node) (conn : Nat) (policy : BusPolicy) : Node :=
  match n.asking conn, n.core.sessions conn with
  | some ask, some sess =>
    match policy.decide ask.req with
    | some _ => { n with asking := update n.asking conn none }
    | none => n.meshCommit env conn sess ask
  | _, _ => n

def step (env : Env) (cfg : MeshConfig) (n : Node) : Act → Node
  | .call act => if (caller act).any n.waiting then n else { n with core := Broker.step env n.core act }
  | .meshCheck conn policy name schema raw readers now =>
    if n.waiting conn then n else n.check env cfg conn policy name schema raw readers now
  | .meshCommit conn policy => n.commit env conn policy
  | .meshAdvert node topics expires => { n with mesh := n.mesh.advert node topics expires }
  | .meshReading node rsub seq tNs body now recvNs => n.meshReading env cfg node rsub seq tNs body now recvNs
  | .meshEnded node rsub why now => { n with mesh := n.mesh.ended cfg node rsub why now }
  | .meshPeerDown node => { n with mesh := { n.mesh with offers := withoutNode n.mesh.offers node } }
  | .meshDue now => (n.meshDue cfg now).2

/-! ### A small mesh -/

def meshBench : MeshConfig := ⟨64, 1048576, 10, 30, none⟩

def offerOf (project : Option String) (cls : String) : Advert := ⟨"temp/k1", "senml.v1", cls, project⟩

def offered (cls : String) : List Act :=
  [.call (.register sensor tokenA), .call (.hello tokenA none),
    .call (.register { reader with projectId := some "p" } tokenB), .call (.hello tokenB none),
    .meshAdvert "n2" [offerOf (some "p") cls] 100]

def askRemote (raw : Bool) : Act :=
  .meshCheck 2 AllowAll "weftos://home/sensors/k1/topics/temp" "senml.v1" raw 0 10

end Weftos.Bus.Mesh
