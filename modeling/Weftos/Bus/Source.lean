import Weftos.Bus.Mesh
import Weftos.Lib.Table
import Weftos.Stream.Ring

/-! The source side of topics on other nodes (`weftos-cogbus/src/mesh/source.rs`, `fetch.rs`). Its calls run
on threads of their own; each lock region and each send is one step. -/

namespace Weftos.Bus.Source
open Lib Lib.Bytes Lib.Json Lib.Outcome Lib.Text Lib.DropOldest
open Bus.Types Bus.Mesh Stream.Ring

/-! ### Exposures and limits -/

structure MeshLimits where
  readingsPerMin : Nat
  bytesPerSec : Nat
  subscriptionsPerPeer : Nat
  creditTimeoutS : Nat

def clamp (value low high : Nat) : Nat := max low (min value high)

def MeshLimits.narrowed (l : MeshLimits) (readingsPerMin bytesPerSec : Option Nat) : MeshLimits :=
  { l with
    readingsPerMin := readingsPerMin.elim l.readingsPerMin (clamp · 1 l.readingsPerMin)
    bytesPerSec := bytesPerSec.elim l.bytesPerSec (clamp · 1 l.bytesPerSec) }

inductive MeshAudience where
  | paired
  | nodes (ids : List String)
  | project (id : String)

def MeshAudience.named : MeshAudience → Bool
  | .nodes _ => true
  | .paired | .project _ => false

structure ExposureView where
  audience : MeshAudience
  raw : Bool
  ratePerMin : Option Nat
  bytesPerSec : Option Nat

/-- Raw data is served only when the operator allowed it and to named nodes. -/
def ExposureView.servesRaw (v : ExposureView) : Bool := v.raw && v.audience.named

/-- The exposure registry as it answers at one moment: an exposure as served to a peer, or
why it is not. -/
abbrev Registry := String → String → Except String ExposureView

def exposureId (topic : String) : String := "topic." ++ topic

def meshPrincipal (node : String) : String := "mesh:" ++ node

/-! ### Frames -/

/-- Source node to subscriber node; the bytes of a chunk or a slice are the frame's tail. -/
inductive TopicData where
  | reading (sub seq tNs : Nat) (body : Value)
  | chunk (sub seq tNs : Nat)
  | ended (sub : Nat) (reason : String)
  | error (sub : Nat) (code message : String)
  | blob (req size : Nat) (eof : Bool)
  | blobError (req : Nat) (code message : String)

def MAX_TAIL : Nat := 256 * 1024
structure Handed where
  exposure : String
  owner : String
  project : Option String
  raw : Bool
  bytesPerSec : Nat
  expiresMs : Nat

structure Queued where
  peer : String
  req : Nat
  hash : String
  offset : Nat
  len : Nat

/-! ### Served subscriptions -/

def TAP_BUFFER : Nat := 256

structure Tap where
  buf : Queue StreamRecord
  lost : Nat

def Tap.new : Tap := ⟨Queue.new TAP_BUFFER, 0⟩

def Tap.push (tap : Tap) (record : StreamRecord) : Tap :=
  ⟨tap.buf.push record, if tap.buf.full then tap.lost + 1 else tap.lost⟩

structure Served where
  topic : String
  raw : Bool
  owner : String
  project : Option String
  tap : Option Tap
  queue : Queue Delivery
  credit : Credit
  lastCredit : Nat
  limits : MeshLimits
  sent : Nat
  bytes : Nat
  drops : Nat

abbrev SubKey := String × Nat

structure HubConfig where
  window : Nat
  windowBytes : Nat
  maxServed : Nat
  queueLen : Nat

/-- Encoded size of a body, the handles it carries, and whether the node stores blobs. -/
structure HubEnv where
  bodySize : Value → Nat
  findHandles : Value → List BlobHandle
  hasStore : Bool

structure Outgoing where
  key : SubKey
  topic : String
  data : TopicData
  len : Nat
  tail : Octets

structure Hand where
  peer : String
  handles : List BlobHandle
  handed : Handed

structure Spend where
  reading : Delivery → Bool
  chunk : StreamRecord → Bool

structure Turn where
  served : Served
  hands : List Hand
  out : List Outgoing

def Served.dropOne (s : Served) : Served := { s with drops := s.drops + 1 }

def Served.handed (s : Served) : Handed :=
  ⟨exposureId s.topic, s.owner, s.project, s.raw, s.limits.bytesPerSec, 0⟩

def Turn.reading (env : HubEnv) (spend : Spend) (key : SubKey) (t : Turn) (d : Delivery) : Turn :=
  let s := t.served
  if s.credit.n = 0 || !spend.reading d then { t with served := s.dropOne }
  else
    let handles := env.findHandles d.body
    { served := { s with credit := { s.credit with n := s.credit.n - 1 } }
      hands := if handles.isEmpty then t.hands else t.hands ++ [⟨key.1, handles, s.handed⟩]
      out := t.out ++ [⟨key, s.topic, .reading key.2 d.seq d.tNs d.body, env.bodySize d.body, []⟩] }

/-- One stream record: it costs a credit and its bytes, or is dropped. -/
def Turn.chunk (spend : Spend) (key : SubKey) (t : Turn) (r : StreamRecord) : Turn :=
  let s := t.served
  let len := r.data.length
  if !(0 < s.credit.n && len ≤ s.credit.bytes && len ≤ MAX_TAIL) || !spend.chunk r then { t with served := s.dropOne }
  else
    { t with
      served := { s with credit := ⟨s.credit.n - 1, s.credit.bytes - len⟩ }
      out := t.out ++ [⟨key, s.topic, .chunk key.2 r.seq r.tNs, len, r.data⟩] }

def Turn.readings (env : HubEnv) (spend : Spend) (key : SubKey) (t : Turn) : Turn :=
  t.served.queue.buf.foldl (Turn.reading env spend key)
    { t with served := { t.served with queue := t.served.queue.drained } }

def Turn.chunks (spend : Spend) (key : SubKey) (t : Turn) : Turn :=
  match t.served.tap with
  | none => t
  | some tap =>
    let s := { t.served with tap := some ⟨tap.buf.drained, 0⟩, drops := t.served.drops + tap.lost }
    tap.buf.buf.foldl (Turn.chunk spend key) { t with served := s }

def Served.over (s : Served) (registry : Registry) (peer : String) (now : Nat) : Option String :=
  if SECOND * s.limits.creditTimeoutS < now - s.lastCredit then some "credit not renewed"
  else
    match registry (exposureId s.topic) peer with
    | .error why => some s!"withdrawn: {why}"
    | .ok v => if s.raw && !v.servesRaw then some "withdrawn: raw is no longer exposed to this node" else none

def Served.turn (env : HubEnv) (spend : Spend) (key : SubKey) (s : Served) : Turn :=
  ((Turn.mk s [] []).readings env spend key).chunks spend key

def Served.grant (cfg : HubConfig) (s : Served) (credit : Credit) (now : Nat) : Served :=
  { s with
    credit := ⟨min (s.credit.n + credit.n) (cfg.window * 4), min (s.credit.bytes + credit.bytes) (cfg.windowBytes * 4)⟩
    lastCredit := now }

/-! ### Admission -/

structure TopicView where
  schema : String
  cls : TopicClass
  writer : Option String
  projectId : Option String

structure Admission where
  key : SubKey
  topic : String
  view : TopicView
  owner : String
  policy : InputPolicy
  limits : MeshLimits
  credit : Credit
  at_ : Nat

structure Answers where
  topic : Option TopicView
  limits : Option MeshLimits
  policy : BusPolicy

def checkRaw (v : ExposureView) (t : TopicView) (topic : String) (raw : Bool) : Except BusError Unit :=
  let why :=
    if !raw then "the subscribe did not ask for raw data"
    else if !v.raw then "the exposure is not switched on with --raw"
    else "raw data is served only to an audience of named nodes"
  ensure (!isRaw t.cls t.schema || v.servesRaw && raw) (bad .rawNotExposed s!"{topic} is raw: {why}")

def checkSubscribe (registry : Registry) (peer : String) (sub : Nat) (topic schema policy : String) (raw : Bool)
    (credit : Credit) (answers : Answers) (at_ : Nat) : Except BusError Admission := do
  ensure ((splitOnce topic).any fun key => validTopicKind key.1 && validSourceId key.2)
    (bad .badRequest "topic must be <kind>/<source_id>")
  let t ← require (answers.topic.filter fun t => t.writer.any fun w => !startsWith w "@")
    (bad .notFound s!"{topic} is not written by a cog on this node")
  let declared ← require answers.limits (bad .unavailable s!"{topic}: its cog declared no [mesh_limits]")
  ensure (t.schema = schema) (bad .schemaMismatch s!"{topic} carries {t.schema}")
  let id := exposureId topic
  let view ← (registry id peer).mapError fun why => bad .denied s!"{id} is not served to this node: {why}"
  answers.policy.gate ⟨.meshSubscribe, meshPrincipal peer, "-", none, topic, schema, t.projectId⟩
  let policy ← require (InputPolicy.parse policy) (bad .badRequest "unknown policy")
  ensure (policy ≠ .block) (bad .unsupported "policy block is refused across nodes")
  checkRaw view t topic raw
  ensure (t.cls ≠ .blob) (bad .unsupported s!"{topic} is a blob topic; blobs travel by handle")
  return ⟨(peer, sub), topic, t, t.writer.getD "", policy, declared.narrowed view.ratePerMin view.bytesPerSec, credit,
    at_⟩

def Admission.open (a : Admission) (fails : Option String) : Except BusError (Option Tap) :=
  match fails with
  | none => .ok (if a.view.cls = .stream then some Tap.new else none)
  | some why =>
    .error (if a.view.cls = .stream then bad .unavailable why else bad .notFound s!"{a.topic} went away")

def Admission.served (cfg : HubConfig) (a : Admission) (tap : Option Tap) : Served where
  topic := a.topic
  raw := isRaw a.view.cls a.view.schema
  owner := a.owner
  project := a.view.projectId
  tap := tap
  queue := Queue.new (if a.view.cls = .stream then 1 else if a.policy = .sample then 1 else cfg.queueLen)
  credit := ⟨min a.credit.n (cfg.window * 4), min a.credit.bytes (cfg.windowBytes * 4)⟩
  lastCredit := a.at_
  limits := a.limits
  sent := 0
  bytes := 0
  drops := 0

def Admission.enter (cfg : HubConfig) (a : Admission) (served : List (SubKey × Served)) (fails : Option String) :
    Except BusError (List (SubKey × Served)) := do
  ensure (served.length < cfg.maxServed) (bad .busy "this node serves its limit of remote subscriptions")
  let held := served.countP (·.1.1 = a.key.1)
  ensure (held < a.limits.subscriptionsPerPeer) (bad .busy s!"this node already serves you {held} subscriptions")
  ensure ((served.lookup a.key).isNone) (bad .badRequest s!"subscription {a.key.2} is already open")
  let tap ← a.open fails
  return Table.insert served a.key (a.served cfg tap)

/-! ### Calls in progress -/

inductive Call where
  | request (peer : String) (req : TopicReq)
  | fetch (q : Queued)
  | pumpSource
  | serveFetches
  | endPeer (peer : String)
  | withdraw (exposure : String)

/-- What a `pump_source` has left to do after its lock region: blobs to hand, frames to
send, a frame to count, subscriptions to end and one that is removed but not told. -/
structure Pump where
  hands : List Hand
  out : List Outgoing
  counting : Option (SubKey × Nat × Bool)
  ended : List (SubKey × String)
  removed : Option (SubKey × String)

/-- Where a fetch is: looked up, permitted, or in the loop of `serve_fetches` with the
slices that wait for their budget. -/
inductive FetchStage where
  | lookedUp (q : Queued) (handed : Option Handed)
  | permitted (q : Queued)
  | loop (wait : List Queued)
  | popped (wait : List Queued) (q : Queued)
  | found (wait : List Queued) (q : Queued) (handed : Handed)
  | read (wait : List Queued) (q : Queued) (handed : Handed) (want : Nat)
  | reply (wait : List Queued) (peer : String) (data : TopicData) (tail : Octets)

inductive Thread where
  | idle
  | called (call : Call)
  | admitting (a : Admission)
  | answering (peer : String) (data : TopicData)
  | pumping (p : Pump)
  | ending (gone : List SubKey) (reason : String)
  | fetching (stage : FetchStage)

/-- A frame given to the link, which may refuse it; `topic` is what a reading or chunk is of. -/
structure Sent where
  peer : String
  data : TopicData
  topic : Option String
  accepted : Bool

structure Hub where
  registry : Registry
  served : List (SubKey × Served)
  handed : List ((String × String) × Handed)
  queue : List Queued
  threads : Nat → Thread
  sent : List Sent

def Hub.new : Hub := ⟨fun _ _ => .error "not exposed", [], [], [], fun _ => .idle, []⟩

/-- What a step learns from outside: the clocks, whether the link takes a frame, what the
budgets, the broker, governance and the store answer. -/
structure Outside where
  now : Nat
  nowMs : Nat
  accepts : Bool
  spend : Spend
  answers : Answers
  openFails : Option String
  budget : Bool
  slice : Except String (Nat × Octets × Bool)

def Hub.goes (h : Hub) (i : Nat) (next : Thread) : Hub := { h with threads := Function.update h.threads i next }

@[simp] theorem Hub.goes_self (h : Hub) (i : Nat) (next : Thread) : (h.goes i next).threads i = next :=
  Function.update_self ..

theorem Hub.goes_of_ne (h : Hub) (next : Thread) (other : j ≠ i) : (h.goes i next).threads j = h.threads j :=
  Function.update_of_ne other ..

def Hub.send (h : Hub) (peer : String) (data : TopicData) (topic : Option String) (o : Outside) : Hub :=
  { h with sent := h.sent ++ [⟨peer, data, topic, o.accepts⟩] }

def Hub.remove (h : Hub) (key : SubKey) : Hub := { h with served := Table.remove h.served key }

def Hub.change (h : Hub) (key : SubKey) (change : Served → Served) : Hub :=
  { h with served := h.served.map fun entry => if entry.1 = key then (entry.1, change entry.2) else entry }

def Hub.exposed (h : Hub) (exposure : String) : List SubKey :=
  (h.served.filter fun entry => exposureId entry.2.topic = exposure).map (·.1)

def Hub.without (h : Hub) (exposure : String) : Hub :=
  { h with served := h.served.filter fun entry => exposureId entry.2.topic ≠ exposure }

/-! ### pump_source -/

def pumpEnded (registry : Registry) (now : Nat) (served : List (SubKey × Served)) : List (SubKey × String) :=
  served.filterMap fun entry => (entry.2.over registry entry.1.1 now).map fun why => (entry.1, why)

def pumpTurn (env : HubEnv) (registry : Registry) (o : Outside) (entry : SubKey × Served) : Turn :=
  if (entry.2.over registry entry.1.1 o.now).isSome then ⟨entry.2, [], []⟩ else entry.2.turn env o.spend entry.1

def Hub.pumpSource (env : HubEnv) (h : Hub) (o : Outside) : Pump × Hub :=
  let turns := h.served.map fun entry => (entry.1, pumpTurn env h.registry o entry)
  (⟨turns.flatMap (·.2.hands), turns.flatMap (·.2.out), none, pumpEnded h.registry o.now h.served, none⟩,
    { h with served := turns.map fun turn => (turn.1, turn.2.served) })

/-- `hand`: at most 32 handles of a reading, in a table of at most 16384. -/
def Hub.hand (h : Hub) (hand : Hand) (nowMs : Nat) : Hub :=
  let live := h.handed.filter fun entry => nowMs < entry.2.expiresMs
  { h with handed := (hand.handles.take 32).foldl (fun table b =>
      if table.length < 16384 then Table.insert table (hand.peer, b.hash) { hand.handed with expiresMs := b.expiresMs }
      else table) live }

def Served.count (s : Served) (len : Nat) (sent : Bool) : Served :=
  if sent then { s with sent := s.sent + 1, bytes := s.bytes + len } else s.dropOne

/-- One step after the lock region, in the order of the source. -/
def Hub.pump (h : Hub) (i : Nat) (p : Pump) (o : Outside) : Hub :=
  match p.counting, p.hands, p.out, p.removed, p.ended with
  | some (key, len, sent), _, _, _, _ => (h.change key (·.count len sent)).goes i (.pumping { p with counting := none })
  | none, hand :: hands, _, _, _ => (h.hand hand o.nowMs).goes i (.pumping { p with hands := hands })
  | none, [], f :: out, _, _ =>
    (h.send f.key.1 f.data (some f.topic) o).goes i
      (.pumping { p with out := out, counting := some (f.key, f.len, o.accepts) })
  | none, [], [], some (key, why), _ =>
    (h.send key.1 (.ended key.2 why) none o).goes i (.pumping { p with removed := none })
  | none, [], [], none, (key, why) :: ended =>
    (h.remove key).goes i (.pumping { p with
      ended := ended
      removed := if (h.served.lookup key).isSome then some (key, why) else none })
  | none, [], [], none, [] => h.goes i .idle

def HubEnv.serving (env : HubEnv) : Thread := if env.hasStore then .fetching (.loop []) else .idle

def Hub.begin (env : HubEnv) (cfg : HubConfig) (h : Hub) (i : Nat) (o : Outside) : Call → Hub
  | .request peer (.subscribe sub topic schema policy raw credit) =>
    match checkSubscribe h.registry peer sub topic schema policy raw credit o.answers o.now with
    | .ok a => h.goes i (.admitting a)
    | .error e => h.goes i (.answering peer (.error sub e.code.name e.message))
  | .request peer (.credit sub credit) => (h.change (peer, sub) (·.grant cfg credit o.now)).goes i .idle
  | .request peer (.unsubscribe sub) => (h.remove (peer, sub)).goes i .idle
  | .fetch q => h.goes i (.fetching (.lookedUp q ((h.handed.lookup (q.peer, q.hash)).filter (o.nowMs < ·.expiresMs))))
  | .pumpSource => (h.pumpSource env o).2.goes i (.pumping (h.pumpSource env o).1)
  | .serveFetches => h.goes i env.serving
  | .endPeer peer => { h with served := h.served.filter (·.1.1 ≠ peer) }.goes i .idle
  | .withdraw exposure => (h.without exposure).goes i (.ending (h.exposed exposure) "withdrawn by the operator")

def Hub.admitting (cfg : HubConfig) (h : Hub) (i : Nat) (a : Admission) (o : Outside) : Hub :=
  match a.enter cfg h.served o.openFails with
  | .ok served => { h with served := served }.goes i .idle
  | .error e => h.goes i (.answering a.key.1 (.error a.key.2 e.code.name e.message))

/-! ### Fetches -/

def blobTopic (hash : String) : String := s!"blob/{hash}"

/-- The checks of a fetch: the blob was handed to the peer, its exposure still serves it and,
for the first slice, governance allows it. -/
def checkFetch (registry : Registry) (policy : BusPolicy) (q : Queued) (handed : Option Handed) :
    Except BusError Unit := do
  let h ← require handed (bad .notFound s!"this node handed you no blob {q.hash}")
  let v ← (registry h.exposure q.peer).mapError fun why => bad .denied
    s!"{h.exposure} is not served to this node: {why}"
  ensure (!h.raw || v.servesRaw)
    (bad .rawNotExposed s!"{h.exposure} is raw and no longer exposed raw to this node")
  if q.offset = 0 then policy.gate ⟨.meshFetch, meshPrincipal q.peer, "-", none, blobTopic q.hash, "blob.v1", none⟩
  else .ok ()

def Handed.want (h : Handed) (q : Queued) : Nat := min (clamp q.len 1 CHUNK) (max h.bytesPerSec 1)

def Hub.fetch (env : HubEnv) (h : Hub) (i : Nat) (o : Outside) : FetchStage → Hub
  | .lookedUp q handed =>
    match checkFetch h.registry o.answers.policy q handed with
    | .ok () => h.goes i (.fetching (.permitted q))
    | .error e => h.goes i (.answering q.peer (.blobError q.req e.code.name e.message))
  | .permitted q => { h with queue := h.queue ++ [q] }.goes i env.serving
  | .loop wait =>
    match h.queue with
    | [] => { h with queue := wait }.goes i .idle
    | q :: queue => { h with queue := queue }.goes i (.fetching (.popped wait q))
  | .popped wait q =>
    match h.handed.lookup (q.peer, q.hash) with
    | none => h.goes i (.fetching (.loop wait))
    | some handed => h.goes i (.fetching (.found wait q handed))
  | .found wait q handed =>
    if o.budget then h.goes i (.fetching (.read wait q handed (handed.want q)))
    else h.goes i (.fetching (.loop (wait ++ [q])))
  | .read wait q _ _ =>
    match o.slice with
    | .ok (size, bytes, eof) => h.goes i (.fetching (.reply wait q.peer (.blob q.req size eof) bytes))
    | .error why => h.goes i (.fetching (.reply wait q.peer (.blobError q.req ErrorCode.notFound.name why) []))
  | .reply wait peer data _ => (h.send peer data none o).goes i (.fetching (.loop wait))

def Hub.go (env : HubEnv) (cfg : HubConfig) (h : Hub) (i : Nat) (o : Outside) : Hub :=
  match h.threads i with
  | .idle => h
  | .called call => h.begin env cfg i o call
  | .admitting a => h.admitting cfg i a o
  | .answering peer data => (h.send peer data none o).goes i .idle
  | .pumping p => h.pump i p o
  | .ending [] _ => h.goes i .idle
  | .ending (key :: gone) reason => (h.send key.1 (.ended key.2 reason) none o).goes i (.ending gone reason)
  | .fetching stage => h.fetch env i o stage

/-- The registry changes, the broker publishes to the readers and taps of a topic, a call is
made on an idle thread, or a thread goes on. -/
inductive Act where
  | expose (registry : Registry)
  | publish (topic : String) (d : Delivery)
  | record (topic : String) (r : StreamRecord)
  | call (i : Nat) (call : Call)
  | go (i : Nat) (o : Outside)

def step (env : HubEnv) (cfg : HubConfig) (h : Hub) : Act → Hub
  | .expose registry => { h with registry := registry }
  | .publish topic d =>
    { h with served := h.served.map fun entry =>
        if entry.2.topic = topic then (entry.1, { entry.2 with queue := entry.2.queue.push d }) else entry }
  | .record topic r =>
    { h with served := h.served.map fun entry =>
        if entry.2.topic = topic then (entry.1, { entry.2 with tap := entry.2.tap.map (·.push r) }) else entry }
  | .call i call =>
    match h.threads i with
    | .idle => h.goes i (.called call)
    | _ => h
  | .go i o => h.go env cfg i o

end Weftos.Bus.Source
