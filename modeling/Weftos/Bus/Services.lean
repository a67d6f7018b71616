import Weftos.Bus.Change
import Weftos.Lib.Table

/-! Service calls (`weftos-cogbus/src/svc.rs`). A reply takes its call out of the table under the lock and
sends the answer after it, so it is two steps. -/

namespace Weftos.Bus.Services
open Lib Lib.Json Lib.Outcome Lib.Text Bus.Types Broker

def MAX_PENDING_PER_SERVICE : Nat := 64
def MAX_PENDING_PER_CALLER : Nat := 16
def MAX_CALL_MS : Nat := 600000
def DEFAULT_CALL_MS : Nat := 30000

structure Server where
  instance_ : String
  conn : Nat
  projectId : Option String
  schema : String

structure Pending where
  service : Key
  caller : String
  callerConn : Nat
  callerId : Nat
  serverConn : Nat
  deadline : Nat
  deriving DecidableEq

structure Svc where
  servers : List (Key × Server)
  calls : List (Nat × Pending)
  next : Nat

structure CallDelivery where
  call : Nat
  topic : String
  schema : String
  caller : String
  nodeId : String
  recvNs : Nat
  timeoutMs : Nat
  body : Value

inductive Event where
  | ok (id : Nat) (body : Value)
  | error (id : Nat) (code : ErrorCode) (message : String)

def Event.id : Event → Nat
  | .ok id _ | .error id _ _ => id

structure Answer where
  entry : Nat × Pending
  event : Event

/-- A `reply_call` that has its call and has not sent the answer. -/
structure Replying where
  entry : Nat × Pending
  provider : String
  result : Except String Value

/-- The broker with its services. `accepted`, `answers` and `forgotten` remember what became
of every call, `pushed` what was sent to which provider's connection. -/
structure System where
  core : State
  svc : Svc
  replying : List Replying
  accepted : List (Nat × Pending)
  answers : List Answer
  forgotten : List (Nat × Pending)
  pushed : List (Nat × CallDelivery)

def System.new : System := ⟨State.new, ⟨[], [], 0⟩, [], [], [], [], []⟩

/-! ### Calls that end -/

def failCall (code : ErrorCode) (message : String) (entry : Nat × Pending) : Answer :=
  ⟨entry, .error entry.2.callerId code message⟩

section
variable (s : System)

def System.fail (meant : Pending → Bool) (code : ErrorCode) (message : String) : System :=
  { s with
    svc := { s.svc with calls := s.svc.calls.filter fun entry => !meant entry.2 }
    answers := s.answers ++ (s.svc.calls.filter fun entry => meant entry.2).map (failCall code message) }

def System.failProviderCalls (gone : Pending → Bool) : System :=
  s.fail gone .unavailable "the service went away"

def System.forget (meant : Pending → Bool) : System :=
  { s with
    svc := { s.svc with calls := s.svc.calls.filter fun entry => !meant entry.2 }
    forgotten := s.forgotten ++ s.svc.calls.filter fun entry => meant entry.2 }

def System.retainServers (keep : Server → Bool) : System :=
  { s with svc := { s.svc with servers := s.svc.servers.filter fun entry => keep entry.2 } }

def System.dropConn (conn : Nat) : System :=
  ((s.retainServers (·.conn ≠ conn)).failProviderCalls (·.serverConn = conn)).forget (·.callerConn = conn)

end

def Svc.connsOf (svc : Svc) (id : String) : List Nat :=
  (svc.servers.filter fun entry => entry.2.instance_ = id).map (·.2.conn)

def System.dropInstance (s : System) (id : String) : System :=
  let conns := s.svc.connsOf id
  ((s.retainServers (·.instance_ ≠ id)).failProviderCalls (·.serverConn ∈ conns)).forget (·.caller = id)

/-! ### Serve, call, reply -/

def Svc.server (svc : Svc) (key : Key) : Option Server := svc.servers.lookup key

/-- A provider that reconnects replaces its own earlier connection, whose calls fail. -/
def System.install (s : System) (key : Key) (server : Server) : System :=
  let placed := { s with svc := { s.svc with servers := Table.insert s.svc.servers key server } }
  match s.svc.server key with
  | none => placed
  | some old => if old.conn = server.conn then placed else placed.failProviderCalls (·.serverConn = old.conn)

def serviceOutput (outputs : List OutputSpec) (kind schema : String) (no : BusError → BusError) :
    Except BusError Unit := do
  let decl ← require (outputs.find? (·.topic = kind)) (no (bad .undeclared s!"{kind} is not a declared output"))
  ensure (decl.schema = schema)
    (no (bad .schemaMismatch s!"{kind} is declared with schema {decl.schema}, not {schema}"))
  ensure (decl.cls = .reading) (no (bad .unsupported "a service output has class reading"))

def System.serveTopic (s : System) (policy : BusPolicy) (conn : Nat) (sess : Session) (key : Key) (schema : String) :
    Except BusError (String × System) := do
  let topic := key.topic
  let me := sess.instanceId
  let no e := refuse me "serve" topic e
  ensure (startsWith key.1 KIND_PREFIX && validTopicKind key.1 && validSourceId key.2)
    (no (bad .badRequest "a service is svc.<name>/<source_id>"))
  let spec ← s.core.specOf sess "serve"
  serviceOutput (sess.declared.elim spec.outputs (·.1)) key.1 schema no
  ensure ((s.svc.server key).all (·.instance_ = me))
    (no (bad .writerConflict s!"{topic} is served by another instance"))
  policy.gate ⟨.serve, me, spec.cogId, spec.projectId, topic, schema, none⟩
  return (topic, s.install key ⟨me, conn, spec.projectId, schema⟩)

def Svc.pendingOn (svc : Svc) (key : Key) : Nat := svc.calls.countP (·.2.service = key)

def Svc.pendingFrom (svc : Svc) (caller : String) : Nat := svc.calls.countP (·.2.caller = caller)

def splitTopic (topic : String) : Option Key :=
  (splitOnce topic).filter fun key => startsWith key.1 KIND_PREFIX && validTopicKind key.1 && validSourceId key.2

/-- `clamp(1, MAX_CALL_MS)` of the time asked for, or of the default. -/
def callTimeout (timeoutMs : Option Nat) : Nat := max 1 (min (timeoutMs.getD DEFAULT_CALL_MS) MAX_CALL_MS)

/-- A service of another project is called only under a grant; governance is then told its
project. -/
def callProject (policy : BusPolicy) (req : BusRequest) (server : Server) (project : Option String)
    (source topic : String)
    (no : BusError → BusError) : Except BusError (Option String) :=
  if server.projectId = project then .ok none
  else do
    ensure (granted (policy.grantsFor req (some source)) server.projectId source)
      (no (bad .crossProject s!"{topic} belongs to another project"))
    return server.projectId

def System.accept (s : System) (d : CallDelivery) (p : Pending) : System :=
  { s with
    svc := { s.svc with next := d.call, calls := Table.insert s.svc.calls d.call p }
    accepted := s.accepted ++ [(d.call, p)]
    pushed := s.pushed ++ [(p.serverConn, d)] }

/-- `reachable` says whether the provider's channel still takes the call; `now` is in
milliseconds. -/
def System.callService (env : Env) (s : System) (policy : BusPolicy) (conn : Nat) (sess : Session) (reqId : Nat)
    (topic schema : String) (body : Value) (timeoutMs : Option Nat) (reachable : Bool) (now recvNs : Nat) :
    Except BusError (Except BusError Unit × System) := do
  let me := sess.instanceId
  let no e := refuse me "call" topic e
  let key ← require (splitTopic topic) (no (bad .badRequest "a call goes to svc.<name>/<source_id>"))
  let size := env.bodySize body
  ensure (size ≤ MAX_BODY) (no (bad .tooLarge s!"body of {size} bytes exceeds {MAX_BODY}"))
  let timeout := callTimeout timeoutMs
  let spec ← s.core.specOf sess "call"
  let _ ← inputFor (sess.declared.elim spec.inputs (·.2)) key.1 schema no
  let server ← require (s.svc.server key) (no (bad .unavailable s!"nothing serves {topic}"))
  ensure (server.schema = schema) (no (bad .schemaMismatch s!"{topic} carries {server.schema}"))
  let req : BusRequest := ⟨.call, me, spec.cogId, sess.projectId, topic, schema, none⟩
  let topicProject ← callProject policy req server sess.projectId key.2 topic no
  policy.gate { req with topicProject := topicProject }
  ensure (s.svc.pendingOn key < MAX_PENDING_PER_SERVICE && s.svc.pendingFrom me < MAX_PENDING_PER_CALLER)
    (no (bad .busy "too many calls pending"))
  let call := s.svc.next + 1
  if reachable then
    return (.ok (), s.accept ⟨call, topic, schema, me, env.nodeId, recvNs, timeout, body⟩
      ⟨key, me, conn, reqId, server.conn, now + timeout⟩)
  else
    -- the number is used up
    return (.error (no (bad .unavailable s!"nothing serves {topic}")), { s with svc := { s.svc with next := call } })

def System.replyCall (s : System) (conn : Nat) (sess : Session) (call : Nat) (result : Except String Value) :
    Except BusError (Unit × System) := do
  let p ← require ((s.svc.calls.lookup call).filter (·.serverConn = conn)) (refuse sess.instanceId "reply" "-"
    (bad .badRequest s!"no call {call} is waiting on this connection (answered, expired or not yours)"))
  return ((), { s with
    svc := { s.svc with calls := Table.remove s.svc.calls call }
    replying := s.replying ++ [⟨(call, p), sess.instanceId, result⟩] })

/-- The rest of a reply: the caller's answer, and what the provider is told. -/
def Replying.finish (env : Env) (r : Replying) : Answer × Except BusError Unit :=
  match r.result with
  | .ok body =>
    if MAX_BODY < env.bodySize body then
      (failCall .tooLarge "the reply is over the body limit" r.entry,
        .error (refuse r.provider "reply" "-"
          (bad .tooLarge s!"reply of {env.bodySize body} bytes exceeds {MAX_BODY}")))
    else (⟨r.entry, .ok r.entry.2.callerId (.obj [("body", body)])⟩, .ok ())
  | .error message => (failCall .serviceError message r.entry, .ok ())

def System.send (env : Env) (s : System) (call : Nat) : System :=
  { s with
    replying := s.replying.filter (·.entry.1 ≠ call)
    answers := s.answers ++ (s.replying.filter (·.entry.1 = call)).map fun r => (r.finish env).1 }

def System.expireCalls (s : System) (now : Nat) : System := s.fail (·.deadline ≤ now) .timeout "the call timed out"

inductive Act where
  | bus (act : Broker.Act)
  | serve (conn : Nat) (policy : BusPolicy) (key : Key) (schema : String)
  | call (conn : Nat) (policy : BusPolicy) (reqId : Nat) (topic schema : String) (body : Value) (timeoutMs : Option Nat)
    (reachable : Bool) (now recvNs : Nat)
  | reply (conn call : Nat) (result : Except String Value)
  | send (call : Nat)
  | expire (now : Nat)

/-- What a call of the broker does to the services, in the same lock region. -/
def System.after (s : System) : Broker.Act → System
  | .revoke id => if (s.core.instances id).isSome then s.dropInstance id else s
  | .close conn => if (s.core.sessions conn).isSome then s.dropConn conn else s
  | _ => s

def System.attempt {α : Type} (s : System) (result : Except BusError (α × System)) : System :=
  match result with
  | .ok (_, next) => next
  | .error _ => s

def System.withSession (s : System) (conn : Nat) (call : Session → System) : System :=
  (s.core.sessions conn).elim s call

def step (env : Env) (s : System) : Act → System
  | .bus act => { s.after act with core := Broker.step env s.core act }
  | .serve conn policy key schema => s.withSession conn fun sess => s.attempt (s.serveTopic policy conn sess key schema)
  | .call conn policy reqId topic schema body timeoutMs reachable now recvNs =>
    s.withSession conn fun sess =>
      s.attempt (s.callService env policy conn sess reqId topic schema body timeoutMs reachable now recvNs)
  | .reply conn call result => s.withSession conn fun sess => s.attempt (s.replyCall conn sess call result)
  | .send call => s.send env call
  | .expire now => s.expireCalls now

end Weftos.Bus.Services
