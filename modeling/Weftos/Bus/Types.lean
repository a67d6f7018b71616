import Weftos.Lib.Json
import Weftos.Lib.Text

/-! What the bus speaks about (`weftos-cogbus/src/types.rs`, `proto.rs`, `policy.rs`,
`clawft-types/src/cog_topics/mod.rs`): topic names, declarations, registrations, refusals
and the governance questions behind them. -/

namespace Weftos.Bus.Types
open Lib.Bytes Lib.Json

/-! ### Topic names -/

def SCHEMA_IDS : List String :=
  ["senml.v1", "spatial.evidence.v1", "pcm.s16le.v1", "video.frame-ref.v1", "detections.v1", "can.frame.v1",
    "iq.cs16.v1", "spectrum.psd.v1", "transcript.v1", "telemetry.v1", "store.vector.v1", "infer.v1", "sdr.v1",
    "mcu.call.v1", "blob.v1", "event.v1"]

def isRegistered (id : String) : Bool := SCHEMA_IDS.contains id

def MAX_TOPIC_LEN : Nat := 64

def MAX_BODY : Nat := 64 * 1024

def isAsciiLowercase (c : Char) : Bool := 'a' ≤ c && c ≤ 'z'

def isAsciiDigit (c : Char) : Bool := '0' ≤ c && c ≤ '9'

/-- `[a-z][a-z0-9-]*(\.[a-z0-9-]+)*`, at most 64 bytes. -/
def validTopicKind (s : String) : Bool :=
  let segOk (seg : List Char) := seg ≠ [] && seg.all fun c => isAsciiLowercase c || isAsciiDigit c || c = '-'
  let segs := s.toList.splitOn '.'
  s ≠ "" && (utf8 s).length ≤ MAX_TOPIC_LEN && (segs.head?.bind (·.head?)).any isAsciiLowercase && segs.all segOk

/-- `[a-z0-9][a-z0-9._-]*`, at most 64 bytes. -/
def validSourceId (s : String) : Bool :=
  s ≠ "" && (utf8 s).length ≤ 64 && s.toList.head?.any (fun c => isAsciiLowercase c || isAsciiDigit c) &&
    s.toList.all fun c => isAsciiLowercase c || isAsciiDigit c || ['.', '_', '-'].contains c

abbrev Key := String × String

def Key.topic (key : Key) : String := s!"{key.1}/{key.2}"

def splitOnce (s : String) : Option (String × String) :=
  match s.toList.splitOn '/' with
  | first :: second :: rest =>
    some (String.ofList first, String.ofList (['/'].intercalate (second :: rest)))
  | _ => none

inductive TopicClass where
  | reading
  | stream
  | blob
  deriving DecidableEq

def TopicClass.parse : String → Option TopicClass
  | "reading" => some .reading
  | "stream" => some .stream
  | "blob" => some .blob
  | _ => none

def TopicClass.debug : TopicClass → String
  | .reading => "Reading"
  | .stream => "Stream"
  | .blob => "Blob"

inductive InputPolicy where
  | dropOldest
  | block
  | sample
  deriving DecidableEq

def InputPolicy.parse : String → Option InputPolicy
  | "drop-oldest" => some .dropOldest
  | "block" => some .block
  | "sample" => some .sample
  | _ => none

/-- A raw topic: a stream or blob class, or a raw media schema. -/
def isRaw (cls : TopicClass) (schema : String) : Bool :=
  cls = .stream || cls = .blob || ["iq.cs16.v1", "pcm.s16le.v1", "video.frame-ref.v1"].contains schema

/-! ### Registrations -/

structure OutputSpec where
  topic : String
  schema : String
  cls : TopicClass
  deriving DecidableEq

structure InputSpec where
  topic : String
  schema : String
  policy : InputPolicy
  deriving DecidableEq

structure InstanceSpec where
  instanceId : String
  cogId : String
  projectId : Option String
  uid : Option UInt32
  outputs : List OutputSpec
  inputs : List InputSpec

structure Grant where
  project : String
  source : Option String

def Grant.covers (g : Grant) (project : Option String) (source : String) : Bool :=
  project = some g.project && g.source.all (· = source)

def granted (also : List Grant) (project : Option String) (source : String) : Bool :=
  also.any (·.covers project source)

structure Delivery where
  sub : Nat
  topic : String
  schema : String
  sourceId : String
  nodeId : String
  tNs : Nat
  seq : Nat
  recvNs : Nat
  body : Value

/-! ### Blob handles -/

def CHUNK : Nat := 32 * 1024

def MAX_MEDIA_TYPE : Nat := 127

structure BlobHandle where
  hash : String
  size : Nat
  mediaType : String
  expiresMs : Nat
  deriving DecidableEq

/-- `type/subtype`, both `[a-z0-9][a-z0-9.+-]*`. -/
def validMediaType (s : String) : Bool :=
  let alphanumeric (c : Char) := isAsciiLowercase c || isAsciiDigit c
  let part (p : String) :=
    p.toList.head?.any alphanumeric && p.toList.all fun c => alphanumeric c || ['.', '+', '-'].contains c
  (utf8 s).length ≤ MAX_MEDIA_TYPE && (splitOnce s).any fun halves => part halves.1 && part halves.2

/-! ### Refusals -/

inductive ErrorCode where
  | badRequest
  | unauthorized
  | uidMismatch
  | undeclared
  | schemaMismatch
  | unsupported
  | crossProject
  | writerConflict
  | tooLarge
  | unknownSubscription
  | revoked
  | denied
  | unavailable
  | timeout
  | busy
  | serviceError
  | rateLimited
  | notFound
  | quotaExceeded
  | rawNotExposed

def ErrorCode.name : ErrorCode → String
  | .badRequest => "bad_request"
  | .unauthorized => "unauthorized"
  | .uidMismatch => "uid_mismatch"
  | .undeclared => "undeclared"
  | .schemaMismatch => "schema_mismatch"
  | .unsupported => "unsupported"
  | .crossProject => "cross_project"
  | .writerConflict => "writer_conflict"
  | .tooLarge => "too_large"
  | .unknownSubscription => "unknown_subscription"
  | .revoked => "revoked"
  | .denied => "denied"
  | .unavailable => "unavailable"
  | .timeout => "timeout"
  | .busy => "busy"
  | .serviceError => "service_error"
  | .rateLimited => "rate_limited"
  | .notFound => "not_found"
  | .quotaExceeded => "quota_exceeded"
  | .rawNotExposed => "raw_not_exposed"

structure RefusalCtx where
  instance_ : String
  action : String
  topic : String

structure BusError where
  code : ErrorCode
  message : String
  ctx : Option RefusalCtx

def bad (code : ErrorCode) (message : String) : BusError := ⟨code, message, none⟩

def refuse (instance_ action topic : String) (e : BusError) : BusError :=
  { e with ctx := some ⟨instance_, action, topic⟩ }

/-! ### Governance -/

inductive BusAction where
  | declare
  | publish
  | subscribe
  | serve
  | call
  | meshSubscribe
  | meshFetch
  | blobGet

def BusAction.short : BusAction → String
  | .declare => "declare"
  | .publish => "publish"
  | .subscribe => "subscribe"
  | .serve => "serve"
  | .call => "call"
  | .meshSubscribe => "mesh.subscribe"
  | .meshFetch => "mesh.fetch"
  | .blobGet => "blob.get"

structure BusRequest where
  action : BusAction
  instanceId : String
  cogId : String
  projectId : Option String
  topic : String
  schema : String
  topicProject : Option String

/-- What the daemon plugs in, as it answers at one moment: a reason to refuse, and the
foreign topics a subscribe may read. -/
structure BusPolicy where
  decide : BusRequest → Option String
  grants : BusRequest → List Grant

def AllowAll : BusPolicy := ⟨fun _ => none, fun _ => []⟩

def BusPolicy.gate (policy : BusPolicy) (req : BusRequest) : Except BusError Unit :=
  match policy.decide req with
  | none => .ok ()
  | some reason =>
    let short := req.action.short
    .error (refuse req.instanceId short req.topic (bad .denied s!"cogbus.{short} denied by governance: {reason}"))

/-- The policy's grants for a subscribe, narrowed to its source. -/
def BusPolicy.grantsFor (policy : BusPolicy) (req : BusRequest) (source : Option String) : List Grant :=
  (policy.grants req).filter fun g => source.isNone || g.source.isNone || g.source = source

end Weftos.Bus.Types
