import Weftos.Bus.Types
import Weftos.Lib.Outcome
import Weftos.Lib.Run
import Weftos.Lib.Table

/-! The node's content store (`weftos-cogbus/src/blob.rs`). The disk does what it is told. Each operation
holds the store's lock throughout, `get` only until it has decided. -/

namespace Weftos.Blob.Content
open Lib Lib.Bytes Lib.Outcome Bus.Types Table

structure BlobConfig where
  quotaBytes : Nat
  perInstanceBytes : Nat
  perProjectBytes : Nat
  defaultTtlMs : Nat
  maxTtlMs : Nat
  maxBlobBytes : Nat
  uploadIdleMs : Nat
  maxUploadsPerInstance : Nat

def BlobConfig.default : BlobConfig where
  quotaBytes := 2 <<< 30
  perInstanceBytes := 512 <<< 20
  perProjectBytes := 1 <<< 30
  defaultTtlMs := 10 * 60000
  maxTtlMs := 24 * 3600000
  maxBlobBytes := 256 <<< 20
  uploadIdleMs := 60000
  maxUploadsPerInstance := 4

inductive BlobError where
  | badRequest (message : String)
  | quota (message : String)
  | tooLarge (message : String)
  | notFound (message : String)
  | denied (message : String)
  | io (message : String)
  deriving DecidableEq

/-- What the store takes from its libraries: BLAKE3 in lower-case hex, and `{:?}` of a text. -/
structure Env where
  hash : Octets → String
  debug : String → String

def Env.written : Env := ⟨hexEncode, id⟩

abbrev Principal := Option String × String

structure Meta where
  size : Nat
  mediaType : String
  expiresMs : Nat
  owner : String
  projectId : Option String
  readers : List Principal
  deriving DecidableEq

/-- The file and the hasher of an upload have both seen `received`. -/
structure Upload where
  owner : String
  projectId : Option String
  mediaType : String
  size : Nat
  ttlMs : Nat
  received : Octets
  lastMs : Nat
  deriving DecidableEq

structure Store where
  blobs : List (String × Meta)
  /-- `<hash>.blob`. -/
  files : List (String × Octets)
  uploads : List (Nat × Upload)
  next : Nat

def Store.empty : Store := ⟨[], [], [], 0⟩

/-! ### Expiry -/

def dropBlob (s : Store) (hash : String) : Store :=
  if (s.blobs.lookup hash).isSome then
    { s with blobs := remove s.blobs hash, files := remove s.files hash }
  else s

def dead (s : Store) (now : Nat) : List String := (s.blobs.filter fun e => e.2.expiresMs ≤ now).map (·.1)

def dropExpired (cfg : BlobConfig) (now : Nat) (s : Store) : Store :=
  let s := (dead s now).foldl dropBlob s
  { s with uploads := s.uploads.filter fun e => !(now - e.2.lastMs > cfg.uploadIdleMs) }

def sweep (cfg : BlobConfig) (now : Nat) (s : Store) : Nat × Store := ((dead s now).length, dropExpired cfg now s)

/-! ### Uploads -/

section
variable (counts : String → Option String → Bool)

def stored (s : Store) : Nat := tally (fun m => counts m.owner m.projectId) (·.size) s.blobs

def reserved (s : Store) : Nat := tally (fun u => counts u.owner u.projectId) (·.size) s.uploads

def held (s : Store) : Nat := stored counts s + reserved counts s

end

def node : String → Option String → Bool := fun _ _ => true

def ofInstance (owner : String) : String → Option String → Bool := fun o _ => o == owner

def ofProject (project : Option String) : String → Option String → Bool := fun _ p => p == project

def openUploads (owner : String) (s : Store) : Nat := (s.uploads.filter fun e => e.2.owner == owner).length

/-- The checks of `begin` before it takes the lock; the TTL it will use. -/
def admissible (env : Env) (cfg : BlobConfig) (mediaType : String) (size : Nat) (ttlMs : Option Nat) :
    Except BlobError Nat := do
  ensure (validMediaType mediaType) (.badRequest s!"bad media type {env.debug mediaType}")
  ensure (size ≠ 0) (.badRequest "a blob has at least 1 byte")
  ensure (size ≤ cfg.maxBlobBytes)
    (.tooLarge s!"{size} bytes exceeds the {cfg.maxBlobBytes} byte blob limit")
  let ttl := ttlMs.getD cfg.defaultTtlMs
  ensure (ttl ≠ 0 ∧ ttl ≤ cfg.maxTtlMs) (.badRequest s!"ttl_ms must be 1..={cfg.maxTtlMs}")
  return ttl

/-- The checks of `begin` against what the store holds. -/
def fits (cfg : BlobConfig) (owner : String) (project : Option String) (size : Nat) (s : Store) :
    Except BlobError Unit := do
  ensure (openUploads owner s < cfg.maxUploadsPerInstance) (.quota "too many uploads open")
  let used := held node s
  ensure (used + size ≤ cfg.quotaBytes)
    (.quota s!"the store holds {used} of {cfg.quotaBytes} bytes; {size} more does not fit until blobs expire")
  let mine := held (ofInstance owner) s
  ensure (mine + size ≤ cfg.perInstanceBytes)
    (.quota s!"this instance holds {mine} of its {cfg.perInstanceBytes} bytes")
  let theirs := held (ofProject project) s
  ensure (theirs + size ≤ cfg.perProjectBytes)
    (.quota s!"this project holds {theirs} of its {cfg.perProjectBytes} bytes")

def begin (env : Env) (cfg : BlobConfig) (now : Nat) (owner : String) (project : Option String) (mediaType : String)
    (size : Nat) (ttlMs : Option Nat) (s : Store) : Except BlobError Nat × Store :=
  match admissible env cfg mediaType size ttlMs with
  | .error refusal => (.error refusal, s)
  | .ok ttl =>
    let s := dropExpired cfg now s
    match fits cfg owner project size s with
    | .error refusal => (.error refusal, s)
    | .ok () =>
      let id := s.next + 1
      (.ok id, { s with
        next := id
        uploads := insert s.uploads id ⟨owner, project, mediaType, size, ttl, [], now⟩ })

def Meta.principal (m : Meta) : Principal := (m.projectId, m.owner)

def Meta.ownedBy (m : Meta) (p : Principal) : Bool := m.owner == p.2 && m.projectId == p.1

def Meta.handle (m : Meta) (hash : String) : BlobHandle := ⟨hash, m.size, m.mediaType, m.expiresMs⟩

/-- The blob is put again by `me`: it may read it, and moves the expiry out if it is the
owner or could read it already. -/
def Meta.putAgain (m : Meta) (me : Principal) (expires : Nat) : Meta :=
  { m with
    expiresMs := if m.ownedBy me || m.readers.contains me then max m.expiresMs expires else m.expiresMs
    readers := m.readers.insert me }

def Upload.principal (u : Upload) : Principal := (u.projectId, u.owner)

def Upload.expires (u : Upload) (now : Nat) : Nat := (now + u.ttlMs) % 2 ^ 64

def Upload.stored (u : Upload) (now : Nat) : Meta := ⟨u.size, u.mediaType, u.expires now, u.owner, u.projectId, []⟩

def dropIfExpired (now : Nat) (hash : String) (s : Store) : Store :=
  if (s.blobs.lookup hash).any (·.expiresMs ≤ now) then dropBlob s hash else s

/-- The bytes are merged into the blob that holds them, or become a blob. -/
def deposit (now : Nat) (hash : String) (u : Upload) (s : Store) : BlobHandle × Store :=
  match s.blobs.lookup hash with
  | some m =>
    let m := m.putAgain u.principal (u.expires now)
    (m.handle hash, { s with blobs := insert s.blobs hash m })
  | none =>
    let m := u.stored now
    (m.handle hash, { s with
      blobs := insert s.blobs hash m
      files := insert s.files hash u.received })

/-- The end of `chunk`: the upload is complete. -/
def commit (env : Env) (now upload : Nat) (u : Upload) (s : Store) : BlobHandle × Store :=
  let hash := env.hash u.received
  deposit now hash u (dropIfExpired now hash { s with uploads := remove s.uploads upload })

/-- The checks of `chunk`; the upload it continues. -/
def continues (owner : String) (upload offset : Nat) (data : Octets) (last : Bool) (s : Store) :
    Except BlobError Upload := do
  ensure (data.length ≤ CHUNK) (.badRequest s!"a chunk is at most {CHUNK} bytes")
  -- an empty slice only completes an upload
  ensure (data ≠ [] ∨ last = true) (.badRequest "an empty chunk")
  let u ← require ((s.uploads.lookup upload).filter (·.owner == owner))
    (.notFound s!"no upload {upload} (finished, idle too long or not yours)")
  ensure (offset = u.received.length) (.badRequest s!"expected offset {u.received.length}, got {offset}")
  ensure (u.received.length + data.length ≤ u.size) (.badRequest "more bytes than declared")
  return u

def Upload.append (u : Upload) (now : Nat) (data : Octets) : Upload :=
  { u with received := u.received ++ data, lastMs := now }

def chunk (env : Env) (now : Nat) (owner : String) (upload offset : Nat) (data : Octets) (last : Bool) (s : Store) :
    Except BlobError (Option BlobHandle) × Store :=
  match continues owner upload offset data last s with
  | .error refusal => (.error refusal, s)
  | .ok u =>
    let u := u.append now data
    let s := { s with uploads := insert s.uploads upload u }
    if last = false then (.ok none, s)
    else if u.received.length ≠ u.size then
      (.error (.badRequest s!"last chunk at {u.received.length} of {u.size} bytes"), s)
    else
      let (handle, s) := commit env now upload u s
      (.ok (some handle), s)

/-! ### Reading and passing on -/

def Meta.mayRead (m : Meta) (p : Principal) : Bool := m.ownedBy p || m.readers.contains p || m.projectId == p.1

/-- The part of `get` under the lock. -/
def find (now : Nat) (reader : Principal) (hash : String) (s : Store) : Except BlobError Meta × Store :=
  match s.blobs.lookup hash with
  | none => (.error (.notFound s!"no blob {hash}"), s)
  | some m =>
    if m.expiresMs ≤ now then (.error (.notFound s!"blob {hash} expired"), dropBlob s hash)
    else if m.mayRead reader = false then (.error (.denied s!"blob {hash} belongs to another project"), s)
    else (.ok m, s)

/-- The rest of `get`: the slice of the file as it is then. -/
def readSlice (m : Meta) (hash : String) (offset len : Nat) (files : List (String × Octets)) :
    Except BlobError (BlobHandle × Octets × Bool) := do
  let want := min len CHUNK
  let take := min want (m.size - offset)
  let bytes ←
    if take = 0 then pure []
    else do
      let file ← require (files.lookup hash) (.io "No such file or directory (os error 2)")
      ensure (offset + take ≤ file.length) (.io "failed to fill whole buffer")
      pure (slice file offset (offset + take))
  return (m.handle hash, bytes, offset + take ≥ m.size)

def get (now : Nat) (reader : Principal) (hash : String) (offset len : Nat) (s : Store) :
    Except BlobError (BlobHandle × Octets × Bool) × Store :=
  match find now reader hash s with
  | (.error refusal, s) => (.error refusal, s)
  | (.ok m, s) => (readSlice m hash offset len s.files, s)

def passOn (giver receiver : Principal) (s : Store) (hash : String) : Store :=
  match s.blobs.lookup hash with
  | none => s
  | some m =>
    if m.ownedBy giver || m.readers.contains giver then
      { s with blobs := insert s.blobs hash { m with readers := m.readers.insert receiver } }
    else s

def grant (hashes : List String) (giver receiver : Principal) (s : Store) : Store :=
  hashes.foldl (passOn giver receiver) s

def dropUploads (owner : String) (s : Store) : Store :=
  { s with uploads := s.uploads.filter fun e => !(e.2.owner == owner) }

/-! ### The store as a system -/

inductive Act where
  | begin (now : Nat) (owner : String) (project : Option String) (mediaType : String) (size : Nat) (ttlMs : Option Nat)
  | chunk (now : Nat) (owner : String) (upload offset : Nat) (data : Octets) (last : Bool)
  | get (now : Nat) (reader : Principal) (hash : String) (offset len : Nat)
  | grant (hashes : List String) (giver receiver : Principal)
  | sweep (now : Nat)
  | dropUploads (owner : String)

def Act.now : Act → Option Nat
  | .begin now _ _ _ _ _ | .chunk now _ _ _ _ _ | .get now _ _ _ _ | .sweep now => some now
  | .grant _ _ _ | .dropUploads _ => none

/-- The operation is called before `time`, or is one that asks no clock. -/
def Act.before (act : Act) (time : Nat) : Bool := act.now.all (· < time)

def step (env : Env) (cfg : BlobConfig) (s : Store) : Act → Store
  | .begin now owner project mediaType size ttlMs => (begin env cfg now owner project mediaType size ttlMs s).2
  | .chunk now owner upload offset data last => (chunk env now owner upload offset data last s).2
  | .get now reader hash offset len => (get now reader hash offset len s).2
  | .grant hashes giver receiver => grant hashes giver receiver s
  | .sweep now => (sweep cfg now s).2
  | .dropUploads owner => dropUploads owner s

def after (env : Env) (cfg : BlobConfig) (acts : List Act) : Store := Run.run (step env cfg) Store.empty acts

/-! ### Operations that only give up -/

/-- Uploads and blobs go, and what a blob is counted by stays. -/
inductive Trims (s : Store) : Store → Prop
  | refl : Trims s s
  | uploads {t : Store} (keep : Nat × Upload → Bool) (trims : Trims s t) :
      Trims s { t with uploads := t.uploads.filter keep }
  | drop (hash : String) (trims : Trims s t) : Trims s (dropBlob t hash)
  | alter {t : Store} {hash : String} {m m' : Meta} (found : t.blobs.lookup hash = some m) (size : m'.size = m.size)
      (owner : m'.owner = m.owner) (project : m'.projectId = m.projectId) (trims : Trims s t) :
    Trims s { t with blobs := insert t.blobs hash m' }

theorem Trims.foldl {α : Type} {f : Store → α → Store} (each : ∀ t a, Trims s t → Trims s (f t a)) (items : List α)
    (trims : Trims s t) : Trims s (items.foldl f t) := by
  induction items generalizing t with
  | nil => exact trims
  | cons item items ih => exact ih (each t item trims)

theorem dropExpired_trims (cfg : BlobConfig) (now : Nat) (s : Store) : Trims s (dropExpired cfg now s) :=
  .uploads _ (.foldl (fun _ hash => .drop hash) (dead s now) .refl)

theorem dropIfExpired_trims (now : Nat) (hash : String) (trims : Trims s t) : Trims s (dropIfExpired now hash t) := by
  unfold dropIfExpired
  split
  · exact .drop hash trims
  · exact trims

theorem deposit_uploads (now : Nat) (hash : String) (u : Upload) (s : Store) :
    (deposit now hash u s).2.uploads = s.uploads := by
  unfold deposit
  split <;> rfl

theorem get_trims (now : Nat) (reader : Principal) (hash : String) (offset len : Nat) (s : Store) :
    Trims s (get now reader hash offset len s).2 := by
  have found : Trims s (find now reader hash s).2 := by
    unfold find
    split
    · exact .refl
    · split_ifs
      · exact .drop hash .refl
      · exact .refl
      · exact .refl
  unfold get
  split
  · next here => exact (congrArg Prod.snd here) ▸ found
  · next here => exact (congrArg Prod.snd here) ▸ found

theorem grant_trims (hashes : List String) (giver receiver : Principal) (s : Store) :
    Trims s (grant hashes giver receiver s) := by
  refine .foldl (fun t hash trims => ?_) hashes .refl
  unfold passOn
  split
  · exact trims
  · next m found =>
    split
    · exact .alter found rfl rfl rfl trims
    · exact trims

theorem dropBlob_uploads (s : Store) (hash : String) : (dropBlob s hash).uploads = s.uploads := by
  unfold dropBlob
  split <;> rfl

/-! ### Refused chunks -/

/-- What `chunk` goes by: an upload's owner, its declared size and the bytes it has. -/
def Upload.progress (u : Upload) : String × Nat × Octets := (u.owner, u.size, u.received)

section
variable {s : Store} {owner : String} {upload offset : Nat} {data : Octets} {last : Bool} {u : Upload}

theorem continues_ok_iff : continues owner upload offset data last s = .ok u ↔
    data.length ≤ CHUNK ∧ (data ≠ [] ∨ last = true) ∧ (s.uploads.lookup upload = some u ∧ u.owner = owner) ∧
      offset = u.received.length ∧ u.received.length + data.length ≤ u.size := by
  simp only [continues, bind_ok_iff, ensure_ok_iff, require_ok_iff, pure_ok_iff, Option.filter_eq_some_iff, beq_iff_eq]
  constructor
  · rintro ⟨_, short, _, some_, _, found, _, next, _, room, rfl⟩
    exact ⟨short, some_, found, next, room⟩
  · rintro ⟨short, some_, found, next, room⟩
    exact ⟨(), short, (), some_, u, found, (), next, (), room, rfl⟩

theorem continues_of_progress
    (same : (t.uploads.lookup upload).map Upload.progress = (s.uploads.lookup upload).map Upload.progress)
    (continued : continues owner upload offset data last s = .ok u) :
    ∃ v, continues owner upload offset data last t = .ok v ∧ v.progress = u.progress := by
  obtain ⟨short, some_, ⟨found, own⟩, next, room⟩ := continues_ok_iff.mp continued
  rw [found, Option.map_some, Option.map_eq_some_iff] at same
  obtain ⟨v, there, equal⟩ := same
  obtain ⟨owner_, size, received⟩ : v.owner = u.owner ∧ v.size = u.size ∧ v.received = u.received := by
    simpa [Upload.progress] using equal
  refine ⟨v, continues_ok_iff.mpr ⟨short, some_, ⟨there, owner_.trans own⟩, ?_⟩, equal⟩
  rw [received, size]
  exact ⟨next, room⟩

end

/-- A last chunk that passes every check made before its bytes are written, has some and stops short of the declared
size. -/
def StopsShort (owner : String) (upload offset : Nat) (data : Octets) (last : Bool) (s : Store) : Prop :=
  last = true ∧ data ≠ [] ∧ data.length ≤ CHUNK ∧ ∃ u, (s.uploads.lookup upload = some u ∧ u.owner = owner) ∧
    offset = u.received.length ∧ u.received.length + data.length < u.size

def twoBytes : Store := after .written .default [.begin 0 "a" none "text/plain" 2 none]

end Weftos.Blob.Content
