import Weftos.Lib.Run
import Weftos.Lib.Table
import Weftos.Licence.Wire

/-! The licence service of a Seed (`weft-licence`). A request is a few critical sections with the lock dropped
between them; what a section finds outside comes with the act. -/

namespace Weftos.Licence.Proxy
open Lib Lib.Bytes Lib.Outcome Lib.Text Wire

structure ApiError where
  status : Nat
  code : String
  detail : String

/-! ### Configuration -/

def CLOCK_FLOOR_SECS : Nat := 1780000000

def REQUEST_WINDOW_MS : Nat := 120000

structure Limits where
  inFlight : Nat := 1
  requestsPerMin : Nat := 10
  unsignedPerMin : Nat := 30
  maxArtifactBytes : Nat := 64 * 1024 * 1024
  renewBatch : Nat := 256

structure Config where
  deviceId : String
  grantTtlSecs : Nat := 72 * 3600
  clockFloor : Nat := CLOCK_FLOOR_SECS
  requestWindowSecs : Nat := REQUEST_WINDOW_MS / 1000
  limits : Limits := {}

/-! ### What is kept -/

inductive SlotStatus where
  | active
  | released
  | lapsed
  deriving DecidableEq

structure Slot (P : Type) where
  meshId : String
  cogId : String
  version : String
  seq : Nat
  arches : List (String × GrantArtifact)
  manifestSha256 : String
  registry : String
  licence : LicenceRef
  status : SlotStatus
  issueCtr : Nat
  grant : Option (SignedEnvelope P)
  deriving DecidableEq

structure Slots (P : Type) where
  ctr : Nat := 0
  lastIssuedAt : Nat := 0
  slots : List (String × Slot P) := []

def slotKey (cog version : String) : String := cog ++ "@" ++ version

/-- How the write of a file ends. The rename can have happened where the call fails: the directory
is synced after it. -/
inductive WriteOutcome where
  | done
  | failed (why : String)
  | failedLate (why : String)

inductive KeyError where
  | missing
  | refused (why : String)

/-- `binding.json` with what identifies its version, and `grant.key`. The command line replaces
both while the service runs. -/
structure Files where
  stamp : Option Nat := none
  binding : Except Unit (Option BindingRecord) := .ok none
  key : Except KeyError Octets := .error .missing

structure Inner (P : Type) where
  slots : Slots P
  binding : Option BindingRecord
  key : Option Octets
  stamp : Option Nat

/-! ### Licences and the registry -/

structure Entitlement where
  refSha256 : String
  expires : Option Nat

inductive LicenceCheckError where
  | unlicensed
  | expired
  | unreadable (why : String)

structure EntryArtifact where
  arch : String
  size : Nat
  sha256 : String

structure CogEntry where
  cogId : String
  version : String
  registry : String
  manifestSha256 : String
  artifacts : List EntryArtifact

inductive FetchError where
  | notFound
  | versionUnavailable (listed : String)
  | archUnavailable (arch : String)
  | sizeUnknown
  | failed (why : String)
  | verify (why : String)

inductive CacheError where
  | tooLarge
  | full
  | io (why : String)

def licenceError : LicenceCheckError → ApiError
  | .unlicensed => ⟨403, "cog_unlicensed", "no licence covers this cog"⟩
  | .expired => ⟨403, "licence_expired", "the covering licence has expired"⟩
  | .unreadable why => ⟨503, "licence_unreadable", why⟩

def fetchError : FetchError → ApiError
  | .notFound => ⟨404, "cog_not_found", "the registry does not list this cog"⟩
  | .versionUnavailable listed => ⟨404, "version_unavailable", s!"registry lists {listed}"⟩
  | .archUnavailable arch => ⟨404, "arch_unavailable", s!"no {arch} binary in the registry"⟩
  | .sizeUnknown => ⟨422, "size_unknown", "the registry gives no size"⟩
  | .failed why => ⟨502, "fetch_failed", why⟩
  | .verify why => ⟨502, "verify_failed", why⟩

def cacheError : CacheError → ApiError
  | .tooLarge => ⟨413, "artifact_too_large", "larger than the cache"⟩
  | .full => ⟨507, "cache_full", "the cache holds only active checkouts"⟩
  | .io why => ⟨503, "cache_io", why⟩

def persistFailed (why : String) : ApiError := ⟨503, "persist_failed", s!"persist failed: {why}"⟩

/-- A licence with no declared end, or one past the year 2100, reads as one of seven days. -/
def licenceRef (ent : Entitlement) (now : Nat) : LicenceRef where
  refSha256 := ent.refSha256
  expires := (ent.expires.filter (· ≤ MAX_UNIX_TIME)).getD (saturatingAdd now MAX_GRANT_TTL_SECS)

def tokenOk (s : String) : Bool :=
  s ≠ "" && (utf8 s).length ≤ 64 && s.toList.all fun c => isAsciiAlphanumeric c || ['.', '_', '-'].contains c

section
variable {P : Type}

def persist (write : WriteOutcome) (slots disk : Slots P) : Except ApiError Unit × Slots P :=
  match write with
  | .done => (.ok (), slots)
  | .failed why => (.error (persistFailed why), disk)
  | .failedLate why => (.error (persistFailed why), slots)

abbrev Attempt (P : Type) := Except ApiError (List (SignedEnvelope P) × Slots P) × Inner P × Slots P

/-- Memory takes the new table, and the grants are released, only once the table is on disk. -/
def settle (write : WriteOutcome) (attempt : Attempt P) :
    Except ApiError (List (SignedEnvelope P)) × Inner P × Slots P :=
  match attempt with
  | (.error e, next) => (.error e, next)
  | (.ok (out, work), inner, disk) =>
    match persist write work disk with
    | (.ok (), disk) => (.ok out, { inner with slots := work }, disk)
    | (.error e, disk) => (.error e, inner, disk)

/-! ### The binding -/

def Inner.bound (inner : Inner P) : Option BindingRecord := inner.binding.filter (·.state = .bound)

def meshOf (inner : Inner P) : Option String :=
  inner.bound.bind fun b => (hexDecodeExact 32 b.meshId).map hexEncode

def Slot.release (slot : Slot P) : Slot P :=
  if slot.status = .active then { slot with status := .released } else slot

def Slots.releaseAll (table : Slots P) : Slots P :=
  { table with slots := table.slots.map fun entry => (entry.1, entry.2.release) }

/-- Marks every checkout released. Memory keeps the mark where the write fails. -/
def releaseAll (write : WriteOutcome) (inner : Inner P) (disk : Slots P) : Inner P × Slots P :=
  if inner.slots.slots.any (·.2.status = .active) then
    ({ inner with slots := inner.slots.releaseAll }, (persist write inner.slots.releaseAll disk).2)
  else (inner, disk)

/-- Reads the binding again where its file changed. Anything but a bound record drops the key and
releases every checkout. -/
def refreshBinding (files : Files) (write : WriteOutcome) (inner : Inner P) (disk : Slots P) : Inner P × Slots P :=
  if files.stamp = inner.stamp then (inner, disk)
  else
    let next := { inner with stamp := files.stamp, binding := files.binding.toOption.join }
    match next.bound with
    | some _ => ({ next with key := files.key.toOption }, disk)
    | none => releaseAll write { next with key := none } disk

/-- `Service::open` over the state directory; `none` where it refuses to start. -/
def openService (files : Files) (write : WriteOutcome) (disk : Slots P) : Option (Inner P × Slots P) :=
  match files.binding with
  | .error _ => none
  | .ok binding =>
    match binding.filter (·.state = .bound), files.key with
    | some _, .ok key => some (⟨disk, binding, some key, files.stamp⟩, disk)
    | some _, .error _ => none
    | none, .ok _ => some (releaseAll write ⟨disk, binding, none, files.stamp⟩ disk)
    | none, .error .missing =>
      if binding.isSome then some (releaseAll write ⟨disk, binding, none, files.stamp⟩ disk) else none
    | none, .error (.refused _) => none

/-- The tables in memory and on disk after the binding was read: as they were, or with every checkout
released in memory and perhaps on disk. -/
def Reread (table disk table' disk' : Slots P) : Prop :=
  table' = table ∧ disk' = disk ∨ table' = table.releaseAll ∧ (disk' = disk ∨ disk' = table.releaseAll)

theorem releaseAll_reread (write : WriteOutcome) (inner : Inner P) (disk : Slots P) :
    Reread inner.slots disk (releaseAll write inner disk).1.slots (releaseAll write inner disk).2 := by
  unfold releaseAll
  split
  · cases write with
    | done | failedLate => exact .inr ⟨rfl, .inr rfl⟩
    | failed => exact .inr ⟨rfl, .inl rfl⟩
  · exact .inl ⟨rfl, rfl⟩

theorem refreshBinding_reread (files : Files) (write : WriteOutcome) (inner : Inner P) (disk : Slots P) :
    Reread inner.slots disk (refreshBinding files write inner disk).1.slots
      (refreshBinding files write inner disk).2 := by
  unfold refreshBinding
  dsimp only
  split
  · exact .inl ⟨rfl, rfl⟩
  split
  · exact .inl ⟨rfl, rfl⟩
  · exact releaseAll_reread write { inner with
      stamp := files.stamp, binding := files.binding.toOption.join, key := none } disk

theorem openService_reread
    (started : openService files write disk = some next) : Reread disk disk next.1.slots next.2 := by
  unfold openService at started
  split at started
  · cases started
  next binding _ =>
    have unbound : some (releaseAll write ⟨disk, binding, none, files.stamp⟩ disk) = some next →
        Reread disk disk next.1.slots next.2 := by
      intro started
      cases started
      exact releaseAll_reread write ⟨disk, binding, none, files.stamp⟩ disk
    split at started
    · cases started
      exact .inl ⟨rfl, rfl⟩
    · cases started
    · exact unbound started
    · split at started
      · exact unbound started
      · cases started
    · cases started

/-! ### Signing -/

variable [DecidableEq P] (o : Outside P) (cfg : Config)

def slotGrant (slot : Slot P) (mesh : String) (now expiresAt : Nat) : CheckoutGrant where
  v := 1
  grantId := ""
  meshId := mesh
  seedDeviceId := cfg.deviceId
  grantKeyId := ""
  source := "cognitum"
  registry := slot.registry
  cogId := slot.cogId
  version := slot.version
  artifacts := slot.arches.map (·.2)
  manifestSha256 := slot.manifestSha256
  licence := slot.licence
  seq := slot.seq
  issuedAt := now
  expiresAt := expiresAt

/-- Signs the next grant of a slot that has its new number already, and files both. -/
def signSlot (secret : Octets) (slots : Slots P) (key : String) (slot : Slot P) (mesh : String) (now expiresAt : Nat) :
    Except ApiError (SignedEnvelope P × Slots P) := do
  ensure (cfg.clockFloor ≤ now ∧ slots.lastIssuedAt ≤ now)
    ⟨503, "clock_not_set", "refusing to sign before the clock floor"⟩
  let ctr := saturatingAdd slots.ctr 1
  let signed := signGrant o (slotGrant cfg slot mesh now expiresAt) secret
  -- what the verifier would refuse is not issued
  let _ ← (verifyGrantSignature o signed (o.publicKey secret)).mapError fun e => ⟨500, "grant_invalid", e.message⟩
  pure (signed, {
    ctr := ctr
    lastIssuedAt := max slots.lastIssuedAt now
    slots := Table.insert slots.slots key { slot with issueCtr := ctr, grant := some signed } })

def signedGrant (secret : Octets) (slot : Slot P) (mesh : String) (now expiresAt : Nat) : CheckoutGrant :=
  canonicalGrant o (slotGrant cfg slot mesh now expiresAt) secret

theorem signSlot_ok (issued : signSlot o cfg secret slots key slot mesh now expiresAt = .ok (signed, work)) :
    (cfg.clockFloor ≤ now ∧ slots.lastIssuedAt ≤ now) ∧
      signed.payload = o.grantText (signedGrant o cfg secret slot mesh now expiresAt) ∧
      verifyGrantSignature o signed (o.publicKey secret) = .ok (signedGrant o cfg secret slot mesh now expiresAt) ∧
      work = {
        ctr := saturatingAdd slots.ctr 1
        lastIssuedAt := max slots.lastIssuedAt now
        slots := Table.insert slots.slots key
          { slot with issueCtr := saturatingAdd slots.ctr 1, grant := some signed } } := by
  simp only [signSlot, bind_ok_iff, ensure_ok_iff, mapError_ok_iff, pure_ok_iff] at issued
  obtain ⟨_, clock, g, verified, same⟩ := issued
  cases same
  -- the text is that of the signed grant, and it is the text of one grant only
  have grant : g = signedGrant o cfg secret slot mesh now expiresAt :=
    Outside.grantText_inj (verifyGrantSignature_ok o verified).1
  exact ⟨clock, rfl, grant ▸ verified, rfl⟩

def validGrant (slot : Slot P) (now : Nat) (key : Octets) (mesh : String) : Option (SignedEnvelope P) :=
  if slot.meshId ≠ mesh then none
  else
    match slot.grant with
    | none => none
    | some signed =>
      match verifyGrantSignature o signed key with
      | .error _ => none
      | .ok g => if slot.status = .active ∧ g.isWithdrawal = false ∧ now < g.expiresAt then some signed else none

/-! ### Checkout -/

structure CheckoutReq where
  cogId : String
  version : String
  arch : String

structure Found where
  ent : Entitlement
  entry : CogEntry
  art : EntryArtifact

structure Flight where
  req : CheckoutReq
  now : Nat
  mesh : String
  secret : Octets
  found : Option Found

omit [DecidableEq P] in
/-- First section: a permit, the mesh and the key. `used` permits are held. -/
def beginCheckout (inner : Inner P) (used : Nat) (req : CheckoutReq) (now : Nat) : Except ApiError Flight := do
  ensure ((tokenOk req.cogId && tokenOk req.version && tokenOk req.arch) = true)
    ⟨400, "bad_request", "cog_id, version or arch is malformed"⟩
  ensure (used < cfg.limits.inFlight) ⟨429, "busy", "a checkout is already in flight"⟩
  let mesh ← require (meshOf inner) ⟨409, "seed_not_bound", "no mesh binding"⟩
  let secret ← require inner.key ⟨503, "no_key", "no grant key"⟩
  pure ⟨req, now, mesh, secret, none⟩

def heldArch (slots : Slots P) (key mesh arch : String) : Option (Slot P × GrantArtifact) :=
  ((slots.slots.lookup key).filter (·.meshId = mesh)).bind fun slot => (slot.arches.lookup arch).map fun art =>
    (slot, art)

inductive Looked (P : Type) where
  | answered (signed : SignedEnvelope P)
  | onward (found : Found)

def lookCheckout (inner : Inner P) (f : Flight) (ent : Except LicenceCheckError Entitlement)
    (entry : Except FetchError CogEntry) (cached : String → Bool) : Except ApiError (Looked P) := do
  let ent ← ent.mapError licenceError
  let entry ← entry.mapError fetchError
  let art ← require (entry.artifacts.find? (·.arch = f.req.arch))
    ⟨404, "arch_unavailable", "no " ++ f.req.arch ++ " binary"⟩
  let onward : Except ApiError (Looked P) :=
    if cfg.limits.maxArtifactBytes < art.size then
      .error ⟨413, "artifact_too_large", toString art.size ++ " bytes over the " ++
        toString cfg.limits.maxArtifactBytes ++ " limit"⟩
    else .ok (.onward ⟨ent, entry, art⟩)
  match heldArch inner.slots (slotKey entry.cogId entry.version) f.mesh f.req.arch with
  | none => onward
  | some (slot, have_) =>
    if have_.sha256 ≠ art.sha256 then .error ⟨409, "artifact_changed", "the registry republished this version"⟩
    else
      match (validGrant o slot f.now (o.publicKey f.secret) f.mesh).filter fun _ => cached have_.blake3 with
      | some signed => .ok (.answered signed)
      | none => onward

def checkDownload (found : Found) (bytes : Except FetchError Octets) : Except ApiError Octets := do
  let bytes ← bytes.mapError fetchError
  ensure (bytes.length ≤ cfg.limits.maxArtifactBytes) ⟨413, "artifact_too_large", "downloaded artifact over the limit"⟩
  ensure (o.sha256Hex bytes = found.art.sha256 ∧ (found.art.size = 0 ∨ bytes.length ≤ found.art.size))
    ⟨502, "verify_failed", "sha256 does not match the registry"⟩
  ensure (bytes ≠ []) ⟨502, "verify_failed", "empty artifact"⟩
  ensure (((utf8 found.entry.registry).all fun c => 0x20 ≤ c ∧ c ≤ 0x7e) = true ∧
    (utf8 found.entry.registry).length ≤ 256) ⟨502, "fetch_failed", "registry label is not printable ASCII"⟩
  pure bytes

/-- The slot of a checkout as it is found: a new one where there is none, and one of another mesh
without its binaries. -/
def slotFor (slots : Slots P) (mesh : String) (found : Found) (now : Nat) : Slot P :=
  match slots.slots.lookup (slotKey found.entry.cogId found.entry.version) with
  | some slot => if slot.meshId ≠ mesh then { slot with meshId := mesh, arches := [] } else slot
  | none =>
    { meshId := mesh
      cogId := found.entry.cogId
      version := found.entry.version
      seq := 0
      arches := []
      manifestSha256 := found.entry.manifestSha256
      registry := found.entry.registry
      licence := licenceRef found.ent now
      status := .active
      issueCtr := 0
      grant := none }

def Slot.checkedOut (slot : Slot P) (arch : String) (art : GrantArtifact) (found : Found) (now : Nat) : Slot P :=
  { slot with
    arches := Table.insert slot.arches arch art
    seq := saturatingAdd slot.seq 1
    status := .active
    manifestSha256 := found.entry.manifestSha256
    licence := licenceRef found.ent now }

omit [DecidableEq P] in
def artifactOf (arch : String) (bytes : Octets) : GrantArtifact :=
  ⟨arch, bytes.length, o.sha256Hex bytes, o.blake3Hex bytes⟩

def grantCheckout (slots : Slots P) (f : Flight) (found : Found) (bytes : Octets) (now : Nat)
    (cache : Option CacheError) :
    Except ApiError (SignedEnvelope P × Slots P) := do
  let art := artifactOf o f.req.arch bytes
  let slot := slotFor slots f.mesh found now
  ensure ((slot.arches.any fun entry => entry.1 ≠ f.req.arch ∧
    (entry.2.sha256 = art.sha256 ∨ entry.2.blake3 = art.blake3))
    = false) ⟨409, "duplicate_artifact", "another arch already has these bytes"⟩
  let slot := slot.checkedOut f.req.arch art found now
  match cache with
  | some e => .error (cacheError e)
  | none =>
    signSlot o cfg f.secret slots (slotKey found.entry.cogId found.entry.version) slot f.mesh now
      (min (saturatingAdd now cfg.grantTtlSecs) slot.licence.expires)

def Found.key (found : Found) : String := slotKey found.entry.cogId found.entry.version

/-- The slot that a checkout signs. -/
def Flight.draft (slots : Slots P) (f : Flight) (found : Found) (bytes : Octets) (now : Nat) : Slot P :=
  (slotFor slots f.mesh found now).checkedOut f.req.arch (artifactOf o f.req.arch bytes) found now

/-- Third section, after the download. The binding is read again: what was asked for is still in
force, or nothing is signed. -/
def finishCheckout (files : Files) (bindWrite : WriteOutcome) (inner : Inner P) (disk : Slots P) (f : Flight)
    (found : Found) (bytes : Octets) (now : Nat) (cache : Option CacheError) : Attempt P :=
  let (inner, disk) := refreshBinding files bindWrite inner disk
  if meshOf inner ≠ some f.mesh ∨ inner.key.map o.publicKey ≠ some (o.publicKey f.secret) then
    (.error ⟨409, "binding_changed", "the binding changed during the checkout; nothing was signed"⟩, inner, disk)
  else
    ((grantCheckout o cfg inner.slots f found bytes now cache).map fun (signed, work) => ([signed], work), inner, disk)

/-! ### Renewal -/

def rowLe (a b : Nat × String) : Prop := a.1 < b.1 ∨ a.1 = b.1 ∧ a.2 ≤ b.2

instance : DecidableRel rowLe := fun a b => inferInstanceAs (Decidable (a.1 < b.1 ∨ a.1 = b.1 ∧ a.2 ≤ b.2))

def renewKeys (slots : Slots P) (mesh : String) (release : List String) : List String :=
  ((((slots.slots.filter fun entry => entry.2.meshId = mesh ∧ (entry.2.status = .active ∨ entry.1 ∈ release)).map
    fun entry => (entry.2.issueCtr, entry.1)).insertionSort rowLe).take cfg.limits.renewBatch).map (·.2)

/-- The slot as it is renewed, and when its grant ends; `none` where the licence cannot be read, to be
tried again. A released or lapsed slot gets a withdrawal. -/
def Slot.renewal (slot : Slot P) (released : Bool) (ent : Except LicenceCheckError Entitlement) (now : Nat) :
    Option (Slot P × Nat) :=
  let withdrawn (slot : Slot P) : Slot P × Nat := ({ slot.release with seq := saturatingAdd slot.seq 1 }, now)
  if released then some (withdrawn slot)
  else
    match ent with
    | .ok ent =>
      let licence := licenceRef ent now
      some ({ slot with licence := licence, seq := saturatingAdd slot.seq 1 },
        min (saturatingAdd now cfg.grantTtlSecs) licence.expires)
    | .error (.unreadable _) => none
    | .error _ => some (withdrawn { slot with status := .lapsed })

def renewSlots (secret : Octets) (mesh : String) (now : Nat) (release : List String)
    (ents : String → Except LicenceCheckError Entitlement) :
    List String → Slots P → Except ApiError (List (SignedEnvelope P) × Slots P)
  | [], work => .ok ([], work)
  | key :: keys, work =>
    match (work.slots.lookup key).bind fun slot => slot.renewal cfg (release.contains key) (ents key) now with
    | none => renewSlots secret mesh now release ents keys work
    | some (slot, expiresAt) => do
      let (signed, work) ← signSlot o cfg secret work key slot mesh now expiresAt
      let (out, work) ← renewSlots secret mesh now release ents keys work
      pure (signed :: out, work)

theorem renewSlots_cons
    (issued : renewSlots o cfg secret mesh now release ents (key :: keys) slots = .ok (out, work)) :
    (∀ slot, slots.slots.lookup key = some slot →
        slot.renewal cfg (release.contains key) (ents key) now = none) ∧
      renewSlots o cfg secret mesh now release ents keys slots = .ok (out, work) ∨
    ∃ slot slot' expiresAt signed next tail, slots.slots.lookup key = some slot ∧
      slot.renewal cfg (release.contains key) (ents key) now = some (slot', expiresAt) ∧
      signSlot o cfg secret slots key slot' mesh now expiresAt = .ok (signed, next) ∧
      renewSlots o cfg secret mesh now release ents keys next = .ok (tail, work) ∧ out = signed :: tail := by
  unfold renewSlots at issued
  split at issued
  next skipped =>
    refine .inl ⟨fun slot found => ?_, issued⟩
    rw [found] at skipped
    exact skipped
  next slot' expiresAt renewed =>
    simp only [bind_ok_iff, pure_ok_iff] at issued
    obtain ⟨⟨signed, next⟩, signs, ⟨tail, _⟩, later, same⟩ := issued
    cases same
    obtain ⟨slot, found, renewal⟩ := Option.bind_eq_some_iff.mp renewed
    exact .inr ⟨slot, slot', expiresAt, signed, next, tail, found, renewal, signs, later, rfl⟩

def renew (files : Files) (bindWrite : WriteOutcome) (inner : Inner P) (disk : Slots P) (now : Nat)
    (release : List (String × String)) (ents : String → Except LicenceCheckError Entitlement) : Attempt P :=
  let (inner, disk) := refreshBinding files bindWrite inner disk
  match meshOf inner, inner.key with
  | none, _ => (.error ⟨409, "seed_not_bound", "no mesh binding"⟩, inner, disk)
  | some _, none => (.error ⟨503, "no_key", "no grant key"⟩, inner, disk)
  | some mesh, some secret =>
    let names := release.map fun r => slotKey r.1 r.2
    (renewSlots o cfg secret mesh now names ents (renewKeys cfg inner.slots mesh names) inner.slots, inner, disk)

structure Page (P : Type) where
  grants : List (SignedEnvelope P)
  next : Nat
  more : Bool

omit [DecidableEq P] in
def pageRows (inner : Inner P) (since : Nat) : List (Nat × SignedEnvelope P) :=
  ((inner.slots.slots.filter fun entry =>
    entry.2.meshId = (inner.bound.map (·.meshId)).getD "" ∧ since < entry.2.issueCtr).filterMap
      fun entry => entry.2.grant.map fun signed => (entry.2.issueCtr, signed)).insertionSort fun a b => a.1 ≤ b.1

omit [DecidableEq P] in
def grantsPage (inner : Inner P) (since : Nat) : Page P :=
  let rows := pageRows inner since
  let kept := rows.take cfg.limits.renewBatch
  { grants := kept.map (·.2)
    next := (kept.getLast?.map (·.1)).getD since
    more := cfg.limits.renewBatch < rows.length }

/-! ### The service over time -/

/-- A Seed: the running service if there is one, its files, and the grants released so far in the
order in which the answers that carry them were formed. -/
structure Seed (P : Type) where
  inner : Option (Inner P) := none
  disk : Slots P := {}
  files : Files := {}
  flights : List Flight := []
  transfers : Nat := 0
  released : List (SignedEnvelope P) := []
  /-- Grants signed so far, those whose write failed included. -/
  issues : Nat := 0

inductive Act where
  | begin (req : CheckoutReq) (now : Nat)
  | look (i : Nat) (ent : Except LicenceCheckError Entitlement) (entry : Except FetchError CogEntry)
      (cached : String → Bool)
  | finish (i : Nat) (bytes : Except FetchError Octets) (clock : Nat) (cache : Option CacheError)
      (bindWrite write : WriteOutcome)
  | renew (now : Nat) (release : List (String × String)) (ents : String → Except LicenceCheckError Entitlement)
      (bindWrite write : WriteOutcome)
  | grants (since : Nat) (bindWrite : WriteOutcome)
  /-- A transfer takes a permit and may go on to hold it. -/
  | artifact (serves : Bool) (bindWrite : WriteOutcome)
  | sent
  /-- The identity endpoint, or the authentication of any request. -/
  | refresh (bindWrite : WriteOutcome)
  | replaceFiles (files : Files)
  | crash
  | start (bindWrite : WriteOutcome)

namespace Seed

omit [DecidableEq P] in
def withState (s : Seed P) (next : Inner P × Slots P) : Seed P := { s with inner := some next.1, disk := next.2 }

omit [DecidableEq P] in
def answer (s : Seed P) (write : WriteOutcome) (attempt : Attempt P) : Seed P :=
  { s.withState (settle write attempt).2 with
    released := s.released ++ (settle write attempt).1.toOption.getD []
    issues := s.issues + (attempt.1.toOption.map (·.1.length)).getD 0 }

omit [DecidableEq P] in
def begin (s : Seed P) (inner : Inner P) (req : CheckoutReq) (now : Nat) : Seed P :=
  match beginCheckout cfg inner (s.flights.length + s.transfers) req now with
  | .ok flight => { s with flights := s.flights ++ [flight] }
  | .error _ => s

def look (s : Seed P) (inner : Inner P) (i : Nat) (ent : Except LicenceCheckError Entitlement)
    (entry : Except FetchError CogEntry) (cached : String → Bool) : Seed P :=
  match s.flights[i]? with
  | none => s
  | some f =>
    match f.found with
    | some _ => s
    | none =>
      match lookCheckout o cfg inner f ent entry cached with
      | .ok (.onward found) => { s with flights := s.flights.set i { f with found := some found } }
      | .ok (.answered signed) => { s with flights := s.flights.eraseIdx i, released := s.released ++ [signed] }
      | .error _ => { s with flights := s.flights.eraseIdx i }

omit [DecidableEq P] in
def land (s : Seed P) (i : Nat) : Seed P := { s with flights := s.flights.eraseIdx i }

def finish (s : Seed P) (inner : Inner P) (i : Nat) (bytes : Except FetchError Octets) (clock : Nat)
    (cache : Option CacheError) (bindWrite write : WriteOutcome) : Seed P :=
  match s.flights[i]? with
  | none => s
  | some f =>
    match f.found with
    | none => s
    | some found =>
      match checkDownload o cfg found bytes with
      | .error _ => s.land i
      | .ok bytes =>
        (s.land i).answer write
          (finishCheckout o cfg s.files bindWrite inner s.disk f found bytes (max clock f.now) cache)

omit [DecidableEq P] in
def artifact (s : Seed P) (inner : Inner P) (serves : Bool) (bindWrite : WriteOutcome) : Seed P :=
  if s.flights.length + s.transfers < cfg.limits.inFlight then
    { s.withState (refreshBinding s.files bindWrite inner s.disk) with transfers := s.transfers + serves.toNat }
  else s

omit [DecidableEq P] in
def grants (s : Seed P) (inner : Inner P) (since : Nat) (bindWrite : WriteOutcome) : Seed P :=
  let next := refreshBinding s.files bindWrite inner s.disk
  { s.withState next with released := s.released ++ (grantsPage cfg next.1 since).grants }

def serve (s : Seed P) (inner : Inner P) : Act → Seed P
  | .begin req now => s.begin cfg inner req now
  | .look i ent entry cached => s.look o cfg inner i ent entry cached
  | .finish i bytes clock cache bindWrite write => s.finish o cfg inner i bytes clock cache bindWrite write
  | .renew now release ents bindWrite write =>
    s.answer write (Proxy.renew o cfg s.files bindWrite inner s.disk now release ents)
  | .grants since bindWrite => s.grants cfg inner since bindWrite
  | .artifact serves bindWrite => s.artifact cfg inner serves bindWrite
  | .sent => { s with transfers := s.transfers - 1 }
  | .refresh bindWrite => s.withState (refreshBinding s.files bindWrite inner s.disk)
  | .replaceFiles files => { s with files := files }
  | .crash => { s with inner := none, flights := [], transfers := 0 }
  | .start _ => s

omit [DecidableEq P] in
/-- While the service is down only the files change, until it is started. -/
def dormant (s : Seed P) : Act → Seed P
  | .replaceFiles files => { s with files := files }
  | .start bindWrite =>
    match openService s.files bindWrite s.disk with
    | some next => s.withState next
    | none => s
  | _ => s

omit [DecidableEq P] in
theorem dormant_start (s : Seed P) (bindWrite : WriteOutcome) :
    s.dormant (.start bindWrite) = ((openService s.files bindWrite s.disk).map s.withState).getD s := by
  simp only [dormant]
  cases openService s.files bindWrite s.disk <;> rfl

def step (s : Seed P) (act : Act) : Seed P :=
  match s.inner with
  | some inner => s.serve o cfg inner act
  | none => s.dormant act

end Seed

end

end Weftos.Licence.Proxy
