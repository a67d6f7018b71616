import Weftos.Lib.Bytes
import Weftos.Lib.Outcome
import Weftos.Lib.Text

/-! Signed records of the licence proxy (`weft-licence-wire`): grants, bindings, envelopes, and the
checks a record passes before it is believed. `u64` values are natural numbers; sums that saturate
in the code saturate here. -/

namespace Weftos.Licence.Wire
open Lib.Bytes Lib.Outcome Lib.Text

/-! ### Numbers -/

def U64_MAX : Nat := 2 ^ 64 - 1

def saturatingAdd (a b : Nat) : Nat := min (a + b) U64_MAX

theorem le_saturatingAdd (sum : c ≤ a + b) (bound : c ≤ U64_MAX) : c ≤ saturatingAdd a b :=
  le_min sum bound

theorem saturatingAdd_eq (fits : a + b ≤ U64_MAX) : saturatingAdd a b = a + b := min_eq_left fits

def GRANT_SKEW_SECS : Nat := 300

def MAX_GRANT_TTL_SECS : Nat := 604800

def FAR_FUTURE_CLAMP_SECS : Nat := 2592000

def MAX_UNIX_TIME : Nat := 4102444800

def MAX_ARTIFACT_BYTES : Nat := 2 ^ 30

def MAX_PAYLOAD_BYTES : Nat := 16384

def MAX_GRANT_ARTIFACTS : Nat := 8

def MAX_FLOORS : Nat := 8

def MAX_GRANT_SLOTS : Nat := 512

def MAX_APPROVALS : Nat := 4096

def BINDING_DOMAIN : String := "weft-licence-v1/binding"

def GRANT_DOMAIN : String := "weft-licence-v1/grant"

def APPROVAL_DOMAIN : String := "weft-licence-v1/approval"

/-! ### Records -/

structure GrantArtifact where
  arch : String
  size : Nat
  sha256 : String
  blake3 : String
  deriving DecidableEq

structure LicenceRef where
  refSha256 : String
  expires : Nat
  deriving DecidableEq

structure CheckoutGrant where
  v : Nat
  grantId : String
  meshId : String
  seedDeviceId : String
  grantKeyId : String
  source : String
  registry : String
  cogId : String
  version : String
  artifacts : List GrantArtifact
  manifestSha256 : String
  licence : LicenceRef
  seq : Nat
  issuedAt : Nat
  expiresAt : Nat
  deriving DecidableEq

namespace CheckoutGrant

variable (g : CheckoutGrant)

def isWithdrawal : Bool := g.expiresAt ≤ g.issuedAt

def artifact (arch : String) : Option GrantArtifact := g.artifacts.find? (·.arch = arch)

def key : String × String := (g.cogId, g.version)

end CheckoutGrant

inductive BindState where
  | bound
  | unbound
  deriving DecidableEq

structure BindingRecord where
  v : Nat
  deviceId : String
  devicePubkey : String
  meshId : String
  grantPubkey : String
  stewardNodeId : String
  stewardPubkey : String
  state : BindState
  seq : Nat
  boundAt : Nat
  deriving DecidableEq

structure Approval where
  v : Nat
  meshId : String
  cogId : String
  version : String
  sha256 : List String
  approvedAt : Nat
  deriving DecidableEq

/-- A signed payload as it travels. `P` is the type of canonical JSON texts. -/
structure SignedEnvelope (P : Type) where
  payload : P
  publicKey : String
  signature : String
  deriving DecidableEq

inductive LicenceError where
  | malformed (what : String)
  | tooLarge
  | badSignature
  | untrustedKey
  | keyRevoked
  | wrongMesh
  | noLocalMesh
  | noBinding
  | unbound
  | orphaned
  | conflict (seq : Nat)
  | dropsArch (arch : String)
  | changesArtifact (arch : String)
  | notYetValid
  | ttlTooLong
  | bindingRefused (why : String)
  | checkFailed (why : String)
  | poisoned (why : String)
  | persist (why : String)
  | full
  deriving DecidableEq

def LicenceError.message : LicenceError → String
  | .malformed what => s!"malformed licence record: {what}"
  | .tooLarge => "licence record too large"
  | .badSignature => "licence signature does not verify"
  | .untrustedKey => "licence signer is not trusted for this record"
  | .keyRevoked => "grant key is revoked"
  | .wrongMesh => "record is for another mesh"
  | .noLocalMesh => "no local mesh id"
  | .noBinding => "no binding"
  | .unbound => "binding is unbound"
  | .orphaned => "binding is orphaned"
  | .conflict seq => s!"conflicting records at seq {seq}"
  | .dropsArch arch => s!"newer grant drops arch {arch}"
  | .changesArtifact arch => s!"newer grant changes artifact {arch}"
  | .notYetValid => "grant is not yet valid"
  | .ttlTooLong => "grant lifetime exceeds the maximum"
  | .bindingRefused why => s!"binding refused: {why}"
  | .checkFailed why => s!"binding check failed: {why}"
  | .poisoned why => s!"licence store is poisoned: {why}"
  | .persist why => s!"licence store persist failed: {why}"
  | .full => "licence store is full"

/-- What the crates take from outside: Ed25519 over a domain and a text, SHA-256, BLAKE3, and the
JSON text of each kind of record. A grant's text parses back to the grant. -/
structure Outside (P : Type) where
  size : P → Nat
  publicKey : (secret : Octets) → Octets
  sign : (secret : Octets) → (domain : String) → P → Octets
  verifyStrict : (key : Octets) → (domain : String) → P → (signature : Octets) → Bool
  sha256Hex : Octets → String
  blake3Hex : Octets → String
  textSha256Hex : P → String
  grantText : CheckoutGrant → P
  parseGrant : P → Except String CheckoutGrant
  parseGrant_grantText : ∀ g, parseGrant (grantText g) = .ok g
  bindingText : BindingRecord → P
  parseBinding : P → Except String BindingRecord
  approvalText : Approval → P
  parseApproval : P → Except String Approval

theorem Outside.grantText_inj {P : Type} {o : Outside P} (same : o.grantText g = o.grantText g') :
    g = g' := by
  have parsed := congrArg o.parseGrant same
  rw [o.parseGrant_grantText, o.parseGrant_grantText] at parsed
  exact Except.ok.inj parsed

/-! ### Field checks -/

def hexVal (b : UInt8) : Option UInt8 :=
  if 48 ≤ b ∧ b ≤ 57 then some (b - 48) else if 97 ≤ b ∧ b ≤ 102 then some (b - 97 + 10) else none

def hexDecodeExact (n : Nat) (s : String) : Option Octets :=
  if (utf8 s).length = n * 2 then (hexPairs () (fun b => require (hexVal b) ()) (utf8 s)).toOption else none

theorem hexEncode_of_hexDecodeExact (decoded : hexDecodeExact n s = some bytes) : hexEncode bytes = s := by
  have table : ∀ k : Fin 256, (hexVal (UInt8.ofNat k.val)).all (fun v => decide (∃ n : Fin 16, v = UInt8.ofNat n.val ∧
      UInt8.ofNat k.val = UInt8.ofNat (Nat.digitChar n.val).toNat)) = true := by
    decide +kernel
  have digits : ∀ b v, require (hexVal b) () = .ok v →
      ∃ n : Fin 16, v = UInt8.ofNat n.val ∧ b = UInt8.ofNat (Nat.digitChar n.val).toNat := by
    intro b v read
    have entry := table ⟨b.toNat, b.toNat_lt⟩
    rw [UInt8.ofNat_toNat, require_ok_iff.mp read] at entry
    simpa using entry
  unfold hexDecodeExact at decoded
  split at decoded
  · apply utf8_injective
    cases read : hexPairs () (fun b => require (hexVal b) ()) (utf8 s) with
    | error e =>
      rw [read] at decoded
      cases decoded
    | ok value =>
      rw [read] at decoded
      cases decoded
      exact utf8_hexEncode_of_hexPairs digits read
  · cases decoded

def validHex32 (s : String) : Bool := (hexDecodeExact 32 s).isSome

def validToken (s : String) : Bool :=
  s ≠ "" && (utf8 s).length ≤ 128 &&
    s.toList.all fun c => isAsciiAlphanumeric c || ['.', '_', '-', '+', '@', '/'].contains c

section
variable {P : Type} [DecidableEq P] (w : Outside P)

def keyId (key : Octets) : String := "ed25519:" ++ String.ofList ((w.sha256Hex key).toList.take 16)

def computeId (g : CheckoutGrant) : String := w.textSha256Hex (w.grantText { g with grantId := "" })

def envelopeKey (env : SignedEnvelope P) : Except LicenceError Octets := do
  ensure (w.size env.payload ≤ MAX_PAYLOAD_BYTES) .tooLarge
  require (hexDecodeExact 32 env.publicKey) (.malformed "public key")

def verifyEnvelope (domain : String) (env : SignedEnvelope P) (key : Octets) : Except LicenceError Unit := do
  let signature ← require (hexDecodeExact 64 env.signature) (.malformed "signature")
  ensure (w.verifyStrict key domain env.payload signature = true) .badSignature

def parseCanonical {α : Type} (parse : P → Except String α) (text : α → P) (payload : P) : Except LicenceError α := do
  let value ← (parse payload).mapError .malformed
  ensure (text value = payload) (.malformed "payload is not canonical")
  pure value

def sortedUnique : List GrantArtifact → Bool
  | a :: b :: rest => decide (a.arch < b.arch) && sortedUnique (b :: rest)
  | _ => true

def checkShape (g : CheckoutGrant) (key : Octets) : Except LicenceError Unit := do
  ensure (g.v = 1 ∧ g.source = "cognitum") (.malformed "grant version or source")
  ensure (g.grantKeyId = keyId w key) (.malformed "grant key id")
  ensure (g.grantId = computeId w g) (.malformed "grant id")
  ensure ((validToken g.seedDeviceId && validToken g.cogId && validToken g.version) = true ∧ g.registry ≠ "" ∧
    (utf8 g.registry).length ≤ 256) (.malformed "grant token")
  ensure ((validHex32 g.meshId && validHex32 g.manifestSha256 && validHex32 g.licence.refSha256) = true)
    (.malformed "grant hash")
  ensure (g.artifacts ≠ [] ∧ g.artifacts.length ≤ MAX_GRANT_ARTIFACTS) (.malformed "grant artifact count")
  ensure (sortedUnique g.artifacts = true ∧ (g.artifacts.all fun a => validToken a.arch && validHex32 a.sha256 &&
    validHex32 a.blake3) = true) (.malformed "grant artifacts")
  ensure ((g.artifacts.map (·.sha256)).Nodup ∧ (g.artifacts.map (·.blake3)).Nodup)
    (.malformed "grant duplicate artifact hash")
  ensure ((g.artifacts.all fun a => 0 < a.size ∧ a.size ≤ MAX_ARTIFACT_BYTES) = true) (.malformed "grant artifact size")
  ensure (((utf8 g.registry).all fun c => 0x20 ≤ c ∧ c ≤ 0x7e) = true) (.malformed "grant registry")
  ensure (g.licence.expires ≠ 0 ∧ g.licence.expires ≤ MAX_UNIX_TIME ∧ g.issuedAt ≤ MAX_UNIX_TIME ∧
    g.expiresAt ≤ MAX_UNIX_TIME) (.malformed "grant time")
  ensure (g.expiresAt - g.issuedAt ≤ MAX_GRANT_TTL_SECS) .ttlTooLong

def verifyGrantSignature (signed : SignedEnvelope P) (key : Octets) : Except LicenceError CheckoutGrant := do
  let signer ← envelopeKey w signed
  ensure (signer = key) .untrustedKey
  verifyEnvelope w GRANT_DOMAIN signed key
  let g ← parseCanonical w.parseGrant w.grantText signed.payload
  checkShape w g key
  pure g

def verifyGrant (signed : SignedEnvelope P) (key : Octets) (mesh : String) : Except LicenceError CheckoutGrant := do
  let g ← verifyGrantSignature w signed key
  ensure (g.meshId = mesh) .wrongMesh
  pure g

def signEnvelope (domain : String) (payload : P) (secret : Octets) : SignedEnvelope P where
  payload := payload
  publicKey := hexEncode (w.publicKey secret)
  signature := hexEncode (w.sign secret domain payload)

/-- The grant as it is signed: artifacts by arch, key id and grant id filled in. -/
def canonicalGrant (grant : CheckoutGrant) (secret : Octets) : CheckoutGrant :=
  let g := { grant with
    artifacts := grant.artifacts.insertionSort fun a b => a.arch ≤ b.arch
    grantKeyId := keyId w (w.publicKey secret) }
  { g with grantId := computeId w g }

def signGrant (grant : CheckoutGrant) (secret : Octets) : SignedEnvelope P :=
  signEnvelope w GRANT_DOMAIN (w.grantText (canonicalGrant w grant secret)) secret

/-- A pinned operator key signs bindings and approvals; no binding may name a pinned key. -/
structure TrustAnchors where
  operator : Octets → Bool
  anchored : Octets → Bool

def verifyBindingSignature (anchors : TrustAnchors) (signed : SignedEnvelope P) :
    Except LicenceError BindingRecord := do
  let signer ← envelopeKey w signed
  ensure (anchors.operator signer = true) .untrustedKey
  verifyEnvelope w BINDING_DOMAIN signed signer
  let rec_ ← parseCanonical w.parseBinding w.bindingText signed.payload
  ensure (rec_.v = 2) (.malformed "binding version")
  ensure ((validHex32 rec_.devicePubkey && validHex32 rec_.meshId && validHex32 rec_.grantPubkey &&
    validHex32 rec_.stewardPubkey && validToken rec_.deviceId && validToken rec_.stewardNodeId) = true)
    (.malformed "binding field")
  ensure (rec_.boundAt ≤ MAX_UNIX_TIME) (.malformed "binding bounds")
  ensure (([rec_.grantPubkey, rec_.stewardPubkey].any fun hex =>
    anchors.anchored ((hexDecodeExact 32 hex).getD (List.replicate 32 0))) = false)
    (.malformed "binding key is a trust anchor")
  pure rec_

def verifyBindingMember (anchors : TrustAnchors) (signed : SignedEnvelope P) (mesh : String) :
    Except LicenceError BindingRecord := do
  let rec_ ← verifyBindingSignature w anchors signed
  ensure (rec_.meshId = mesh) .wrongMesh
  pure rec_

variable {g : CheckoutGrant} {key : Octets}

theorem verifyGrant_ok (verified : verifyGrant w signed key mesh = .ok g) :
    verifyGrantSignature w signed key = .ok g ∧ g.meshId = mesh := by
  simp only [verifyGrant, bind_ok_iff, ensure_ok_iff, pure_ok_iff] at verified
  obtain ⟨_, signature, _, mesh, rfl⟩ := verified
  exact ⟨signature, mesh⟩

theorem verifyGrantSignature_ok (verified : verifyGrantSignature w signed key = .ok g) :
    w.grantText g = signed.payload ∧ checkShape w g key = .ok () := by
  simp only [verifyGrantSignature, parseCanonical, bind_ok_iff, ensure_ok_iff, pure_ok_iff] at verified
  obtain ⟨_, -, _, -, _, -, _, ⟨_, -, _, canonical, rfl⟩, _, shape, rfl⟩ := verified
  exact ⟨canonical, shape⟩

omit [DecidableEq P] in
theorem checkShape_times (shape : checkShape w g key = .ok ()) :
    g.expiresAt ≤ g.issuedAt + MAX_GRANT_TTL_SECS ∧ g.issuedAt ≤ MAX_UNIX_TIME ∧ g.expiresAt ≤ MAX_UNIX_TIME ∧
      g.licence.expires ≤ MAX_UNIX_TIME := by
  simp only [checkShape, bind_ok_iff, ensure_ok_iff] at shape
  obtain ⟨_, -, _, -, _, -, _, -, _, -, _, -, _, -, _, -, _, -, _, -, _, times, lifetime⟩ := shape
  omega

theorem sortedUnique_pairwise (sorted : sortedUnique artifacts = true) :
    artifacts.Pairwise fun a b => a.arch < b.arch := by
  induction artifacts with
  | nil => exact .nil
  | cons a rest ih =>
    cases rest with
    | nil => exact List.pairwise_singleton _ a
    | cons b rest =>
      simp only [sortedUnique, Bool.and_eq_true, decide_eq_true_eq] at sorted
      have later := ih sorted.2
      refine List.pairwise_cons.mpr ⟨?_, later⟩
      intro c listed
      obtain rfl | further := List.mem_cons.mp listed
      · exact sorted.1
      · exact sorted.1.trans ((List.pairwise_cons.mp later).1 c further)

omit [DecidableEq P] in
theorem artifact_of_mem (shape : checkShape w g key = .ok ())
    (listed : art ∈ g.artifacts) : g.artifact art.arch = some art := by
  simp only [checkShape, bind_ok_iff, ensure_ok_iff] at shape
  obtain ⟨_, -, _, -, _, -, _, -, _, -, _, -, _, sorted, -⟩ := shape
  have ordered := sortedUnique_pairwise sorted.1
  unfold CheckoutGrant.artifact
  generalize g.artifacts = artifacts at listed ordered
  induction artifacts with
  | nil => cases listed
  | cons a rest ih =>
    obtain ⟨first, ordered⟩ := List.pairwise_cons.mp ordered
    obtain rfl | later := List.mem_cons.mp listed
    · simp
    · have differ : a.arch ≠ art.arch := (first art later).ne
      rw [List.find?_cons_of_neg (by simpa using differ)]
      exact ih later ordered

end

end Weftos.Licence.Wire
