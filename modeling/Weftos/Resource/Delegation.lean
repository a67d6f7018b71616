import Weftos.Chain.Event
import Weftos.Lib.Outcome
import Weftos.Resource.Path

/-! Delegation certificates and certificate chains (`exo-resource-tree/src/delegation.rs`). -/

namespace Weftos.Resource.Delegation
open Lib.Bytes Lib.Outcome Lib.Text Chain.Event Resource.Path

/-- What the crate takes from outside: Ed25519 as `ed25519_dalek` offers it, and the text
`chrono` gives a time. A key that is refused comes with the text of the error. -/
structure Host where
  fromBytes : Octets → Except String Unit
  verify : (key message signature : Octets) → Bool
  rfc3339 : Timestamp → String

inductive DelegationError where
  | badSignature (why : String)
  | badPublicKey (why : String)
  | verificationFailed
  | revoked
  | expired
  | chainBroken (why : String)
  | emptyChain
  deriving DecidableEq

structure DelegationCert where
  grantor : String
  grantee : String
  resource : ResourceId
  createdAt : Timestamp
  expiresAt : Option Timestamp
  revoked : Bool
  grantorPubkeyHex : String
  signatureHex : String
  parentSignatureHex : Option String
  deriving DecidableEq

/-! ### Hex -/

def hexVal (c : UInt8) : Option UInt8 :=
  if 48 ≤ c ∧ c ≤ 57 then some (c - 48)
  else if 97 ≤ c ∧ c ≤ 102 then some (c - 97 + 10)
  else if 65 ≤ c ∧ c ≤ 70 then some (c - 65 + 10)
  else none

/-- The pairs from position `i` on. The length was checked to be even. -/
def decodePairs : Nat → Octets → Except String Octets
  | i, high :: low :: rest => do
    let hi ← require (hexVal high) s!"bad hex at {i}"
    let lo ← require (hexVal low) s!"bad hex at {i + 1}"
    let tail ← decodePairs (i + 2) rest
    pure ((hi <<< 4 ||| lo) :: tail)
  | _, _ => .ok []

def decodeHex (text : String) : Except String Octets := do
  let bytes := utf8 (trim text)
  ensure (bytes.length % 2 = 0) "odd hex length"
  decodePairs 0 bytes

/-- `decode_hex_32` and `decode_hex_64`. -/
def decodeHexOf (width : Nat) (text : String) : Except String Octets := do
  let bytes ← decodeHex text
  ensure (bytes.length = width) s!"expected {width} bytes, got {bytes.length}"
  pure bytes

/-! ### One certificate -/

/-- `now > expires_at`. -/
def after (now then_ : Timestamp) : Bool :=
  then_.secs < now.secs || (then_.secs = now.secs && then_.nanos < now.nanos)

def DelegationCert.expired (cert : DelegationCert) (now : Timestamp) : Bool :=
  match cert.expiresAt with
  | some exp => after now exp
  | none => false

section
variable (host : Host)

section
variable (cert : DelegationCert)

def DelegationCert.expiryText : String :=
  match cert.expiresAt with
  | some exp => host.rfc3339 exp
  | none => "none"

def DelegationCert.canonicalText : String :=
  cert.grantor ++ "|" ++ cert.grantee ++ "|" ++ cert.resource.path ++ "|" ++ host.rfc3339 cert.createdAt ++ "|" ++
    cert.expiryText host ++ "|" ++ cert.parentSignatureHex.getD "none"

def DelegationCert.canonicalMessage : Octets := utf8 (cert.canonicalText host)

def DelegationCert.verifySignature : Except DelegationError Unit := do
  let pk ← (decodeHexOf 32 cert.grantorPubkeyHex).mapError .badPublicKey
  let sig ← (decodeHexOf 64 cert.signatureHex).mapError .badSignature
  (host.fromBytes pk).mapError .badPublicKey
  ensure (host.verify pk (cert.canonicalMessage host) sig = true) .verificationFailed

def DelegationCert.validate (now : Timestamp) : Except DelegationError Unit := do
  ensure (cert.revoked = false) .revoked
  ensure (cert.expired now = false) .expired
  cert.verifySignature host

def DelegationCert.revoke : DelegationCert := { cert with revoked := true }

end

/-- A new certificate, with the signature `sign` makes over its canonical message. -/
def DelegationCert.grant (grantor grantee : String) (resource : ResourceId) (verifyingKey : Octets)
    (sign : Octets → Octets) (expiresAt : Option Timestamp) (parent : Option DelegationCert) (now : Timestamp) :
    DelegationCert :=
  let cert : DelegationCert :=
    { grantor, grantee, resource, createdAt := now, expiresAt, revoked := false,
      grantorPubkeyHex := hexEncode verifyingKey, signatureHex := "",
      parentSignatureHex := parent.map DelegationCert.signatureHex }
  { cert with signatureHex := hexEncode (sign (cert.canonicalMessage host)) }

/-- The links from number `i` on, each against the one before it. -/
def validateLinks (now : Timestamp) : Nat → DelegationCert → List DelegationCert → Except DelegationError Unit
  | _, _, [] => .ok ()
  | i, prev, cert :: rest => do
    cert.validate host now
    ensure (cert.grantor = prev.grantee)
      (.chainBroken s!"link {i}: grantor '{cert.grantor}' != parent grantee '{prev.grantee}'")
    let ps ← require cert.parentSignatureHex (.chainBroken s!"link {i}: missing parent_signature_hex")
    ensure (ps = prev.signatureHex) (.chainBroken s!"link {i}: parent_signature_hex mismatch")
    validateLinks now (i + 1) cert rest

def validateChain (chain : List DelegationCert) (trustAnchor : Octets) (now : Timestamp) :
    Except DelegationError Unit :=
  match chain with
  | [] => .error .emptyChain
  | first :: rest => do
    let rootPk ← (decodeHexOf 32 first.grantorPubkeyHex).mapError .badPublicKey
    ensure (rootPk = trustAnchor) (.chainBroken "root grantor pubkey does not match trust anchor")
    first.validate host now
    validateLinks host now 1 first rest

end

end Weftos.Resource.Delegation
