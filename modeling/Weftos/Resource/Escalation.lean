import Weftos.Resource.Cache

/-! What an accepted delegation chain shows, in a symbolic model of signatures. Every later link is verified
with the key it carries itself, and its scope is not compared with the one above it. -/

namespace Weftos.Resource.Escalation
open Lib.Bytes Lib.Outcome Chain.Event
open Resource.Path Delegation Permission CapabilityChecker DelegationCert

/-! ### Who signed what -/

/-- Each name owns at most one key. The adversary signs what it
wants with the keys of its own names; under another name's key only what that name issued
verifies. -/
structure Parties (host : Host) where
  keyOf : String → Option Octets
  adversary : String → Prop
  issued : DelegationCert → Prop
  unforgeable : ∀ {name key message signature}, keyOf name = some key → ¬ adversary name →
    host.verify key message signature = true →
    ∃ cert, issued cert ∧ cert.grantor = name ∧ cert.canonicalMessage host = message

/-- The texts of times are as `to_rfc3339` writes them: each time has its own, none holds a bar
and none is the word that stands for no time. -/
structure TimeTexts (host : Host) : Prop where
  injective : Function.Injective host.rfc3339
  noBar : ∀ t, '|' ∉ (host.rfc3339 t).toList
  notNone : ∀ t, host.rfc3339 t ≠ "none"

/-- Two certificates that say the same. What is not signed is left out: the status bit, the key
and the signature itself. A parent that is absent is signed as `none`. -/
structure SamePayload (first second : DelegationCert) : Prop where
  grantor : first.grantor = second.grantor
  grantee : first.grantee = second.grantee
  resource : first.resource = second.resource
  createdAt : first.createdAt = second.createdAt
  expiresAt : first.expiresAt = second.expiresAt
  parent : first.parentSignatureHex.getD "none" = second.parentSignatureHex.getD "none"

/-- The certificate carries the key of `name`, which has issued what it says or is the adversary. -/
def IssuedBy {host : Host} (parties : Parties host) (name : String) (cert : DelegationCert) : Prop :=
  (∃ key, parties.keyOf name = some key ∧ decodeHexOf 32 cert.grantorPubkeyHex = .ok key) ∧
    (parties.adversary name ∨ ∃ given, parties.issued given ∧ given.grantor = name ∧ SamePayload given cert)

/-- No field of free text holds the bar that separates the fields. -/
structure Plain (cert : DelegationCert) : Prop where
  grantor : '|' ∉ cert.grantor.toList
  grantee : '|' ∉ cert.grantee.toList
  resource : '|' ∉ cert.resource.path.toList

section
variable {host : Host}

theorem canonicalText_toList (cert : DelegationCert) : (cert.canonicalText host).toList =
    cert.grantor.toList ++ '|' :: (cert.grantee.toList ++ '|' :: (cert.resource.path.toList ++
      '|' :: ((host.rfc3339 cert.createdAt).toList ++ '|' :: ((cert.expiryText host).toList ++
        '|' :: (cert.parentSignatureHex.getD "none").toList)))) := by
  simp [canonicalText, String.toList_append]

theorem expiryText_noBar (times : TimeTexts host) (cert : DelegationCert) :
    '|' ∉ (cert.expiryText host).toList := by
  rw [expiryText]
  split
  next exp _ => exact times.noBar exp
  next => decide

theorem expiryText_inj (times : TimeTexts host) {first second : DelegationCert}
    (same : first.expiryText host = second.expiryText host) : first.expiresAt = second.expiresAt := by
  rw [expiryText, expiryText] at same
  cases one : first.expiresAt with
  | none =>
    cases two : second.expiresAt with
    | none => rfl
    | some exp =>
      rw [one, two] at same
      exact absurd same.symm (times.notNone exp)
  | some exp =>
    cases two : second.expiresAt with
    | none =>
      rw [one, two] at same
      exact absurd same (times.notNone exp)
    | some exp' =>
      rw [one, two] at same
      exact congrArg some (times.injective same)

theorem samePayload_of_message (times : TimeTexts host) {first second : DelegationCert} (plain : Plain first)
    (plain' : Plain second) (same : first.canonicalMessage host = second.canonicalMessage host) :
    SamePayload first second := by
  have texts : (first.canonicalText host).toList = (second.canonicalText host).toList :=
    congrArg String.toList (utf8_injective same)
  rw [canonicalText_toList, canonicalText_toList] at texts
  obtain ⟨grantor, texts⟩ := terminated_field_unique plain.grantor plain'.grantor texts
  obtain ⟨grantee, texts⟩ := terminated_field_unique plain.grantee plain'.grantee texts
  obtain ⟨resource, texts⟩ := terminated_field_unique plain.resource plain'.resource texts
  obtain ⟨created, texts⟩ := terminated_field_unique (times.noBar _) (times.noBar _) texts
  obtain ⟨expiry, parent⟩ := terminated_field_unique (expiryText_noBar times _) (expiryText_noBar times _) texts
  exact {
    grantor := String.toList_inj.mp grantor
    grantee := String.toList_inj.mp grantee
    resource := congrArg ResourceId.mk (String.toList_inj.mp resource)
    createdAt := times.injective (String.toList_inj.mp created)
    expiresAt := expiryText_inj times (String.toList_inj.mp expiry)
    parent := String.toList_inj.mp parent }

end

/-! ### What an accepted chain has passed -/

variable {chain : List DelegationCert}

section
variable {host : Host} {now : Timestamp}

def VerifiesUnder (host : Host) (cert : DelegationCert) (key : Octets) : Prop :=
  decodeHexOf 32 cert.grantorPubkeyHex = .ok key ∧
    ∃ signature, host.verify key (cert.canonicalMessage host) signature = true

theorem verifies_of_validate (valid : cert.validate host now = .ok ()) : ∃ key, VerifiesUnder host cert key := by
  simp only [validate, verifySignature, bind_ok_iff, mapError_ok_iff, ensure_ok_iff] at valid
  obtain ⟨_, _, _, _, key, decoded, signature, _, _, _, verified⟩ := valid
  exact ⟨key, decoded, signature, verified⟩

theorem verifies_of_links
    (valid : validateLinks host now i prev rest = .ok ()) : ∀ cert ∈ rest, ∃ key, VerifiesUnder host cert key := by
  induction rest generalizing i prev with
  | nil => exact fun _ => nofun
  | cons link rest ih =>
    rw [validateLinks] at valid
    simp only [bind_ok_iff, ensure_ok_iff, require_ok_iff] at valid
    obtain ⟨_, accepted, _, _, _, _, _, _, others⟩ := valid
    intro cert listed
    cases listed with
    | head => exact verifies_of_validate accepted
    | tail _ later => exact ih others cert later

theorem chain_accepted {trustAnchor : Octets} (valid : validateChain host chain trustAnchor now = .ok ()) :
    ∃ first rest, chain = first :: rest ∧ VerifiesUnder host first trustAnchor ∧
      ∀ cert ∈ rest, ∃ key, VerifiesUnder host cert key := by
  cases chain with
  | nil => exact absurd valid nofun
  | cons first rest =>
    simp only [validateChain, bind_ok_iff, mapError_ok_iff, ensure_ok_iff] at valid
    obtain ⟨_, decoded, _, rfl, _, accepted, links⟩ := valid
    obtain ⟨key, own⟩ := verifies_of_validate accepted
    have same : _ = key := Except.ok.inj (decoded.symm.trans own.1)
    exact ⟨first, rest, rfl, same ▸ own, verifies_of_links links⟩

theorem Plain.of_samePayload {given : DelegationCert} (plain : Plain given) (same : SamePayload given cert) :
    Plain cert :=
  ⟨same.grantor ▸ plain.grantor, same.grantee ▸ plain.grantee, same.resource ▸ plain.resource⟩

theorem issuedBy_iff {parties : Parties host} (times : TimeTexts host)
    (plainIssued : ∀ given, parties.issued given → Plain given) (verified : VerifiesUnder host cert key) :
    IssuedBy parties name cert ↔ parties.keyOf name = some key ∧ (parties.adversary name ∨ Plain cert) := by
  constructor
  · rintro ⟨⟨own, owned, decoded⟩, issuer⟩
    obtain rfl : own = key := Except.ok.inj (decoded.symm.trans verified.1)
    refine ⟨owned, issuer.imp_right ?_⟩
    rintro ⟨given, issued, -, same⟩
    exact (plainIssued given issued).of_samePayload same
  · rintro ⟨owned, issuer⟩
    refine ⟨⟨key, owned, verified.1⟩, ?_⟩
    by_cases own : parties.adversary name
    · exact .inl own
    · obtain ⟨-, signature, accepted⟩ := verified
      obtain ⟨given, issued, named, message⟩ := parties.unforgeable owned own accepted
      have plain := issuer.resolve_left own
      exact .inr ⟨given, issued, named, samePayload_of_message times (plainIssued given issued) plain message⟩

end

/-- What the checker does not look at: a link carries the key of the grantor it names, the links above the leaf
cover the resource too, and what is not the adversary's own holds no bar in its texts. -/
structure Attenuated {host : Host} (parties : Parties host) (anchor : String) (resource : ResourceId)
    (chain : List DelegationCert) : Prop where
  root : ∀ cert ∈ chain.head?, parties.adversary anchor ∨ Plain cert
  keyed : ∀ cert ∈ chain.tail, ∃ key, parties.keyOf cert.grantor = some key ∧
    decodeHexOf 32 cert.grantorPubkeyHex = .ok key
  links : ∀ cert ∈ chain.tail, parties.adversary cert.grantor ∨ Plain cert
  above : ∀ cert ∈ chain.dropLast, resourceInScope resource cert.resource = true

theorem covered_iff {resource : ResourceId} (byChain : leafCovers chain principal resource = true) :
    (∀ cert ∈ chain, resourceInScope resource cert.resource = true) ↔
      ∀ cert ∈ chain.dropLast, resourceInScope resource cert.resource = true := by
  rw [leafCovers] at byChain
  split at byChain
  next leaf last =>
    obtain ⟨above, rfl⟩ := List.getLast?_eq_some_iff.mp last
    have covers := (Bool.and_eq_true _ _ ▸ byChain).2
    simp only [List.dropLast_concat, List.forall_mem_append, List.forall_mem_singleton, covers, and_true]
  next => cases byChain

open Cache (clock alice bob)

def stamp (t : Timestamp) : String := hexEncode (leBytes 8 t.word.toNat ++ leBytes 4 t.nanos)

theorem stamp_injective : Function.Injective stamp := by
  intro first second same
  obtain ⟨words, nanos⟩ := List.append_inj (hexEncode_injective same) (by rw [leBytes_length, leBytes_length])
  have words : first.word.toNat = second.word.toNat :=
    leBytes_injective 8 (UInt64.toNat_lt _) (UInt64.toNat_lt _) words
  have nanos : first.nanos = second.nanos := by
    have := first.fraction
    have := second.fraction
    exact leBytes_injective 4 (by omega) (by omega) nanos
  have secs : first.secs = second.secs := by
    have one := first.word_toNat
    have two := second.word_toNat
    have := first.low
    have := first.high
    have := second.low
    have := second.high
    unfold minSecs maxSecs at *
    omega
  cases first
  cases second
  simp only [Timestamp.mk.injEq]
  exact ⟨secs, nanos⟩

def blank : Host := ⟨fun _ => .ok (), fun _ _ _ => false, stamp⟩

def rootKey : Octets := leBytes 32 1
def aliceKey : Octets := leBytes 32 2
def malloryKey : Octets := leBytes 32 3

def rootToAlice : DelegationCert :=
  .grant blank "root" "alice" ⟨"/a"⟩ rootKey (fun _ => leBytes 64 1) none none (clock 0)

def aliceToBob : DelegationCert :=
  .grant blank "alice" "bob" ⟨"/a/b"⟩ aliceKey (fun _ => leBytes 64 2) none (some rootToAlice) (clock 1)

def rootToMallory : DelegationCert :=
  .grant blank "root" "mallory" ⟨"/a"⟩ rootKey (fun _ => leBytes 64 3) none none (clock 0)

def forged : DelegationCert :=
  .grant blank "alice" "mallory" ⟨"/a"⟩ malloryKey (fun _ => leBytes 64 4) none (some rootToAlice) (clock 1)

def wider : DelegationCert :=
  .grant blank "mallory" "mallory" .root malloryKey (fun _ => leBytes 64 5) none (some rootToMallory) (clock 1)

def signed : List (Octets × DelegationCert) :=
  [(rootKey, rootToAlice), (aliceKey, aliceToBob), (rootKey, rootToMallory), (malloryKey, forged), (malloryKey, wider)]

def host : Host :=
  { blank with
    verify key message signature := signed.any fun s =>
      s.1 = key && s.2.canonicalMessage blank = message && s.2.signatureHex = hexEncode signature }

theorem host_times : TimeTexts host where
  injective := stamp_injective
  noBar _ listed := by
    obtain ⟨n, digit⟩ := hexEncode_digits listed
    revert n
    decide
  notNone t same := by
    have listed : 'n' ∈ (host.rfc3339 t).toList := by rw [same]; decide
    obtain ⟨n, digit⟩ := hexEncode_digits listed
    revert n
    decide

def owners : List (String × Octets) := [("root", rootKey), ("alice", aliceKey), ("mallory", malloryKey)]

/-- `mallory` is the adversary; the others have issued three certificates. -/
def parties : Parties host where
  keyOf name := owners.lookup name
  adversary name := name = "mallory"
  issued cert := cert ∈ [rootToAlice, aliceToBob, rootToMallory]
  unforgeable owned other verified := by
    have table : ∀ s ∈ signed, ∀ o ∈ owners, o.2 = s.1 → o.1 ≠ "mallory" →
        s.2 ∈ [rootToAlice, aliceToBob, rootToMallory] ∧ s.2.grantor = o.1 := by decide +kernel
    obtain ⟨s, listed, made⟩ := List.any_eq_true.mp verified
    simp only [Bool.and_eq_true, decide_eq_true_eq] at made
    obtain ⟨issued, named⟩ := table s listed _ (Weftos.Lib.Table.mem_of_lookup owned) made.1.1.symm other
    exact ⟨s.2, issued, named, made.1.2⟩

def mallory : Principal := .new "mallory"

instance (cert : DelegationCert) : Decidable (Plain cert) :=
  decidable_of_iff ('|' ∉ cert.grantor.toList ∧ '|' ∉ cert.grantee.toList ∧ '|' ∉ cert.resource.path.toList)
    ⟨fun all => ⟨all.1, all.2.1, all.2.2⟩, fun plain => ⟨plain.grantor, plain.grantee, plain.resource⟩⟩

end Weftos.Resource.Escalation
