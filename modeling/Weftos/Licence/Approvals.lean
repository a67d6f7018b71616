import Weftos.Licence.Store

/-! The operator approvals a node holds: additive, kept by content, saved after each is taken in. -/

namespace Weftos.Licence.Approvals
open Lib Lib.Bytes Lib.Outcome Wire Store

def MAX_APPROVAL_HASHES : Nat := 32

structure ApprovalsFile (P : Type) where
  v : Nat
  approvals : List (SignedEnvelope P)
  deriving DecidableEq

structure ApprovalStore (P : Type) where
  held : List (String × Held P Approval) := []
  poisoned : Option String := none
  disk : Disk (ApprovalsFile P) := .missing

section
variable {P : Type} (o : Outside P)

def contentKey (a : Approval) : String :=
  o.sha256Hex (utf8 (a.sha256.foldl (fun text h => text ++ "\n" ++ h)
    ("weft-licence-v1/approval-key\n" ++ a.meshId ++ "\n" ++ a.cogId ++ "\n" ++ a.version)))

def covers (a : Approval) (sha256 : String) : Bool := a.sha256.any (· = sha256)

def ascending : List String → Bool
  | a :: b :: rest => decide (a < b) && ascending (b :: rest)
  | _ => true

variable [DecidableEq P] (anchors : TrustAnchors)

def verifyApprovalSignature (signed : SignedEnvelope P) : Except LicenceError Approval := do
  let signer ← envelopeKey o signed
  ensure (anchors.operator signer = true) .untrustedKey
  verifyEnvelope o APPROVAL_DOMAIN signed signer
  let a ← parseCanonical o.parseApproval o.approvalText signed.payload
  ensure (a.v = 1 ∧ (validHex32 a.meshId && validToken a.cogId && validToken a.version) = true ∧ a.sha256 ≠ [] ∧
    a.sha256.length ≤ MAX_APPROVAL_HASHES ∧ ascending a.sha256 = true ∧ a.sha256.all validHex32 = true)
    (.malformed "approval field")
  pure a

def verifyApproval (signed : SignedEnvelope P) (mesh : String) : Except LicenceError Approval := do
  let a ← verifyApprovalSignature o anchors signed
  ensure (a.meshId = mesh) .wrongMesh
  pure a

namespace ApprovalStore

omit [DecidableEq P]

def entries (s : ApprovalStore P) : List (String × Held P Approval) := s.held.insertionSort fun a b => a.1 ≤ b.1

theorem mem_entries {s : ApprovalStore P} : entry ∈ s.entries ↔ entry ∈ s.held :=
  (List.perm_insertionSort _ _).mem_iff

def fileOf (s : ApprovalStore P) : ApprovalsFile P where
  v := 1
  approvals := s.entries.map (·.2.signed)

def isEmpty (s : ApprovalStore P) : Bool := s.held.isEmpty

def covering (env : Env) (s : ApprovalStore P) (cogId version sha256 : String) : Option String := do
  let mesh ← env.localMesh
  if s.poisoned.isSome then none
  else
    (s.entries.find? fun (_, h) => h.body.meshId = mesh ∧ h.body.cogId = cogId ∧ h.body.version = version ∧
      covers h.body sha256).map (·.1)

end ApprovalStore

def admitApproval (env : Env) (s : ApprovalStore P) (signed : SignedEnvelope P) : Except LicenceError Approval :=
  match s.poisoned with
  | some why => .error (.poisoned why)
  | none => do
    let mesh ← require env.localMesh .noLocalMesh
    verifyApproval o anchors signed mesh

/-- The approval is taken in first and the file written afterwards, whatever comes of the write. -/
def ApprovalStore.accept (env : Env) (s : ApprovalStore P) (signed : SignedEnvelope P) :
    Except LicenceError Outcome × ApprovalStore P :=
  match admitApproval o anchors env s signed with
  | .error e => (.error e, s)
  | .ok a =>
    if (s.held.lookup (contentKey o a)).isSome then (.ok .duplicate, s)
    else if MAX_APPROVALS ≤ s.held.length then (.error .full, s)
    else
      let s := { s with held := Table.insert s.held (contentKey o a) ⟨signed, a⟩ }
      match env.write with
      | some e => (.error e, s)
      | none => (.ok .applied, { s with disk := .file s.fileOf })

def loadApprovals : List (SignedEnvelope P) → List (String × Held P Approval) →
    Except LicenceError (List (String × Held P Approval))
  | [], held => .ok held
  | signed :: rest, held => do
    let a ← verifyApprovalSignature o anchors signed
    loadApprovals rest (Table.insert held (contentKey o a) ⟨signed, a⟩)

def loadStore (disk : Disk (ApprovalsFile P)) : Except LicenceError (List (String × Held P Approval)) :=
  match disk with
  | .missing => .ok []
  | .unreadable why => .error why
  | .file file => do
    ensure (file.v = 1 ∧ file.approvals.length ≤ MAX_APPROVALS) (.malformed "approvals version or size")
    loadApprovals o anchors file.approvals []

/-- A bad file gives a store with no active approvals that refuses writes. -/
def openApprovals (disk : Disk (ApprovalsFile P)) : ApprovalStore P :=
  match loadStore o anchors disk with
  | .ok held => { held := held, disk := disk }
  | .error e => { poisoned := some e.message, disk := disk }

inductive AcceptStep (env : Env) (s : ApprovalStore P) : Except LicenceError Outcome → ApprovalStore P → Prop
  | idle (untaken : result ≠ .ok .applied) : AcceptStep env s result s
  | unsaved (held : List (String × Held P Approval)) (write : env.write = some e) :
    AcceptStep env s (.error e) { s with held := held }
  | saved (next : ApprovalStore P) (write : env.write = none) :
    AcceptStep env s (.ok .applied) { next with disk := .file next.fileOf }

theorem accept_step (env : Env) (s : ApprovalStore P) (signed : SignedEnvelope P) : ∃ result s',
    s.accept o anchors env signed = (result, s') ∧ AcceptStep env s result s' := by
  unfold ApprovalStore.accept
  split
  · exact ⟨_, _, rfl, .idle nofun⟩
  split
  · exact ⟨_, _, rfl, .idle nofun⟩
  split
  · exact ⟨_, _, rfl, .idle nofun⟩
  · cases write : env.write with
    | none => exact ⟨_, _, rfl, .saved _ write⟩
    | some e => exact ⟨_, _, rfl, .unsaved _ write⟩

omit [DecidableEq P] in
theorem covering_some {env : Env} {s : ApprovalStore P} {cogId version sha256 id : String}
    (found : s.covering env cogId version sha256 = some id) : ∃ mesh h, env.localMesh = some mesh ∧
      (id, h) ∈ s.held ∧ h.body.meshId = mesh ∧ h.body.cogId = cogId ∧ h.body.version = version ∧
      sha256 ∈ h.body.sha256 := by
  unfold ApprovalStore.covering at found
  cases read : env.localMesh with
  | none =>
    rw [read] at found
    cases found
  | some mesh =>
    simp only [read, Option.bind_eq_bind, Option.bind_some] at found
    split at found
    · cases found
    · obtain ⟨entry, located, rfl⟩ := Option.map_eq_some_iff.mp found
      have listed := ApprovalStore.mem_entries.mp (List.mem_of_find?_eq_some located)
      have fits := List.find?_some located
      simp only [decide_eq_true_eq, covers, List.any_eq_true] at fits
      obtain ⟨mesh_eq, cog, version, h, here, rfl⟩ := fits
      exact ⟨mesh, entry.2, rfl, listed, mesh_eq, cog, version, here⟩

end

end Weftos.Licence.Approvals
