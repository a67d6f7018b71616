import Weftos.Lib.Table
import Weftos.Licence.Wire

/-! The grant store of a node, with the file it is saved to. A call is one critical section, so it is a
function of the store and of what it finds around it. -/

namespace Weftos.Licence.Store
open Lib Lib.Bytes Lib.Outcome Wire List

def HW_PERSIST_STEP : Nat := 60

/-! ### The clock floor of one grant key -/

structure FloorState where
  maxIssued : Nat := 0
  hw : Nat := 0

namespace FloorState

section
variable (f : FloorState)

def floor : Nat := max f.maxIssued f.hw

def effectiveNow (now : Nat) : Nat := max now f.floor

def observe (now : Nat) : FloorState :=
  if f.maxIssued = 0 then f
  else { f with hw := max f.hw (min now (saturatingAdd f.maxIssued FAR_FUTURE_CLAMP_SECS)) }

def noteIssued (issuedAt : Nat) : FloorState := { f with maxIssued := max f.maxIssued issuedAt }

def reset (now : Nat) : FloorState := observe { f with hw := 0 } now

end

@[simp] theorem observe_maxIssued (f : FloorState) (now : Nat) : (f.observe now).maxIssued = f.maxIssued := by
  unfold observe
  split <;> rfl

@[simp] theorem reset_maxIssued (f : FloorState) (now : Nat) : (f.reset now).maxIssued = f.maxIssued :=
  observe_maxIssued _ now

theorem hw_le_observe (f : FloorState) (now : Nat) : f.hw ≤ (f.observe now).hw := by
  unfold observe
  split
  · exact le_rfl
  · exact le_max_left _ _

theorem le_observe_hw {f : FloorState} (issued : 0 < f.maxIssued) (now : Nat) :
    min now (saturatingAdd f.maxIssued FAR_FUTURE_CLAMP_SECS) ≤ (f.observe now).hw := by
  rw [observe, if_neg issued.ne']
  exact le_max_right _ _

end FloorState

/-! ### What is held -/

structure Held (P α : Type) where
  signed : SignedEnvelope P
  body : α
  deriving DecidableEq

structure Slot (P : Type) where
  current : Option (Held P CheckoutGrant) := none
  previous : Option (Held P CheckoutGrant) := none
  conflicted : List Nat := []

inductive Outcome where
  | applied
  | appliedUnsaved
  | duplicate
  | ignored
  deriving DecidableEq

structure Inner (P : Type) where
  binding : Option (Held P BindingRecord) := none
  slots : List ((String × String) × Slot P) := []
  floors : List (String × FloorState) := []
  persistedHw : Nat := 0
  dirty : Bool := false
  poisoned : Option String := none

structure SlotFile (P : Type) where
  cogId : String
  version : String
  current : Option (SignedEnvelope P)
  previous : Option (SignedEnvelope P)
  conflicted : List Nat

structure StoreFile (P : Type) where
  v : Nat
  binding : Option (SignedEnvelope P)
  grants : List (SlotFile P)
  floors : List (String × FloorState)

inductive Disk (F : Type) where
  | missing
  | unreadable (why : LicenceError)
  | file (content : F)
  deriving DecidableEq

structure CheckoutGrantStore (P : Type) where
  inner : Inner P := {}
  disk : Disk (StoreFile P) := .missing
  /-- The sticky "this node was bound" marker beside the store file. -/
  marker : Bool := false

/-- What one call finds around it: the clock, the mesh id as read first and as read again later in
the call, the revocation list, and how its writes end. -/
structure Env where
  now : Nat
  localMesh : Option String
  localAgain : Option String
  keyRevoked : String → Bool
  hashRevoked : String → Bool
  write : Option LicenceError
  writeAgain : Option LicenceError
  markerWrite : Bool

section
variable {P : Type} {inner : Inner P} {env : Env}

def keyLe (a b : String × String) : Prop := a.1 < b.1 ∨ a.1 = b.1 ∧ a.2 ≤ b.2

instance : DecidableRel keyLe := fun a b => inferInstanceAs (Decidable (a.1 < b.1 ∨ a.1 = b.1 ∧ a.2 ≤ b.2))

namespace Inner

def entries (inner : Inner P) : List ((String × String) × Slot P) :=
  inner.slots.insertionSort fun a b => keyLe a.1 b.1

theorem mem_entries : entry ∈ inner.entries ↔ entry ∈ inner.slots := (perm_insertionSort _ _).mem_iff

section
variable (inner : Inner P)

def slotAt (key : String × String) : Slot P := (inner.slots.lookup key).getD {}

def floorAt (key : String) : FloorState := (inner.floors.lookup key).getD {}

def put (key : String × String) (slot : Slot P) : Inner P :=
  { inner with slots := Table.insert inner.slots key slot }

def setFloor (key : String) (f : FloorState) : Inner P :=
  { inner with floors := Table.insert inner.floors key f }

/-- `eff_now` records the clock in memory before it answers. -/
def observe (now : Nat) (key : String) : Inner P :=
  inner.setFloor key ((inner.floorAt key).observe now)

def effNow (now : Nat) (key : String) : Nat :=
  ((inner.observe now key).floorAt key).effectiveNow now

def noteIssued (key : String) (issuedAt : Nat) : Inner P :=
  inner.setFloor key ((inner.floorAt key).noteIssued issuedAt)

end

@[simp] theorem floorAt_setFloor (inner : Inner P) (key : String) (f : FloorState) :
    (inner.setFloor key f).floorAt key = f := by
  simp [floorAt, setFloor]

theorem floorAt_setFloor_of_ne (inner : Inner P) (f : FloorState) (differ : other ≠ key) :
    (inner.setFloor key f).floorAt other = inner.floorAt other := by
  rw [floorAt, setFloor, Table.lookup_insert_other inner.floors f differ]
  rfl

@[simp] theorem slotAt_put (inner : Inner P) (key : String × String) (slot : Slot P) :
    (inner.put key slot).slotAt key = slot := by
  simp [slotAt, put]

theorem slotAt_put_of_ne (inner : Inner P) (slot : Slot P) (differ : other ≠ key) :
    (inner.put key slot).slotAt other = inner.slotAt other := by
  rw [slotAt, put, Table.lookup_insert_other inner.slots slot differ]
  rfl

/-- The new binding in force: under another grant key the grants are void, and only the floor of the
bound key is kept. -/
def rebind (inner : Inner P) (held : Held P BindingRecord) : Inner P :=
  { inner with
    binding := some held
    slots := match inner.binding with
      | some cur => if cur.body.grantPubkey ≠ held.body.grantPubkey then [] else inner.slots
      | none => inner.slots
    floors := inner.floors.filter (·.1 = held.body.grantPubkey) }

def fileOf (inner : Inner P) : StoreFile P where
  v := 1
  binding := inner.binding.map (·.signed)
  grants := inner.entries.map fun entry =>
    { cogId := entry.1.1
      version := entry.1.2
      current := entry.2.current.map (·.signed)
      previous := entry.2.previous.map (·.signed)
      conflicted := entry.2.conflicted }
  floors := inner.floors

def savedHw (floors : List (String × FloorState)) : Nat := (floors.map (·.2.hw)).foldr max 0

def saved (inner : Inner P) : Inner P := { inner with persistedHw := savedHw inner.floors, dirty := false }

end Inner

namespace CheckoutGrantStore

variable (write : Option LicenceError) (s : CheckoutGrantStore P)

def save : Except LicenceError Unit × CheckoutGrantStore P :=
  match write with
  | some e => (.error e, s)
  | none => (.ok (), { s with inner := s.inner.saved, disk := .file s.inner.fileOf })

def commit (next : Inner P) :
    Except LicenceError Unit × CheckoutGrantStore P :=
  match save write { s with inner := next } with
  | (.ok (), s') => (.ok (), s')
  | (.error e, _) => (.error e, s)

def commitRestrictive (next : Inner P) :
    Outcome × CheckoutGrantStore P :=
  match save write { s with inner := next } with
  | (.ok (), s') => (.applied, s')
  | (.error _, _) => (.appliedUnsaved, { s with inner := { next with dirty := true } })

end CheckoutGrantStore

/-! ### The binding -/

def bindingInEffect (env : Env) (inner : Inner P) : Except LicenceError BindingRecord :=
  match inner.poisoned with
  | some why => .error (.poisoned why)
  | none => do
    let mesh ← require env.localMesh .noLocalMesh
    let held ← require inner.binding .noBinding
    ensure (held.body.meshId = mesh) .orphaned
    ensure (held.body.state = .bound) .unbound
    pure held.body

theorem bindingInEffect_ok
    (inEffect : bindingInEffect env inner = .ok b) : inner.poisoned = none ∧ env.localMesh = some b.meshId ∧
      (∃ held, inner.binding = some held ∧ held.body = b) ∧ b.state = .bound := by
  unfold bindingInEffect at inEffect
  split at inEffect
  · cases inEffect
  next clean =>
    simp only [bind_ok_iff, require_ok_iff, ensure_ok_iff, pure_ok_iff] at inEffect
    obtain ⟨mesh, read, held, bound, _, here, _, inForce, rfl⟩ := inEffect
    exact ⟨clean, here ▸ read, ⟨held, bound, rfl⟩, inForce⟩

structure AdmissionPosture where
  enforce : Bool
  verdictSourceBound : Bool
  openMembership : Bool

def AdmissionPosture.check (posture : AdmissionPosture) : Except LicenceError Unit :=
  if posture.openMembership then .error (.bindingRefused "open_membership")
  else if !posture.enforce then .error (.bindingRefused "admission_not_enforce")
  else if !posture.verdictSourceBound then .error (.bindingRefused "no_verdict_source")
  else .ok ()

variable [DecidableEq P] (o : Outside P) (anchors : TrustAnchors) {extra : BindingRecord → Except LicenceError Unit}

def admitBinding (env : Env) (inner : Inner P) (signed : SignedEnvelope P) (posture : AdmissionPosture)
    (extra : BindingRecord → Except LicenceError Unit) : Except LicenceError BindingRecord :=
  match inner.poisoned with
  | some why => .error (.poisoned why)
  | none => do
    posture.check
    let mesh ← require env.localMesh .noLocalMesh
    let record ← verifyBindingMember o anchors signed mesh
    extra record
    pure record

namespace CheckoutGrantStore

def noteBound (env : Env) (s : CheckoutGrantStore P) : CheckoutGrantStore P :=
  { s with marker := s.marker || env.markerWrite }

def placeBinding (env : Env) (s : CheckoutGrantStore P) (held : Held P BindingRecord) :
    Except LicenceError Outcome × CheckoutGrantStore P :=
  if held.body.state = .unbound then
    let (outcome, s') := s.commitRestrictive env.write (s.inner.rebind held)
    (.ok outcome, s')
  else
    match s.commit env.write (s.inner.rebind held) with
    | (.ok (), s') => (.ok .applied, s'.noteBound env)
    | (.error e, s') => (.error e, s')

def acceptBinding (env : Env) (s : CheckoutGrantStore P) (signed : SignedEnvelope P) (posture : AdmissionPosture)
    (extra : BindingRecord → Except LicenceError Unit) : Except LicenceError Outcome × CheckoutGrantStore P :=
  match admitBinding o anchors env s.inner signed posture extra with
  | .error e => (.error e, s)
  | .ok record =>
    match s.inner.binding with
    | none => s.placeBinding env ⟨signed, record⟩
    | some cur =>
      if record.seq < cur.body.seq then (.ok .ignored, s)
      else if record.seq = cur.body.seq then
        if cur.signed.payload = signed.payload then (.ok .duplicate, s) else (.error (.conflict record.seq), s)
      else s.placeBinding env ⟨signed, record⟩

end CheckoutGrantStore

/-! ### Grants -/

def carries (new : CheckoutGrant) : List GrantArtifact → Except LicenceError Unit
  | [] => .ok ()
  | a :: rest =>
    match new.artifact a.arch with
    | none => .error (.dropsArch a.arch)
    | some n => if n ≠ a then .error (.changesArtifact a.arch) else carries new rest

/-- A newer grant carries every arch of the held one, unchanged. -/
def checkUnion (cur new : CheckoutGrant) : Except LicenceError Unit := carries new cur.artifacts

theorem carries_ok (all : ∀ a ∈ artifacts, new.artifact a.arch = some a) : carries new artifacts = .ok () := by
  induction artifacts with
  | nil => rfl
  | cons a rest ih =>
    unfold carries
    rw [all a mem_cons_self]
    dsimp only
    rw [if_neg (by simp)]
    exact ih fun b listed => all b (mem_cons_of_mem a listed)

inductive Ruling (P : Type) where
  | refused (e : LicenceError)
  | kept (outcome : Outcome)
  | conflict (slot : Slot P)
  | placed (slot : Slot P)

namespace Slot

section
variable (slot : Slot P) (held : Held P CheckoutGrant)

/-- Two payloads at one number: a withdrawal stays as the tombstone, otherwise the slot falls back to
the newest earlier grant. -/
def conflictAt (cur held : Held P CheckoutGrant) : Slot P :=
  match [cur, held].find? (·.body.isWithdrawal) with
  | some withdrawal =>
    { current := some withdrawal, previous := none, conflicted := slot.conflicted ++ [held.body.seq] }
  | none => { current := slot.previous, previous := none, conflicted := slot.conflicted ++ [held.body.seq] }

def place : Slot P :=
  { slot with previous := slot.current, current := some held }

def accept : Ruling P :=
  if held.body.seq ∈ slot.conflicted then .refused (.conflict held.body.seq)
  else
    match slot.current with
    | none => .placed (slot.place held)
    | some cur =>
      if held.body.seq < cur.body.seq then .kept .ignored
      else if held.body.seq = cur.body.seq then
        if cur.signed.payload = held.signed.payload then .kept .duplicate else .conflict (slot.conflictAt cur held)
      else
        match checkUnion cur.body held.body with
        | .error e => .refused e
        | .ok () => .placed (slot.place held)

def Holds : Prop := slot.current = some held ∨ slot.previous = some held

end

variable {held other : Held P CheckoutGrant} {slot slot' : Slot P}

theorem accept_placed (ruling : slot.accept held = .placed slot') :
    slot' = slot.place held ∧ held.body.seq ∉ slot.conflicted ∧
      ∀ cur, slot.current = some cur → cur.body.seq < held.body.seq ∧ checkUnion cur.body held.body = .ok () := by
  unfold accept at ruling
  split at ruling
  · cases ruling
  next fresh =>
    split at ruling
    next none =>
      cases ruling
      refine ⟨rfl, fresh, ?_⟩
      intro cur here
      rw [none] at here
      cases here
    next cur here =>
      split at ruling
      · cases ruling
      split at ruling
      · split at ruling <;> cases ruling
      split at ruling
      · cases ruling
      next below same _ union =>
        cases ruling
        refine ⟨rfl, fresh, ?_⟩
        intro other there
        obtain rfl : cur = other := Option.some.inj (here.symm.trans there)
        exact ⟨by omega, union⟩

theorem accept_conflict
    (ruling : slot.accept held = .conflict slot') : ∃ cur, slot.current = some cur ∧ held.body.seq = cur.body.seq ∧
      cur.signed.payload ≠ held.signed.payload ∧ held.body.seq ∉ slot.conflicted ∧
        slot' = slot.conflictAt cur held := by
  unfold accept at ruling
  split at ruling
  · cases ruling
  next fresh =>
    split at ruling
    · cases ruling
    next cur here =>
      split at ruling
      · cases ruling
      split at ruling
      next same =>
        split at ruling
        · cases ruling
        next apart =>
          cases ruling
          exact ⟨cur, here, same, apart, fresh, rfl⟩
      split at ruling <;> cases ruling

theorem accept_kept (ruling : slot.accept held = .kept outcome) : (outcome = .ignored ∨ outcome = .duplicate) ∧
      ∃ cur, slot.current = some cur ∧ held.body.seq ≤ cur.body.seq ∧
        (held.body.seq = cur.body.seq → cur.signed.payload = held.signed.payload) := by
  unfold accept at ruling
  split at ruling
  · cases ruling
  split at ruling
  · cases ruling
  next cur here =>
    split at ruling
    next below =>
      cases ruling
      refine ⟨.inl rfl, cur, here, by omega, ?_⟩
      intro same
      omega
    split at ruling
    next same =>
      split at ruling
      next equal =>
        cases ruling
        exact ⟨.inr rfl, cur, here, by omega, fun _ => equal⟩
      · cases ruling
    split at ruling <;> cases ruling

omit [DecidableEq P] in
/-- After a conflict the slot holds what it held, or the delivered grant where that is a withdrawal. -/
theorem conflictAt_holds (current : slot.current = some cur) (holds : (slot.conflictAt cur held).Holds other) :
    other = held ∧ held.body.isWithdrawal = true ∨ slot.Holds other := by
  unfold conflictAt at holds
  split at holds
  next withdrawal found =>
    obtain here | here := holds
    · have listed := mem_of_find?_eq_some found
      have restricts := find?_some found
      rw [Option.some.inj here] at listed restricts
      simp only [mem_cons, not_mem_nil, or_false] at listed
      obtain rfl | rfl := listed
      · exact .inr (.inl current)
      · exact .inl ⟨rfl, restricts⟩
    · cases here
  · obtain here | here := holds
    · exact .inr (.inr here)
    · cases here

theorem placed_holds
    (ruling : slot.accept held = .placed slot') (holds : slot'.Holds other) : other = held ∨ slot.Holds other := by
  obtain ⟨rfl, -, -⟩ := accept_placed ruling
  obtain here | here := holds
  · exact .inl (Option.some.inj here).symm
  · exact .inr (.inl here)

theorem conflict_holds (ruling : slot.accept held = .conflict slot') (holds : slot'.Holds other) :
    other = held ∧ held.body.isWithdrawal = true ∨ slot.Holds other := by
  obtain ⟨cur, current, -, -, -, rfl⟩ := accept_conflict ruling
  exact conflictAt_holds current holds

end Slot

def admitGrant (env : Env) (inner : Inner P) (signed : SignedEnvelope P) :
    Except LicenceError (BindingRecord × CheckoutGrant) := do
  let b ← bindingInEffect env inner
  let key ← require (hexDecodeExact 32 b.grantPubkey) (.malformed "bound grant key")
  ensure (env.keyRevoked b.grantPubkey = false) .keyRevoked
  let mesh ← require env.localAgain .noLocalMesh
  let g ← verifyGrant o signed key mesh
  pure (b, g)

namespace CheckoutGrantStore

def observe (s : CheckoutGrantStore P) (now : Nat) (key : String) : CheckoutGrantStore P :=
  { s with inner := s.inner.observe now key }

def acceptGrant (env : Env) (s : CheckoutGrantStore P) (signed : SignedEnvelope P) :
    Except LicenceError Outcome × CheckoutGrantStore P :=
  match admitGrant o env s.inner signed with
  | .error e => (.error e, s)
  | .ok (b, g) =>
    let seen := s.observe env.now b.grantPubkey
    if saturatingAdd (s.inner.effNow env.now b.grantPubkey) GRANT_SKEW_SECS <
      g.issuedAt then (.error .notYetValid, seen)
    else if seen.inner.slots.lookup g.key = none ∧ MAX_GRANT_SLOTS ≤ seen.inner.slots.length then (.error .full, seen)
    else
      match (seen.inner.slotAt g.key).accept ⟨signed, g⟩ with
      | .refused e => (.error e, seen)
      | .kept outcome => (.ok outcome, seen)
      | .conflict slot =>
        (.error (.conflict g.seq), (seen.commitRestrictive env.write (seen.inner.put g.key slot)).2)
      | .placed slot =>
        let next := (seen.inner.put g.key slot).noteIssued b.grantPubkey g.issuedAt
        if g.isWithdrawal then
          let (outcome, s') := seen.commitRestrictive env.write next
          (.ok outcome, s')
        else
          match seen.commit env.write next with
          | (.ok (), s') => (.ok .applied, s')
          | (.error e, s') => (.error e, s')

end CheckoutGrantStore

theorem admitGrant_ok (verified : admitGrant o env inner signed = .ok (b, g)) : bindingInEffect env inner = .ok b ∧
      env.keyRevoked b.grantPubkey = false ∧ env.localAgain = some g.meshId ∧
      ∃ key, hexDecodeExact 32 b.grantPubkey = some key ∧ verifyGrantSignature o signed key = .ok g := by
  simp only [admitGrant, bind_ok_iff, require_ok_iff, ensure_ok_iff, pure_ok_iff] at verified
  obtain ⟨_, inEffect, key, decoded, _, unrevoked, mesh, read, _, signature, pair⟩ := verified
  cases pair
  obtain ⟨trusted, here⟩ := verifyGrant_ok o signature
  exact ⟨inEffect, unrevoked, here ▸ read, key, decoded, trusted⟩

theorem admitBinding_ok (verified : admitBinding o anchors env inner signed posture extra = .ok record) :
    inner.poisoned = none ∧ verifyBindingSignature o anchors signed = .ok record ∧
      env.localMesh = some record.meshId := by
  unfold admitBinding at verified
  split at verified
  · cases verified
  next clean =>
    simp only [verifyBindingMember, bind_ok_iff, require_ok_iff, ensure_ok_iff, pure_ok_iff] at verified
    obtain ⟨_, -, mesh, read, _, ⟨_, signature, _, rfl, rfl⟩, _, -, rfl⟩ := verified
    exact ⟨clean, signature, read⟩

/-! ### What a delivery can do -/

section
open CheckoutGrantStore
variable (env : Env) (s : CheckoutGrantStore P) (signed : SignedEnvelope P)

def placedGrant (b : BindingRecord) (g : CheckoutGrant) (slot : Slot P) : Inner P :=
  ((s.inner.observe env.now b.grantPubkey).put g.key slot).noteIssued b.grantPubkey g.issuedAt

inductive GrantStep : Except LicenceError Outcome → CheckoutGrantStore P → Prop
  | unverified (failed : admitGrant o env s.inner signed = .error e) : GrantStep (.error e) s
  | early (verified : admitGrant o env s.inner signed = .ok (b, g))
      (ahead : saturatingAdd (s.inner.effNow env.now b.grantPubkey) GRANT_SKEW_SECS < g.issuedAt) :
      GrantStep (.error .notYetValid) (s.observe env.now b.grantPubkey)
  | full (verified : admitGrant o env s.inner signed = .ok (b, g))
      (unknown : s.inner.slots.lookup g.key = none) (many : MAX_GRANT_SLOTS ≤ s.inner.slots.length) :
      GrantStep (.error .full) (s.observe env.now b.grantPubkey)
  | refused (verified : admitGrant o env s.inner signed = .ok (b, g))
      (ruling : (s.inner.slotAt g.key).accept ⟨signed, g⟩ = .refused e) :
      GrantStep (.error e) (s.observe env.now b.grantPubkey)
  | kept (verified : admitGrant o env s.inner signed = .ok (b, g))
      (ruling : (s.inner.slotAt g.key).accept ⟨signed, g⟩ = .kept outcome) :
      GrantStep (.ok outcome) (s.observe env.now b.grantPubkey)
  | conflict (verified : admitGrant o env s.inner signed = .ok (b, g))
      (ruling : (s.inner.slotAt g.key).accept ⟨signed, g⟩ = .conflict slot) :
      GrantStep (.error (.conflict g.seq)) ((s.observe env.now b.grantPubkey).commitRestrictive env.write
        ((s.inner.observe env.now b.grantPubkey).put g.key slot)).2
  | withdrawn (verified : admitGrant o env s.inner signed = .ok (b, g))
      (ruling : (s.inner.slotAt g.key).accept ⟨signed, g⟩ = .placed slot) (restricts : g.isWithdrawal = true) :
      GrantStep (.ok ((s.observe env.now b.grantPubkey).commitRestrictive env.write (placedGrant env s b g slot)).1)
        ((s.observe env.now b.grantPubkey).commitRestrictive env.write (placedGrant env s b g slot)).2
  | granted (verified : admitGrant o env s.inner signed = .ok (b, g))
      (ruling : (s.inner.slotAt g.key).accept ⟨signed, g⟩ = .placed slot) (permits : g.isWithdrawal = false)
      (written : env.write = none) :
      GrantStep (.ok .applied) { s with
        inner := (placedGrant env s b g slot).saved
        disk := .file (placedGrant env s b g slot).fileOf }
  | unsaved (verified : admitGrant o env s.inner signed = .ok (b, g))
      (ruling : (s.inner.slotAt g.key).accept ⟨signed, g⟩ = .placed slot) (permits : g.isWithdrawal = false)
      (lost : env.write = some e) : GrantStep (.error e) (s.observe env.now b.grantPubkey)

theorem acceptGrant_step :
    ∃ result s', s.acceptGrant o env signed = (result, s') ∧ GrantStep o env s signed result s' := by
  refine ⟨_, _, rfl, ?_⟩
  split
  next e failed => exact .unverified failed
  next b g verified =>
    dsimp only
    split
    next ahead => exact .early verified ahead
    split
    next crowded => exact .full verified crowded.1 crowded.2
    -- the clock's record does not touch the slots, so the ruling is one on the slot as it was
    split
    next e ruling => exact .refused verified ruling
    next outcome ruling => exact .kept verified ruling
    next slot ruling => exact .conflict verified ruling
    next slot ruling =>
      split
      next restricts => exact .withdrawn verified ruling restricts
      next permits =>
        have permits : g.isWithdrawal = false := by simpa using permits
        cases ended : env.write with
        | none => exact .granted verified ruling permits ended
        | some e => exact .unsaved verified ruling permits ended

/-- A verified grant that is not ahead of the clock and finds room is ruled on by its slot. -/
structure Admitted (b : BindingRecord) (g : CheckoutGrant) : Prop where
  verified : admitGrant o env s.inner signed = .ok (b, g)
  timely : g.issuedAt ≤ saturatingAdd (s.inner.effNow env.now b.grantPubkey) GRANT_SKEW_SECS
  room : s.inner.slots.lookup g.key ≠ none ∨ s.inner.slots.length < MAX_GRANT_SLOTS

variable {o env s signed} in
theorem Admitted.acceptGrant_eq (admitted : Admitted o env s signed b g) : s.acceptGrant o env signed =
      match (s.inner.slotAt g.key).accept ⟨signed, g⟩ with
      | .refused e => (.error e, s.observe env.now b.grantPubkey)
      | .kept outcome => (.ok outcome, s.observe env.now b.grantPubkey)
      | .conflict slot => (.error (.conflict g.seq), ((s.observe env.now b.grantPubkey).commitRestrictive env.write
          ((s.inner.observe env.now b.grantPubkey).put g.key slot)).2)
      | .placed slot =>
        if g.isWithdrawal then
          (.ok ((s.observe env.now b.grantPubkey).commitRestrictive env.write (placedGrant env s b g slot)).1,
            ((s.observe env.now b.grantPubkey).commitRestrictive env.write (placedGrant env s b g slot)).2)
        else
          match env.write with
          | none => (.ok .applied, { s with
              inner := (placedGrant env s b g slot).saved, disk := .file (placedGrant env s b g slot).fileOf })
          | some e => (.error e, s.observe env.now b.grantPubkey) := by
  have early : ¬ saturatingAdd (s.inner.effNow env.now b.grantPubkey) GRANT_SKEW_SECS < g.issuedAt :=
    not_lt.mpr admitted.timely
  have crowded : ¬ ((s.observe env.now b.grantPubkey).inner.slots.lookup g.key = none ∧
      MAX_GRANT_SLOTS ≤ (s.observe env.now b.grantPubkey).inner.slots.length) := by
    rintro ⟨unknown, many⟩
    obtain known | few := admitted.room
    · exact known unknown
    · exact absurd few (not_lt.mpr many)
  unfold acceptGrant
  rw [admitted.verified]
  dsimp only
  rw [if_neg early, if_neg crowded]
  change (match (s.inner.slotAt g.key).accept ⟨signed, g⟩ with
    | .refused e => _ | .kept outcome => _ | .conflict slot => _ | .placed slot => _) = _
  split
  · rfl
  · rfl
  · rfl
  · split
    · rfl
    · cases env.write <;> rfl

theorem acceptGrant_slotAt (name : String × String) :
    (s.acceptGrant o env signed).2.inner.slotAt name = s.inner.slotAt name ∨
      ∃ b g slot, admitGrant o env s.inner signed = .ok (b, g) ∧ g.key = name ∧
        ((s.inner.slotAt name).accept ⟨signed, g⟩ = .placed slot ∨
          (s.inner.slotAt name).accept ⟨signed, g⟩ = .conflict slot) ∧
        (s.acceptGrant o env signed).2.inner.slotAt name = slot := by
  obtain ⟨result, s', call, step⟩ := acceptGrant_step o env s signed
  simp only [call]
  -- the three ways to fill a slot differ in the ruling and in what else they change
  have filled : ∀ {b g slot}, admitGrant o env s.inner signed = .ok (b, g) →
      ((s.inner.slotAt g.key).accept ⟨signed, g⟩ = .placed slot ∨
        (s.inner.slotAt g.key).accept ⟨signed, g⟩ = .conflict slot) →
      s'.inner.slotAt name = (s.inner.put g.key slot).slotAt name →
      s'.inner.slotAt name = s.inner.slotAt name ∨ ∃ b g slot, admitGrant o env s.inner signed = .ok (b, g) ∧
        g.key = name ∧ ((s.inner.slotAt name).accept ⟨signed, g⟩ = .placed slot ∨
          (s.inner.slotAt name).accept ⟨signed, g⟩ = .conflict slot) ∧ s'.inner.slotAt name = slot := by
    intro b g slot verified ruling placed
    by_cases own : name = g.key
    · subst own
      exact .inr ⟨b, g, slot, verified, rfl, ruling, placed.trans (Inner.slotAt_put _ _ _)⟩
    · exact .inl (placed.trans (Inner.slotAt_put_of_ne _ slot own))
  cases step with
  | unverified | early | full | refused | kept | unsaved => exact .inl rfl
  | conflict verified ruling =>
    apply filled verified (.inr ruling)
    cases env.write <;> rfl
  | withdrawn verified ruling =>
    apply filled verified (.inl ruling)
    cases env.write <;> rfl
  | granted verified ruling => exact filled verified (.inl ruling) rfl

theorem acceptGrant_binding : (s.acceptGrant o env signed).2.inner.binding = s.inner.binding := by
  obtain ⟨result, s', call, step⟩ := acceptGrant_step o env s signed
  simp only [call]
  cases step with
  | unverified | early | full | refused | kept | unsaved | granted => rfl
  | conflict | withdrawn => cases env.write <;> rfl

inductive BindStep (posture : AdmissionPosture) (extra : BindingRecord → Except LicenceError Unit) :
    Except LicenceError Outcome → CheckoutGrantStore P → Prop
  | idle (result : Except LicenceError Outcome) (unplaced : result ≠ .ok .applied ∧ result ≠ .ok .appliedUnsaved) :
      BindStep posture extra result s
  | lost (verified : admitBinding o anchors env s.inner signed posture extra = .ok record)
      (binds : record.state = .bound) (lost : env.write = some e) : BindStep posture extra (.error e) s
  | unbound (verified : admitBinding o anchors env s.inner signed posture extra = .ok record)
      (newer : ∀ cur, s.inner.binding = some cur → cur.body.seq < record.seq) (unbinds : record.state = .unbound) :
      BindStep posture extra (.ok (s.commitRestrictive env.write (s.inner.rebind ⟨signed, record⟩)).1)
        (s.commitRestrictive env.write (s.inner.rebind ⟨signed, record⟩)).2
  | bound (verified : admitBinding o anchors env s.inner signed posture extra = .ok record)
      (newer : ∀ cur, s.inner.binding = some cur → cur.body.seq < record.seq) (binds : record.state = .bound)
      (written : env.write = none) :
      BindStep posture extra (.ok .applied) (noteBound env { s with
        inner := (s.inner.rebind ⟨signed, record⟩).saved
        disk := .file (s.inner.rebind ⟨signed, record⟩).fileOf })

omit [DecidableEq P] in
theorem placeBinding_eq (held : Held P BindingRecord) : s.placeBinding env held =
    if held.body.state = .unbound then
      (.ok (s.commitRestrictive env.write (s.inner.rebind held)).1,
        (s.commitRestrictive env.write (s.inner.rebind held)).2)
    else
      match env.write with
      | none => (.ok .applied, noteBound env { s with
          inner := (s.inner.rebind held).saved, disk := .file (s.inner.rebind held).fileOf })
      | some e => (.error e, s) := by
  unfold placeBinding
  split
  · rfl
  · cases env.write <;> rfl

theorem placeBinding_step (verified : admitBinding o anchors env s.inner signed posture extra = .ok record)
    (newer : ∀ cur, s.inner.binding = some cur → cur.body.seq < record.seq) :
    BindStep o anchors env s signed posture extra (s.placeBinding env ⟨signed, record⟩).1
      (s.placeBinding env ⟨signed, record⟩).2 := by
  rw [placeBinding_eq]
  cases state : record.state with
  | unbound => exact .unbound verified newer state
  | bound =>
    cases ended : env.write with
    | none => exact .bound verified newer state ended
    | some e => exact .lost verified state ended

theorem acceptBinding_step (posture : AdmissionPosture) (extra : BindingRecord → Except LicenceError Unit) :
    ∃ result s', s.acceptBinding o anchors env signed posture extra = (result, s') ∧
      BindStep o anchors env s signed posture extra result s' := by
  refine ⟨_, _, rfl, ?_⟩
  split
  next e failed => exact .idle _ (by simp)
  next record verified =>
    split
    next none =>
      apply placeBinding_step o anchors env s signed verified
      intro cur bound
      rw [none] at bound
      cases bound
    next cur held =>
      split
      · exact .idle _ (by simp)
      split
      · split <;> exact .idle _ (by simp)
      next below same =>
        apply placeBinding_step o anchors env s signed verified
        intro other bound
        obtain rfl : cur = other := Option.some.inj (held.symm.trans bound)
        omega

end

/-! ### Queries -/

def grantValid (g : CheckoutGrant) (effNow : Nat) : Bool :=
  !g.isWithdrawal && effNow < g.expiresAt && effNow < g.licence.expires &&
    g.issuedAt ≤ saturatingAdd effNow GRANT_SKEW_SECS

structure VerifiedCheckoutGrant where
  grant : CheckoutGrant
  grantPubkeyHex : String
  deriving DecidableEq

structure GrantRow where
  cogId : String
  version : String
  seq : Nat
  grantId : String
  issuedAt : Nat
  expiresAt : Nat
  licenceExpires : Nat
  withdrawn : Bool
  valid : Bool
  artifacts : List GrantArtifact
  deriving DecidableEq

namespace CheckoutGrantStore

omit [DecidableEq P]

/-- Every currently valid grant: a binding in effect, its key not revoked, unexpired by the floor. -/
def verifiedGrants (env : Env) (s : CheckoutGrantStore P) : List VerifiedCheckoutGrant × CheckoutGrantStore P :=
  match bindingInEffect env s.inner with
  | .error _ => ([], s)
  | .ok b =>
    if env.keyRevoked b.grantPubkey then ([], s)
    else
      let held := s.inner.entries.filterMap (·.2.current)
      let valid := held.filter fun h => h.body.meshId = b.meshId ∧
        grantValid h.body (s.inner.effNow env.now b.grantPubkey)
      (valid.map fun h => ⟨h.body, b.grantPubkey⟩, s.observe env.now b.grantPubkey)

def withValid {β : Type} (env : Env) (s : CheckoutGrantStore P) (f : CheckoutGrant → String → Option β) :
    Option β × CheckoutGrantStore P :=
  let (valid, s') := s.verifiedGrants env
  (valid.findSome? fun v => f v.grant v.grantPubkeyHex, s')

def validGrantForArtifact (env : Env) (s : CheckoutGrantStore P) (cogId version sha256 blake3 : String) :
    Option (CheckoutGrant × GrantArtifact) × CheckoutGrantStore P :=
  s.withValid env fun g _ =>
    if g.cogId ≠ cogId ∨ g.version ≠ version then none
    else (g.artifacts.find? fun a => a.sha256 = sha256 ∧ a.blake3 = blake3).map fun a => (g, a)

theorem mem_verifiedGrants {s : CheckoutGrantStore P}
    (listed : v ∈ (s.verifiedGrants env).1) : ∃ b entry held, bindingInEffect env s.inner = .ok b ∧
      env.keyRevoked b.grantPubkey = false ∧ entry ∈ s.inner.entries ∧ entry.2.current = some held ∧
      held.body = v.grant ∧ v.grant.meshId = b.meshId ∧
      grantValid v.grant (s.inner.effNow env.now b.grantPubkey) = true := by
  unfold verifiedGrants at listed
  split at listed
  · cases listed
  next b inEffect =>
    split at listed
    · cases listed
    next unrevoked =>
      obtain ⟨held, kept, rfl⟩ := mem_map.mp listed
      obtain ⟨here, fits⟩ := mem_filter.mp kept
      obtain ⟨entry, filed, current⟩ := mem_filterMap.mp here
      have fits := of_decide_eq_true fits
      exact ⟨b, entry, held, inEffect, by simpa using unrevoked, filed, current, rfl, fits.1, fits.2⟩

def heldGrant (s : CheckoutGrantStore P) (cogId version : String) : Option (Nat × SignedEnvelope P) :=
  (s.inner.slotAt (cogId, version)).current.map fun h => (h.body.seq, h.signed)

def heldBinding (s : CheckoutGrantStore P) : Option BindingRecord := s.inner.binding.map (·.body)

def grantRow (g : CheckoutGrant) (valid : Bool) : GrantRow where
  cogId := g.cogId
  version := g.version
  seq := g.seq
  grantId := g.grantId
  issuedAt := g.issuedAt
  expiresAt := g.expiresAt
  licenceExpires := g.licence.expires
  withdrawn := g.isWithdrawal
  valid := valid
  artifacts := g.artifacts

def grantRows (env : Env) (s : CheckoutGrantStore P) : List GrantRow × CheckoutGrantStore P :=
  let held := s.inner.entries.filterMap (·.2.current)
  match bindingInEffect env s.inner with
  | .error _ => (held.map fun h => grantRow h.body false, s)
  | .ok b =>
    let eff := s.inner.effNow env.now b.grantPubkey
    let revoked := env.keyRevoked b.grantPubkey
    (held.map fun h => grantRow h.body (!revoked && h.body.meshId = b.meshId && grantValid h.body eff),
      s.observe env.now b.grantPubkey)

theorem mem_grantRows {s : CheckoutGrantStore P} (listed : row ∈ (s.grantRows env).1)
    (valid : row.valid = true) : ∃ b entry held, bindingInEffect env s.inner = .ok b ∧
      env.keyRevoked b.grantPubkey = false ∧ entry ∈ s.inner.entries ∧ entry.2.current = some held ∧
      row = grantRow held.body true ∧ held.body.meshId = b.meshId ∧
      grantValid held.body (s.inner.effNow env.now b.grantPubkey) = true := by
  unfold grantRows at listed
  dsimp only at listed
  split at listed
  · obtain ⟨held, _, rfl⟩ := mem_map.mp listed
    cases valid
  next b inEffect =>
    obtain ⟨held, here, rfl⟩ := mem_map.mp listed
    obtain ⟨entry, filed, current⟩ := mem_filterMap.mp here
    have fits := valid
    simp only [grantRow, Bool.and_eq_true, Bool.not_eq_true', decide_eq_true_eq] at fits
    refine ⟨b, entry, held, inEffect, fits.1.1, filed, current, ?_, fits.1.2, fits.2⟩
    rw [fits.1.1, fits.2, decide_eq_true fits.1.2]
    rfl

variable (env : Env) (s : CheckoutGrantStore P)

def floor : Option Nat × CheckoutGrantStore P :=
  match bindingInEffect env s.inner with
  | .error _ => (none, s)
  | .ok b =>
    let s' := s.observe env.now b.grantPubkey
    (some (s'.inner.floorAt b.grantPubkey).floor, s')

def effectiveNow : Option Nat × CheckoutGrantStore P :=
  match bindingInEffect env s.inner with
  | .error _ => (none, s)
  | .ok b => (some (s.inner.effNow env.now b.grantPubkey), s.observe env.now b.grantPubkey)

def resetFloor : Except LicenceError Unit × CheckoutGrantStore P :=
  match bindingInEffect env s.inner with
  | .error e => (.error e, s)
  | .ok b => s.commit env.write (s.inner.setFloor b.grantPubkey ((s.inner.floorAt b.grantPubkey).reset env.now))

/-- Retries the save of a restrictive record, whether or not a binding is in effect. -/
def retrySave : CheckoutGrantStore P :=
  if s.inner.dirty ∧ s.inner.poisoned = none then (s.save env.write).2 else s

/-- Records the clock and saves the mark once it has moved far enough. -/
def markClock : CheckoutGrantStore P :=
  match bindingInEffect env s.inner with
  | .error _ => s
  | .ok b =>
    let s := s.observe env.now b.grantPubkey
    if saturatingAdd s.inner.persistedHw HW_PERSIST_STEP ≤ (s.inner.floorAt b.grantPubkey).hw then
      (s.save env.writeAgain).2
    else s

def tick : CheckoutGrantStore P := (s.retrySave env).markClock env

/-- Once a binding was accepted; a held one also writes the marker. -/
def wasEverBound : Bool × CheckoutGrantStore P :=
  if s.marker then (true, s)
  else if s.heldBinding.isSome then (true, s.noteBound env)
  else (false, s)

end CheckoutGrantStore

/-! ### Opening -/

def loadHeld (key : Octets) : Option (SignedEnvelope P) → Except LicenceError (Option (Held P CheckoutGrant))
  | none => .ok none
  | some signed => do
    let body ← verifyGrantSignature o signed key
    pure (some ⟨signed, body⟩)

def slotKeyed (file : SlotFile P) (held : Option (Held P CheckoutGrant)) : Bool :=
  held.all fun h => h.body.cogId = file.cogId && h.body.version = file.version

def loadSlot (key : Octets) (file : SlotFile P) : Except LicenceError ((String × String) × Slot P) := do
  let current ← loadHeld o key file.current
  let previous ← loadHeld o key file.previous
  ensure ((validToken file.cogId && validToken file.version && slotKeyed file current && slotKeyed file previous) =
    true)
    (.malformed "slot key")
  pure ((file.cogId, file.version), { current := current, previous := previous, conflicted := file.conflicted })

def loadSlots (key : Octets) : List (SlotFile P) → List ((String × String) × Slot P) →
    Except LicenceError (List ((String × String) × Slot P))
  | [], slots => .ok slots
  | file :: rest, slots => do
    let (name, slot) ← loadSlot o key file
    loadSlots key rest (Table.insert slots name slot)

def loadBinding (binding : Option (SignedEnvelope P)) : Except LicenceError (Option (Held P BindingRecord)) :=
  match binding with
  | none => .ok none
  | some signed => do
    let body ← verifyBindingSignature o anchors signed
    pure (some ⟨signed, body⟩)

def floorsOk (binding : Option (Held P BindingRecord)) (floors : List (String × FloorState)) : Bool :=
  floors.length ≤ MAX_FLOORS && floors.all fun (key, f) =>
    some key = binding.map (·.body.grantPubkey) && f.maxIssued ≤ MAX_UNIX_TIME && f.hw ≤ MAX_UNIX_TIME

def load (disk : Disk (StoreFile P)) : Except LicenceError (Inner P) :=
  match disk with
  | .missing => .ok {}
  | .unreadable why => .error why
  | .file file => do
    ensure (file.v = 1 ∧ file.grants.length ≤ MAX_GRANT_SLOTS) (.malformed "store version or size")
    let binding ← loadBinding o anchors file.binding
    ensure (floorsOk binding file.floors = true) (.malformed "floors")
    let inner : Inner P := { binding := binding, floors := file.floors, persistedHw := Inner.savedHw file.floors }
    if file.grants = [] then pure inner
    else
      let key ← require (binding.bind fun b => hexDecodeExact 32 b.body.grantPubkey)
        (.malformed "grants without a binding")
      let slots ← loadSlots o key file.grants []
      pure { inner with slots := slots }

def openOrPoisoned (disk : Disk (StoreFile P)) (marker : Bool) : CheckoutGrantStore P :=
  match load o anchors disk with
  | .ok inner => { inner := inner, disk := disk, marker := marker }
  | .error e => { inner := { poisoned := some e.message }, disk := disk, marker := marker }

end

end Weftos.Licence.Store
