import Weftos.Governance.Gate
import Weftos.Governance.Trust

/-! A project kernel's live governance (`overlay_runtime.rs`). What a call reads from the disk and the clock
is an argument; the disk, the chain and the running state it leaves are results. -/

namespace Weftos.Governance.Runtime
open Lib.Bytes Lib.Json Lib.Outcome
open Chain.Event Chain.Local
open Rules Policy Merge Gate
open Trust

structure Applied where
  parentHash : String
  overlayHash : String
  effectiveHash : String
  parentVersion : UInt64
  ruleCount : Nat
  restartRequired : Bool

structure Prepared (F : Type) where
  nested : Bool
  paths : RuntimePaths
  userPubkey : Digest
  userPin : Bool
  parent : ParentPolicy F
  overlay : Overlay F
  overlayPresent : Bool
  pinned : Option UInt64
  effective : Effective F
  cell : Option Digest

structure State (F : Type) where
  parent : ParentPolicy F
  overlay : Overlay F
  effective : Effective F

structure OverlayRuntime (F : Type) where
  nested : Bool
  gate : GovernanceGate F
  cell : Option Digest
  paths : RuntimePaths
  userPubkey : Digest
  userPin : Bool
  boot : Effective F
  state : State F

structure NestedPolicy (F : Type) where
  paths : RuntimePaths
  master : Digest
  policy : ParentPolicy F

section
variable {F : Type} [Scalar F] (platform : Platform F)

/-! ### What is recorded -/

def Applied.of (e boot : Effective F) : Applied where
  parentHash := e.parentHash.hex
  overlayHash := e.overlayHash.hex
  effectiveHash := e.effectiveHash.hex
  parentVersion := e.parentVersion
  ruleCount := e.rules.length
  restartRequired := e.limits.maxProcesses ≠ boot.limits.maxProcesses ||
    e.limits.spawnBudget ≠ boot.limits.spawnBudget

def Applied.toJson (a : Applied) : List (String × Value) :=
  [("parent_hash", .str a.parentHash), ("overlay_hash", .str a.overlayHash),
    ("effective_hash", .str a.effectiveHash), ("parent_version", .nat a.parentVersion),
    ("rule_count", .nat (UInt64.ofNat a.ruleCount)), ("restart_required", .bool a.restartRequired)]

def appliedPayload (a : Applied) (source : String) (userPin : Bool) (userPubkey : Digest) : Value :=
  .obj (a.toJson ++ [("source", .str source), ("user_pin", .bool userPin),
    ("user_key_id", .str (keyId platform userPubkey))])

def rejectedPayload (refusal : OverlayError) (source : String) : Value :=
  .obj [("source", .str source), ("key", .str refusal.key), ("reason", .str (refusal.message platform.canon))]

def record (chain : LocalChain) (rt : OverlayRuntime F) (result : Except OverlayError Applied) (source : String)
    (now : Timestamp) : LocalChain :=
  match result with
  | .ok a =>
    (chain.append platform.hashing OVERLAY_APPLIED_SOURCE OVERLAY_APPLIED_KIND
      (some (appliedPayload platform a source rt.userPin rt.userPubkey)) now rt.cell).1
  | .error refusal =>
    (chain.append platform.hashing "governance" "governance.overlay.rejected"
      (some (rejectedPayload platform refusal source)) now rt.cell).1

/-! ### Boot -/

def bootOverlay (paths : RuntimePaths) (disk : Disk) : Except OverlayError (Overlay F) :=
  match paths.overlay with
  | some path => loadOverlay platform path disk.overlay
  | none => .ok (Overlay.empty platform.canon)

/-- The common end of both ways to prepare: pin, overlay and merge. -/
def prepareWith (disk : Disk) (nested : Bool) (paths : RuntimePaths) (userPubkey : Digest) (userPin : Bool)
    (parent : ParentPolicy F) : Except OverlayError (Prepared F) := do
  (verifyParentPolicy platform parent userPubkey).mapError .parent
  let pinned ← readPin paths disk.versionPin
  checkVersion parent pinned
  let overlay ← bootOverlay platform paths disk
  let effective ← merge platform.canon parent overlay
  pure {
    nested
    paths
    userPubkey
    userPin
    parent
    overlay
    overlayPresent := paths.overlay.isSome && disk.overlay.exists
    pinned
    effective
    cell := some effective.effectiveHash }

def prepare (paths : RuntimePaths) (disk : Disk) : Except OverlayError (Prepared F) := do
  ensure (paths.childId.isSome = true) .notAChild
  let (userPubkey, userPin) ← disk.userPubkey
  let parent ← loadParentPolicy platform paths.parentPolicy disk.parentPolicy
  prepareWith platform disk false paths userPubkey userPin parent

def prepareNested (contract : Option (NestedPolicy F)) (disk : Disk) :
    Except OverlayError (Option (Prepared F)) :=
  match contract with
  | none => .ok none
  | some nested => do
    let pin ← disk.nestedPin
    ensure (pin = nested.master) (.cert "nested master pin changed")
    some <$> prepareWith platform disk true nested.paths nested.master true nested.policy

section
variable (p : Prepared F)

/-- Neither the policy nor the pin may be older than what the chain records. -/
def Prepared.checkFloor (history : History) : Except OverlayError Unit :=
  match history.maxParentVersion with
  | none => .ok ()
  | some newest =>
    ([some p.parent.version, p.pinned].filterMap id).forM fun offered =>
      ensure (newest ≤ offered) (.parent (.rollback offered newest))

/-- The checks of a boot against the restored chain, then the rollback pin. -/
def Prepared.commit (chain : LocalChain) (disk : Disk) (written : Except String Unit) :
    Except OverlayError Disk := do
  let history := chainHistory chain
  ensure (¬ (p.pinned = none ∧ history.anyApplied = true)) .pinMissing
  p.checkFloor history
  ensure (¬ (history.userPinUsed = true ∧ p.userPin = false))
    (.cert "a user.pub pin was in use on an earlier boot but is now absent")
  ensure (∀ last ∈ history.lastOverlayHash, p.overlayPresent = true ∨
    last = (Overlay.empty (F := F) platform.canon).hash.hex) .overlayMissing
  if p.pinned.all (· < p.parent.version) then writePin p.paths disk p.parent.version written
  else pure disk

def Prepared.applied : Applied := Applied.of p.effective p.effective

def Prepared.intoRuntime (gate : GovernanceGate F) (chain : LocalChain) (now : Timestamp) :
    OverlayRuntime F × LocalChain :=
  let rt : OverlayRuntime F :=
    { nested := p.nested
      gate
      cell := p.cell
      paths := p.paths
      userPubkey := p.userPubkey
      userPin := p.userPin
      boot := p.effective
      state := ⟨p.parent, p.overlay, p.effective⟩ }
  (rt, record platform chain rt (.ok p.applied) "boot" now)

end

/-! ### Reloads and pushed policies -/

section
variable (rt : OverlayRuntime F)

def recheckTrust (disk : Disk) : Except OverlayError Unit := do
  let (key, pinned) ← if rt.nested then (fun key => (key, true)) <$> disk.nestedPin else disk.userPubkey
  ensure (¬ (rt.userPin = true ∧ pinned = false)) (.cert "the user.pub pin that was in use is gone")
  ensure (key = rt.userPubkey) (.cert "the trusted user key changed since boot; restart the kernel")

def nestedUnchanged (policy : ParentPolicy F) : Except OverlayError Unit :=
  ensure (¬ (rt.nested = true ∧ policy.sig ≠ rt.state.parent.sig))
    (.cert "nested master policy changes require a new signed boot contract and restart")

/-- The overlay a reload works with: the file, or what its absence means. -/
def reloadOverlay (disk : Disk) : Except OverlayError (Overlay F) :=
  match rt.paths.overlay.filter fun _ => disk.overlay.exists with
  | some path => loadOverlay platform path disk.overlay
  | none =>
    if rt.state.overlay ≠ Overlay.empty platform.canon then .error .overlayMissing
    else .ok (Overlay.empty platform.canon)

def reloadPlan (disk : Disk) : Except OverlayError (ParentPolicy F × Overlay F) := do
  recheckTrust rt disk
  let overlay ← reloadOverlay platform rt disk
  let file ← loadParentPolicy platform rt.paths.parentPolicy disk.parentPolicy
  (verifyParentPolicy platform file rt.userPubkey).mapError .parent
  nestedUnchanged rt file
  -- an older file is ignored, not applied
  pure (if rt.state.parent.version ≤ file.version then file else rt.state.parent, overlay)

def updatePlan (disk : Disk) (policy : ParentPolicy F) :
    Except OverlayError (ParentPolicy F × Overlay F) := do
  recheckTrust rt disk
  (verifyParentPolicy platform policy rt.userPubkey).mapError .parent
  nestedUnchanged rt policy
  pure (policy, rt.state.overlay)

/-- The part of `apply_locked` that can refuse before anything is written. -/
def mergeLocked (plan : ParentPolicy F × Overlay F) :
    Except OverlayError (Effective F) := do
  checkVersion plan.1 (some rt.state.parent.version)
  merge platform.canon plan.1 plan.2

def pinLocked (disk : Disk) (parent : ParentPolicy F) (written : Except String Unit) :
    Except OverlayError Disk :=
  if rt.state.parent.version < parent.version then writePin rt.paths disk parent.version written else .ok disk

/-- `OverlayGate::swap`: the rules and the cell change together. -/
def OverlayRuntime.swap (e : Effective F) : OverlayRuntime F :=
  { rt with
    gate := (GovernanceGate.ofEffective e).inheritConfig rt.gate
    cell := some e.effectiveHash }

def OverlayRuntime.store (plan : ParentPolicy F × Overlay F) (e : Effective F) :
    OverlayRuntime F :=
  { rt with state := ⟨plan.1, plan.2, e⟩ }

def applyLocked (disk : Disk) (plan : ParentPolicy F × Overlay F)
    (written : Except String Unit) : Except OverlayError (OverlayRuntime F × Disk × Applied) := do
  let effective ← mergeLocked platform rt plan
  let disk ← pinLocked rt disk plan.1 written
  pure ((rt.swap effective).store plan effective, disk, Applied.of effective rt.boot)

/-- An attempt and its record: a refusal leaves the runtime and the disk alone. -/
def attempt (disk : Disk) (chain : LocalChain)
    (plan : Except OverlayError (ParentPolicy F × Overlay F)) (source : String) (written : Except String Unit)
    (now : Timestamp) : OverlayRuntime F × Disk × LocalChain × Except OverlayError Applied :=
  match plan >>= fun decided => applyLocked platform rt disk decided written with
  | .ok (rt, disk, applied) => (rt, disk, record platform chain rt (.ok applied) source now, .ok applied)
  | .error refusal => (rt, disk, record platform chain rt (.error refusal) source now, .error refusal)

def reload (disk : Disk) (chain : LocalChain) (written : Except String Unit)
    (now : Timestamp) : OverlayRuntime F × Disk × LocalChain × Except OverlayError Applied :=
  attempt platform rt disk chain (reloadPlan platform rt disk) "reload" written now

def applyParentUpdate (disk : Disk) (chain : LocalChain) (policy : ParentPolicy F)
    (written : Except String Unit) (now : Timestamp) :
    OverlayRuntime F × Disk × LocalChain × Except OverlayError Applied :=
  attempt platform rt disk chain (updatePlan platform rt disk policy) "parent.update" written now

end

theorem prepareWith_carries (ok : prepareWith platform disk nested paths key userPin parent = .ok p) :
    merge platform.canon p.parent p.overlay = .ok p.effective ∧ p.cell = some p.effective.effectiveHash ∧
      p.overlayPresent = (paths.overlay.isSome && disk.overlay.exists) := by
  simp only [prepareWith, bind_ok_iff, pure_ok_iff, mapError_ok_iff] at ok
  obtain ⟨_, _, _, _, _, _, overlay, _, effective, merged, rfl⟩ := ok
  exact ⟨merged, rfl, rfl⟩

end

end Weftos.Governance.Runtime
