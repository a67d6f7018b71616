import Weftos.Placement.Place

/-! Memory reserved demand by demand, and the check of all demands at once. -/

namespace Weftos.Placement.Constraints
open Candidates Request List

def MemoryLedger.less (ledger : MemoryLedger) (d : MemoryDemand) : MemoryLedger :=
  if ledger.unified then { ledger with hostFree := ledger.hostFree - saturatingAdd d.hostBytes d.accelBytes }
  else { ledger with hostFree := ledger.hostFree - d.hostBytes, vramFree := ledger.vramFree - d.accelBytes }

def MemoryLedger.reserve (ledger : MemoryLedger) (d : MemoryDemand) : Except MemoryShortfall Unit × MemoryLedger :=
  match ledger.check d with
  | .error s => (.error s, ledger)
  | .ok _ => (.ok (), ledger.less d)

def MemoryLedger.reserveAll (ledger : MemoryLedger) : List MemoryDemand → Bool
  | [] => true
  | d :: ds => (ledger.reserve d).1.isOk && (ledger.reserve d).2.reserveAll ds

def total (part : MemoryDemand → UInt64) (ds : List MemoryDemand) : Nat := (ds.map fun d => (part d).toNat).sum

def MemoryLedger.Fits (ledger : MemoryLedger) (host accel : Nat) : Prop :=
  if ledger.unified then host + accel ≤ ledger.hostFree.toNat
  else host ≤ ledger.hostFree.toNat ∧ accel ≤ ledger.vramFree.toNat

/-- A pool of `u64::MAX` that more than that is asked of, on a node none of whose pools is short of what a `u64` can say
of the demand. -/
def MemoryLedger.Overfull (ledger : MemoryLedger) (host accel : Nat) : Prop :=
  if ledger.unified then ledger.hostFree = u64Max ∧ u64Max.toNat < host + accel
  else
    ledger.hostFree = u64Max ∧ u64Max.toNat < host ∧ (accel ≤ ledger.vramFree.toNat ∨ ledger.vramFree = u64Max) ∨
      ledger.vramFree = u64Max ∧ u64Max.toNat < accel ∧ (host ≤ ledger.hostFree.toNat ∨ ledger.hostFree = u64Max)

namespace MemoryLedger
variable {ledger : MemoryLedger}

theorem reserve_cases (ledger : MemoryLedger) (d : MemoryDemand) :
    ledger.Holds d.hostBytes.toNat d.accelBytes.toNat ∧ ledger.reserve d = (.ok (), ledger.less d) ∨
      ¬ledger.Holds d.hostBytes.toNat d.accelBytes.toNat ∧ ∃ s, ledger.reserve d = (.error s, ledger) := by
  have host := d.hostBytes.toNat_lt
  have accel := d.accelBytes.toNat_lt
  rw [← check_ok_iff (d := d) (by omega) (by omega), reserve]
  cases ledger.check d with
  | error s => exact .inr ⟨nofun, s, rfl⟩
  | ok _ => exact .inl ⟨rfl, rfl⟩

theorem Fits.first (fits : ledger.Fits (host + more) (accel + other)) : ledger.Fits host accel := by
  unfold Fits at *
  split <;> grind

theorem holds_iff : ledger.Holds host accel ↔ ledger.Fits host accel ∨ ledger.Overfull host accel := by
  have hostMost := ledger.hostFree.toNat_lt
  have vramMost := ledger.vramFree.toNat_lt
  simp only [Holds, Fits, Overfull, ← UInt64.toNat_inj, u64Max_toNat]
  split <;> omega

theorem Overfull.not_fits (excess : ledger.Overfull host accel) : ¬ledger.Fits host accel := by
  have hostMost := ledger.hostFree.toNat_lt
  have vramMost := ledger.vramFree.toNat_lt
  simp only [Fits, Overfull, u64Max_toNat] at *
  split_ifs at * <;> omega

theorem less_fits (d : MemoryDemand) (fits : ledger.Fits d.hostBytes.toNat d.accelBytes.toNat) (host accel : Nat) :
    ((ledger.less d).Fits host accel ↔ ledger.Fits (d.hostBytes.toNat + host) (d.accelBytes.toNat + accel)) ∧
      ((ledger.less d).unified = true → (ledger.less d).hostFree = u64Max → u64Max.toNat < host + accel →
        ledger.Overfull (d.hostBytes.toNat + host) (d.accelBytes.toNat + accel)) := by
  have most := ledger.hostFree.toNat_lt
  simp only [Fits, Overfull, less, ← UInt64.toNat_inj, u64Max_toNat] at fits ⊢
  split_ifs at fits ⊢ with unified
  · have sum := saturatingAdd_toNat d.hostBytes d.accelBytes
    rw [UInt64.toNat_sub_of_le _ _ (by rw [UInt64.le_iff_toNat_le]; omega)]
    constructor <;> grind
  · rw [UInt64.toNat_sub_of_le _ _ (UInt64.le_iff_toNat_le.mpr fits.1), UInt64.toNat_sub_of_le _ _
      (UInt64.le_iff_toNat_le.mpr fits.2)]
    constructor <;> grind

/-- One demand after another nothing saturates but the sum of the two parts of one, which a unified pool is asked
for. -/
theorem reserveAll_iff (ds : List MemoryDemand)
    (within : ledger.unified = true → ¬ledger.Overfull (total (·.hostBytes) ds) (total (·.accelBytes) ds)) :
    ledger.reserveAll ds = true ↔ ledger.Fits (total (·.hostBytes) ds) (total (·.accelBytes) ds) := by
  induction ds generalizing ledger with
  | nil => simp [reserveAll, Fits, total]
  | cons d ds ih =>
    have one : ledger.Holds d.hostBytes.toNat d.accelBytes.toNat ↔
      ledger.Fits d.hostBytes.toNat d.accelBytes.toNat := by
      have host := d.hostBytes.toNat_lt
      have accel := d.accelBytes.toNat_lt
      refine holds_iff.trans (or_iff_left fun excess => ?_)
      simp only [Overfull, total, map_cons, sum_cons, u64Max_toNat] at excess within
      split_ifs at excess within <;> grind
    obtain ⟨holds, done⟩ | ⟨short, s, done⟩ := ledger.reserve_cases d
    · have next := less_fits d (one.mp holds) (total (·.hostBytes) ds) (total (·.accelBytes) ds)
      rw [reserveAll, done]
      refine (ih fun unified excess => ?_).trans next.1
      rw [Overfull, if_pos unified] at excess
      have same : ledger.unified = true := by rwa [less, apply_ite MemoryLedger.unified, ite_self] at unified
      exact within same (next.2 unified excess.1 excess.2)
    · rw [one] at short
      rw [reserveAll, done]
      exact ⟨nofun, fun fits => absurd fits.first short⟩

end MemoryLedger

/-- What is reserved in any order is what is checked at once, and both are what fits, exactly unless a pool of
`u64::MAX` is asked for more, or no memory is asked for on a node that those pending do not fit. -/
theorem admission_reserves {F : Type} [Arith F] (request : PlacementRequest F) (node : PlacementFacts F)
    (cluster : ClusterState) :
    let ledger := MemoryLedger.fromCapabilities node.capabilities
    let demands := request.spec.requirements.memory :: (cluster.instancesOn node.nodeId).map (·.pending)
    let host := total (·.hostBytes) demands
    let accel := total (·.accelBytes) demands
    ((∀ ds, ds.Perm demands → (ledger.reserveAll ds = true ↔ ledger.Fits host accel) ∧
        (checkMemory request node cluster = none ↔ ledger.Fits host accel)) ↔
      if request.spec.requirements.memory = .none then ledger.Fits host accel else ¬ledger.Overfull host accel) ∧
    ∀ (ledger : MemoryLedger) (d : MemoryDemand),
      ledger.Holds d.hostBytes.toNat d.accelBytes.toNat ∧ ledger.reserve d = (.ok (), ledger.less d) ∨
        ∃ s, ledger.reserve d = (.error s, ledger) := by
  intro ledger demands host accel
  refine ⟨?_, fun ledger d => (ledger.reserve_cases d).imp_right And.right⟩
  have reserved (within : ¬ledger.Overfull host accel) (ds : List MemoryDemand) (order : ds.Perm demands) :
      ledger.reserveAll ds = true ↔ ledger.Fits host accel := by
    have sums (part : MemoryDemand → UInt64) : total part ds = total part demands := (order.map _).sum_eq
    have each := @MemoryLedger.reserveAll_iff ledger ds
    rw [sums, sums] at each
    exact each fun _ => within
  split_ifs with asks
  · -- nothing is asked for, so nothing is checked
    have unchecked : checkMemory request node cluster = none := if_pos asks
    constructor
    · exact fun agrees => (agrees demands .rfl).2.mp unchecked
    · exact fun fits ds order => ⟨reserved (fun excess => excess.not_fits fits) ds order, iff_of_true unchecked fits⟩
  · have checked : checkMemory request node cluster = none ↔ ledger.Fits host accel ∨ ledger.Overfull host accel := by
      have pending (part : MemoryDemand → UInt64) : total part demands =
          (part request.spec.requirements.memory).toNat + pendingOn cluster node.nodeId part := by
        rw [total, map_cons, sum_cons, map_map]
        rfl
      rw [checkMemory_none_iff asks, MemoryLedger.holds_iff, ← pending, ← pending]
    constructor
    · intro agrees excess
      exact excess.not_fits ((agrees demands .rfl).2.mp (checked.mpr (.inr excess)))
    · exact fun within ds order => ⟨reserved within ds order, checked.trans (or_iff_left within)⟩

def pooled (free : ℚ) : PlacementFacts ℚ :=
  { Place.plainNode "a" with capabilities :=
    [⟨⟨"mem.unified", by decide⟩, [("free", .float free)], .claimed, .available, false⟩] }

def asking (memory : MemoryDemand) : PlacementRequest ℚ := { Place.tornRequest with spec := Place.plainSpec memory }

theorem admission_reserves_twelve : checkMemory (asking ⟨1, 1⟩) (pooled 12) Place.crowdedCluster = none := by
  have within : ¬(MemoryLedger.fromCapabilities (pooled 12).capabilities).Overfull 11 1 := by
    rw [MemoryLedger.Overfull, if_pos (by decide +kernel)]
    exact fun excess => absurd excess.2 (by decide)
  have agrees := (admission_reserves (asking ⟨1, 1⟩) (pooled 12) Place.crowdedCluster).1.mpr within
  have both := agrees [⟨10, 0⟩, ⟨1, 1⟩] (by decide)
  exact both.2.mpr (both.1.mp (by decide +kernel))

/-- The sum of all demands stays at the largest `u64`, which such a pool has; and nothing is checked for a demand of
nothing. -/
theorem checked_unreserved :
    (checkMemory (asking ⟨1, u64Max⟩) (pooled (2 ^ 64)) Place.crowdedCluster = none ∧
      (MemoryLedger.fromCapabilities (pooled (2 ^ 64)).capabilities).reserveAll [⟨10, 0⟩, ⟨1, u64Max⟩] = false) ∧
    checkMemory (asking .none) (pooled 0) Place.crowdedCluster = none ∧
      (MemoryLedger.fromCapabilities (pooled 0).capabilities).reserveAll [⟨10, 0⟩, .none] = false := by
  decide +kernel

end Weftos.Placement.Constraints
