import Weftos.Licence.Numbering

/-! Releases. A renewal withdraws the slots it names among those of its batch; a named slot that comes later
is left as it was, and the answer is the same. -/

namespace Weftos.Licence.Release
open Weftos.Lib Weftos.Lib.Outcome Weftos.Licence.Wire Weftos.Licence.Proxy Weftos.Licence.Turn

section
variable {P : Type} [DecidableEq P] {o : Outside P} {cfg : Config} {out : List (SignedEnvelope P)} {mesh : String}

/-- The slot after its release was carried out, with the withdrawal that the answer holds. -/
structure Withdrawn (o : Outside P) (out : List (SignedEnvelope P)) (before slot : Slot P) : Prop where
  status : slot.status ≠ .active
  latest : ∃ signed g, slot.grant = some signed ∧ signed ∈ out ∧ o.parseGrant signed.payload = .ok g ∧
    g.isWithdrawal = true ∧ g.seq = slot.seq
  number : before.seq < slot.seq

omit [DecidableEq P] in
theorem release_status (slot : Slot P) : slot.release.status ≠ .active := by
  unfold Slot.release
  split
  next active => exact SlotStatus.noConfusion
  next other => exact other

theorem signSlot_latest (signs : signSlot o cfg secret slots key slot mesh now now = .ok (signed, next)) :
    ∃ slot' g, next.slots.lookup key = some slot' ∧ slot'.status = slot.status ∧ slot'.seq = slot.seq ∧
      slot'.grant = some signed ∧ o.parseGrant signed.payload = .ok g ∧ g.isWithdrawal = true ∧ g.seq = slot'.seq := by
  obtain ⟨-, payload, -, rfl⟩ := signSlot_ok o cfg signs
  refine ⟨_, signedGrant o cfg secret slot mesh now now, Table.lookup_insert_self _ _ _, rfl, rfl, rfl, ?_, ?_, rfl⟩
  · rw [payload, o.parseGrant_grantText]
  · exact decide_eq_true (le_refl now)

theorem renewSlots_releases (issued : renewSlots o cfg secret mesh now release ents keys slots = .ok (out, work))
    (distinct : keys.Nodup) (picked : key ∈ keys) (named : key ∈ release) (found : slots.slots.lookup key = some slot) :
    ∃ slot', work.slots.lookup key = some slot' ∧ slot'.seq = saturatingAdd slot.seq 1 ∧
      (slot.seq < slot'.seq → Withdrawn o out slot slot') := by
  induction keys generalizing slots out with
  | nil => exact (List.not_mem_nil picked).elim
  | cons first keys ih =>
    obtain ⟨fresh, others⟩ := List.nodup_cons.mp distinct
    by_cases own : key = first
    · subst own
      have renewal : slot.renewal cfg (release.contains key) (ents key) now =
          some ({ slot.release with seq := saturatingAdd slot.seq 1 }, now) := by
        unfold Slot.renewal
        rw [if_pos (List.contains_iff_mem.mpr named)]
      obtain ⟨skipped, -⟩ | ⟨old, slot', expiresAt, signed, next, tail, here, renewed, signs, later, rfl⟩ :=
        renewSlots_cons o cfg issued
      · rw [skipped slot found] at renewal
        cases renewal
      · obtain rfl : old = slot := Option.some.inj (here.symm.trans found)
        rw [renewal] at renewed
        cases renewed
        obtain ⟨after, g, signedAt, status, seq, held, parsed, withdrawal, number⟩ := signSlot_latest signs
        refine ⟨after, (renewSlots_untouched later fresh).trans signedAt, seq, fun rises => ⟨?_, ?_, rises⟩⟩
        · rw [status]
          exact release_status old
        · exact ⟨signed, g, held, List.mem_cons_self, parsed, withdrawal, number⟩
    · have rest := List.mem_of_ne_of_mem own picked
      obtain ⟨-, issued⟩ | ⟨old, slot', expiresAt, signed, next, tail, here, renewed, signs, later, rfl⟩ :=
        renewSlots_cons o cfg issued
      · exact ih issued others rest found
      · have still : next.slots.lookup key = some slot := by
          rw [signSlot_slots signs, Table.lookup_insert_other slots.slots _ own, found]
        obtain ⟨after, here, seq, withdrawn⟩ := ih later others rest still
        refine ⟨after, here, seq, fun rises => ?_⟩
        obtain ⟨status, ⟨last, g, held, listed, rest⟩, number⟩ := withdrawn rises
        exact ⟨status, ⟨last, g, held, List.mem_cons_of_mem signed listed, rest⟩, number⟩

/-- What becomes of one named slot. -/
theorem renewSlots_withdrawn_iff (issued : renewSlots o cfg secret mesh now release ents keys slots = .ok (out, work))
    (distinct : keys.Nodup) (named : key ∈ release) (found : slots.slots.lookup key = some slot) :
    (∃ slot', work.slots.lookup key = some slot' ∧ Withdrawn o out slot slot') ↔ key ∈ keys ∧ slot.seq < U64_MAX := by
  by_cases picked : key ∈ keys
  · obtain ⟨slot', after, seq, withdrawn⟩ := renewSlots_releases issued distinct picked named found
    have rises : slot.seq < slot'.seq ↔ slot.seq < U64_MAX := by
      rw [seq, saturatingAdd]
      omega
    constructor
    · rintro ⟨other, here, done⟩
      obtain rfl : slot' = other := Option.some.inj (after.symm.trans here)
      exact ⟨picked, rises.mp done.number⟩
    · rintro ⟨-, room⟩
      exact ⟨slot', after, withdrawn (rises.mpr room)⟩
  · constructor
    · rintro ⟨slot', here, done⟩
      rw [renewSlots_untouched issued picked, found] at here
      cases here
      exact (Nat.lt_irrefl _ done.number).elim
    · rintro ⟨listed, -⟩
      exact (picked listed).elim

omit [DecidableEq P] in
theorem refreshBinding_slots {inner : Inner P}
    (bound : meshOf (refreshBinding files write inner disk).1 = some mesh) :
    (refreshBinding files write inner disk).1.slots = inner.slots := by
  have unchanged (next : Inner P) : (releaseAll write next disk).1.bound = next.bound := by
    unfold releaseAll
    split <;> rfl
  unfold refreshBinding at bound ⊢
  dsimp only at bound ⊢
  split
  · rfl
  next changed =>
    rw [if_neg changed] at bound
    split
    · rfl
    next unbound =>
      rw [unbound, meshOf, unchanged] at bound
      rw [Inner.bound] at unbound bound
      rw [unbound] at bound
      cases bound

/-- A renewal that is answered has withdrawn a slot that it names, in memory, on disk and in the answer, exactly
when the slot is in its batch and its number can still rise. -/
theorem release_carried_out {files : Files} {bindWrite write : WriteOutcome} {inner inner' : Inner P}
    {disk disk' : Slots P}
    {now : Nat} {release : List (String × String)} {ents : String → Except LicenceCheckError Entitlement}
    {out : List (SignedEnvelope P)} (distinct : (inner.slots.slots.map (·.1)).Nodup)
    (answered : settle write (renew o cfg files bindWrite inner disk now release ents) = (.ok out, inner', disk')) :
    disk' = inner'.slots ∧ ∃ mesh, meshOf inner' = some mesh ∧ ∀ r ∈ release, ∀ slot,
      inner.slots.slots.lookup (slotKey r.1 r.2) = some slot → slot.meshId = mesh →
      ((∃ slot', inner'.slots.slots.lookup (slotKey r.1 r.2) = some slot' ∧ Withdrawn o out slot slot') ↔
        slotKey r.1 r.2 ∈ renewKeys cfg inner.slots mesh (release.map fun r => slotKey r.1 r.2) ∧
          slot.seq < U64_MAX) := by
  have state : (renew o cfg files bindWrite inner disk now release ents).2 =
    refreshBinding files bindWrite inner disk :=
    renew_state files bindWrite inner disk now release ents
  cases result : (renew o cfg files bindWrite inner disk now release ents).1 with
  | error e =>
    rw [← Prod.eta (renew o cfg files bindWrite inner disk now release ents), result] at answered
    cases answered
  | ok signed =>
    obtain ⟨made, work⟩ := signed
    obtain ⟨secret, mesh, bound, key, renews⟩ := renew_ok result
    rw [refreshBinding_slots bound] at renews
    rw [← Prod.eta (renew o cfg files bindWrite inner disk now release ents), result, state] at answered
    cases write with
    | failed | failedLate => cases answered
    | done =>
      cases answered
      refine ⟨rfl, mesh, bound, ?_⟩
      intro r listed slot found _
      exact renewSlots_withdrawn_iff renews (renewKeys_nodup distinct mesh _) (List.mem_map_of_mem listed) found

end

/-! ### A release that is not carried out -/

namespace Sample
open Weftos.Licence.Member.Sample Weftos.Licence.Numbering.Sample

def slot (cog : String) (issueCtr : Nat) : Slot Text where
  meshId := zeros
  cogId := cog
  version := "1"
  seq := 1
  arches := [("aarch64", artifactOf outside "aarch64" [1])]
  manifestSha256 := zeros
  registry := "registry"
  licence := licenceRef entitlement clock
  status := .active
  issueCtr := issueCtr
  grant := none

def table : Slots Text := { ctr := 2, lastIssuedAt := clock, slots := [("a@1", slot "a" 1), ("b@1", slot "b" 2)] }

def released (renewBatch : Nat) : Except ApiError (List (SignedEnvelope Text)) × Inner Text × Slots Text :=
  settle .done (renew outside { deviceId := "seed", limits := { renewBatch := renewBatch } } files .done
    ⟨table, some binding, some grantKey, some 1⟩ table (clock + 10) [("b", "1")] fun _ => .ok entitlement)

end Sample
open Sample

theorem release_carried_out_named : ∃ out slot', (released 2).1 = .ok out ∧
    (released 2).2.1.slots.slots.lookup "b@1" = some slot' ∧
      Withdrawn Member.Sample.outside out (slot "b" 2) slot' := by
  have answers : ∃ out, (released 2).1 = .ok out ∧ True := by decide +kernel
  obtain ⟨out, ok, -⟩ := answers
  have answered : released 2 = (.ok out, (released 2).2.1, (released 2).2.2) := by rw [← ok]
  have mesh : meshOf (released 2).2.1 = some Member.Sample.zeros := by decide +kernel
  obtain ⟨-, other, here, all⟩ := release_carried_out (by decide +kernel) answered
  obtain rfl : other = Member.Sample.zeros := Option.some.inj (here.symm.trans mesh)
  obtain ⟨slot', found, withdrawn⟩ := (all ("b", "1") List.mem_cons_self (slot "b" 2) (by decide +kernel) rfl).mpr
    (by decide +kernel)
  exact ⟨out, slot', ok, found, withdrawn⟩

/-- With one slot at a time `a` is renewed, and `b` stays active. -/
theorem release_forgotten : (released 1).1.isOk = true ∧ meshOf (released 1).2.1 = some (slot "b" 2).meshId ∧
    (released 1).2.1.slots.slots.lookup "b@1" = some (slot "b" 2) ∧ (slot "b" 2).status = .active := by
  decide +kernel

end Weftos.Licence.Release
