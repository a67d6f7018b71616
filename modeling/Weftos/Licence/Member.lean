import Weftos.Lib.Run
import Weftos.Licence.Approvals

/-! One node with its two licence stores over whole runs: deliveries, queries, ticks, restarts, and files that
are lost or spoiled. -/

namespace Weftos.Licence.Member
open Lib Lib.Bytes Lib.Outcome Wire Store Approvals List Option CheckoutGrantStore Inner

structure Node (P : Type) where
  grants : CheckoutGrantStore P := {}
  approvals : ApprovalStore P := {}

inductive Query where
  | valid
  | rows
  | floor
  | effectiveNow

inductive Tampering where
  | deleted
  | spoiled (why : LicenceError)

inductive Act (P : Type) where
  | bind (env : Env) (signed : SignedEnvelope P) (posture : AdmissionPosture)
      (extra : BindingRecord → Except LicenceError Unit)
  | grant (env : Env) (signed : SignedEnvelope P)
  | approve (env : Env) (signed : SignedEnvelope P)
  | query (kind : Query) (env : Env)
  | tick (env : Env)
  | resetFloor (env : Env)
  | everBound (env : Env)
  | tamper (how : Tampering)
  | restart

section
variable {P : Type}

def asked (kind : Query) (env : Env) (s : CheckoutGrantStore P) : CheckoutGrantStore P :=
  match kind with
  | .valid => (s.verifiedGrants env).2
  | .rows => (s.grantRows env).2
  | .floor => (s.floor env).2
  | .effectiveNow => (s.effectiveNow env).2

/-- What the calls that deliver nothing make of the store: they record the clock or take it back, save the
memory, and note that the node was bound. -/
inductive Upkeep (resets : Prop) (s : CheckoutGrantStore P) : CheckoutGrantStore P → Prop
  | refl : Upkeep resets s s
  | observe (before : Upkeep resets s t) (now : Nat) (key : String) :
      Upkeep resets s (t.observe now key)
  | reset (before : Upkeep resets s t) (allowed : resets) (key : String) (now : Nat) :
      Upkeep resets s { t with inner := t.inner.setFloor key ((t.inner.floorAt key).reset now) }
  | save (before : Upkeep resets s t) (write : Option LicenceError) :
      Upkeep resets s (t.save write).2
  | noteBound (before : Upkeep resets s t) (env : Env) : Upkeep resets s (t.noteBound env)

namespace Upkeep
variable {resets : Prop} {s : CheckoutGrantStore P}

theorem asked (kind : Query) (env : Env) : Upkeep resets s (asked kind env s) := by
  cases kind with
  | valid =>
    unfold Member.asked verifiedGrants
    dsimp only
    split
    · exact .refl
    split
    · exact .refl
    · exact Upkeep.refl.observe _ _
  | rows | floor | effectiveNow =>
    simp only [Member.asked, grantRows, floor, effectiveNow]
    split
    · exact .refl
    · exact Upkeep.refl.observe _ _

theorem tick (env : Env) : Upkeep resets s (s.tick env) := by
  have retried : Upkeep resets s (s.retrySave env) := by
    unfold retrySave
    split
    · exact Upkeep.refl.save _
    · exact .refl
  rw [CheckoutGrantStore.tick]
  unfold CheckoutGrantStore.markClock
  split
  · exact retried
  · dsimp only
    split
    · exact (retried.observe _ _).save _
    · exact retried.observe _ _

theorem resetFloor (env : Env) : Upkeep True s (s.resetFloor env).2 := by
  unfold CheckoutGrantStore.resetFloor
  split
  · exact .refl
  next b _ =>
    cases env.write with
    | none => exact (Upkeep.refl.reset trivial b.grantPubkey env.now).save none
    | some e => exact .refl

theorem wasEverBound (env : Env) : Upkeep resets s (s.wasEverBound env).2 := by
  unfold CheckoutGrantStore.wasEverBound
  split
  · exact .refl
  split
  · exact Upkeep.refl.noteBound env
  · exact .refl

end Upkeep
end

section
variable {P : Type} [DecidableEq P] (o : Outside P) (anchors : TrustAnchors)

def step (n : Node P) : Act P → Node P
  | .bind env signed posture extra => { n with grants := (n.grants.acceptBinding o anchors env signed posture extra).2 }
  | .grant env signed => { n with grants := (n.grants.acceptGrant o env signed).2 }
  | .approve env signed => { n with approvals := (n.approvals.accept o anchors env signed).2 }
  | .query kind env => { n with grants := asked kind env n.grants }
  | .tick env => { n with grants := n.grants.tick env }
  | .resetFloor env => { n with grants := (n.grants.resetFloor env).2 }
  | .everBound env => { n with grants := (n.grants.wasEverBound env).2 }
  | .tamper .deleted => { n with grants := { n.grants with disk := .missing } }
  | .tamper (.spoiled why) => { n with grants := { n.grants with disk := .unreadable why } }
  | .restart =>
    { grants := openOrPoisoned o anchors n.grants.disk n.grants.marker
      approvals := openApprovals o anchors n.approvals.disk }

/-! ### What is held was verified -/

/-- A grant is filed under its own cog version, signed by the bound key, and noted by its floor
(a withdrawal kept out of a conflict need not be). -/
structure Filed (inner : Inner P) (name : String × String) (held : Held P CheckoutGrant) : Prop where
  named : held.body.key = name
  signature : ∃ b key, inner.binding = some b ∧ hexDecodeExact 32 b.body.grantPubkey = some key ∧
    verifyGrantSignature o held.signed key = .ok held.body
  noted : held.body.isWithdrawal = false → ∀ b, inner.binding = some b →
    held.body.issuedAt ≤ (inner.floorAt b.body.grantPubkey).maxIssued

structure Sound (inner : Inner P) : Prop where
  bound : ∀ held, inner.binding = some held → verifyBindingSignature o anchors held.signed = .ok held.body
  distinct : (inner.slots.map (·.1)).Nodup
  filed : ∀ name held, (inner.slotAt name).Holds held → Filed o inner name held

def DiskSound (disk : Disk (StoreFile P)) : Prop := ∀ inner, load o anchors disk = .ok inner → Sound o anchors inner

structure StoreSound (s : CheckoutGrantStore P) : Prop where
  memory : Sound o anchors s.inner
  disk : DiskSound o anchors s.disk

variable {o anchors} {inner : Inner P} {held : Held P CheckoutGrant} {name : String × String} {slot : Slot P}

theorem sound_empty : Sound o anchors ({} : Inner P) where
  bound _ none := by cases none
  distinct := nodup_nil
  filed _ _ holds := by obtain here | here := holds <;> cases here

theorem Filed.of_same (filed : Filed o inner name held) (binding : inner'.binding = inner.binding)
    (floors : ∀ key, (inner.floorAt key).maxIssued ≤ (inner'.floorAt key).maxIssued) : Filed o inner' name held := by
  refine ⟨filed.named, binding ▸ filed.signature, ?_⟩
  intro permits b here
  exact (filed.noted permits b (binding ▸ here)).trans (floors _)

theorem Sound.of_same (sound : Sound o anchors inner) (binding : inner'.binding = inner.binding)
    (slots : inner'.slots = inner.slots)
    (floors : ∀ key, (inner.floorAt key).maxIssued ≤ (inner'.floorAt key).maxIssued) : Sound o anchors inner' where
  bound held here := sound.bound held (binding ▸ here)
  distinct := slots ▸ sound.distinct
  filed name held holds := by
    have before : (inner.slotAt name).Holds held := by
      rw [slotAt, slots] at holds
      exact holds
    exact (sound.filed name held before).of_same binding floors

omit [DecidableEq P] in
theorem maxIssued_setFloor (higher : (inner.floorAt key).maxIssued ≤ f.maxIssued)
    (other : String) : (inner.floorAt other).maxIssued ≤ ((inner.setFloor key f).floorAt other).maxIssued := by
  by_cases same : other = key
  · rw [same, floorAt_setFloor]
    exact higher
  · rw [floorAt_setFloor_of_ne inner f same]

section
variable (sound : Sound o anchors inner)
include sound

theorem Sound.setFloor (higher : (inner.floorAt key).maxIssued ≤ f.maxIssued) :
    Sound o anchors (inner.setFloor key f) :=
  sound.of_same rfl rfl (maxIssued_setFloor higher)

theorem Sound.observe (now : Nat) (key : String) :
    Sound o anchors (inner.observe now key) := sound.setFloor (FloorState.observe_maxIssued _ now).ge

theorem Sound.saved : Sound o anchors inner.saved :=
  sound.of_same rfl rfl fun _ => le_rfl

theorem Sound.dirty (dirty : Bool) :
    Sound o anchors { inner with dirty := dirty } := sound.of_same rfl rfl fun _ => le_rfl

theorem Sound.put (filed : ∀ held, slot.Holds held → Filed o inner name held) :
    Sound o anchors (inner.put name slot) where
  bound := sound.bound
  distinct := Table.nodup_insert sound.distinct name slot
  filed other held holds := by
    by_cases same : other = name
    · subst same
      rw [slotAt_put] at holds
      exact (filed held holds).of_same rfl fun _ => le_rfl
    · rw [slotAt_put_of_ne inner slot same] at holds
      exact (sound.filed other held holds).of_same rfl fun _ => le_rfl

end

/-! ### Deliveries keep it -/

variable {b : BindingRecord} {g : CheckoutGrant} {signed : SignedEnvelope P} {s : CheckoutGrantStore P} {key : Octets}
  {entry : (String × String) × Slot P}

theorem filed_of_admitGrant (i : Inner P)
    (verified : admitGrant o env inner signed = .ok (b, g)) (binding : i.binding = inner.binding)
    (noted : g.isWithdrawal = false → g.issuedAt ≤ (i.floorAt b.grantPubkey).maxIssued) :
    Filed o i g.key ⟨signed, g⟩ := by
  obtain ⟨inEffect, -, -, key, decoded, signature⟩ := admitGrant_ok o verified
  obtain ⟨-, -, ⟨bound, here, rfl⟩, -⟩ := bindingInEffect_ok inEffect
  refine ⟨rfl, ⟨bound, key, binding.trans here, decoded, signature⟩, ?_⟩
  intro permits other there
  obtain rfl : bound = other := some.inj (here.symm.trans (binding ▸ there))
  exact noted permits

theorem Sound.conflict (sound : Sound o anchors inner) (verified : admitGrant o env inner signed = .ok (b, g))
    (ruling : (inner.slotAt g.key).accept ⟨signed, g⟩ = .conflict slot) :
    Sound o anchors ((inner.observe env.now b.grantPubkey).put g.key slot) := by
  apply (sound.observe env.now b.grantPubkey).put
  intro held holds
  obtain ⟨rfl, restricts⟩ | before := Slot.conflict_holds ruling holds
  · refine filed_of_admitGrant (inner.observe env.now b.grantPubkey) verified rfl ?_
    intro permits
    exact absurd (restricts.symm.trans permits) (by decide)
  · exact (sound.observe env.now b.grantPubkey).filed g.key held before

theorem Sound.placed (sound : Sound o anchors s.inner) (verified : admitGrant o env s.inner signed = .ok (b, g))
    (ruling : (s.inner.slotAt g.key).accept ⟨signed, g⟩ = .placed slot) :
    Sound o anchors (placedGrant env s b g slot) := by
  -- noting the issue first and filling the slot afterwards comes to the same
  have noted : Sound o anchors ((s.inner.observe env.now b.grantPubkey).noteIssued b.grantPubkey g.issuedAt) :=
    (sound.observe env.now b.grantPubkey).setFloor (le_max_left _ _)
  apply noted.put
  intro held holds
  obtain rfl | before := Slot.placed_holds ruling holds
  · refine filed_of_admitGrant
      ((s.inner.observe env.now b.grantPubkey).noteIssued b.grantPubkey g.issuedAt) verified rfl ?_
    intro _
    rw [noteIssued, floorAt_setFloor]
    exact le_max_right _ _
  · exact noted.filed g.key held before

omit [DecidableEq P] in
theorem rebind_floorAt (inner : Inner P) (held : Held P BindingRecord) :
    (inner.rebind held).floorAt held.body.grantPubkey = inner.floorAt held.body.grantPubkey := by
  unfold floorAt Inner.rebind
  cases found : inner.floors.lookup held.body.grantPubkey with
  | some f => rw [Table.lookup_filter found (by simp)]
  | none =>
    rw [lookup_eq_none_iff] at found
    rw [lookup_eq_none_iff.mpr]
    intro entry listed
    exact found entry (mem_filter.mp listed).1

theorem Sound.rebind (sound : Sound o anchors inner) (held : Held P BindingRecord)
    (verified : verifyBindingSignature o anchors held.signed = .ok held.body) :
    Sound o anchors (inner.rebind held) := by
  have kept : (inner.rebind held).slots = [] ∨ (inner.rebind held).slots = inner.slots ∧
      ∀ cur, inner.binding = some cur → cur.body.grantPubkey = held.body.grantPubkey := by
    unfold Inner.rebind
    split
    next cur here =>
      split
      · exact .inl rfl
      next same =>
        refine .inr ⟨rfl, ?_⟩
        intro other there
        obtain rfl : cur = other := some.inj (here.symm.trans there)
        simpa using same
    next none =>
      refine .inr ⟨rfl, ?_⟩
      intro other there
      rw [none] at there
      cases there
  constructor
  case bound =>
    intro other here
    obtain rfl : held = other := some.inj here
    exact verified
  case distinct =>
    obtain void | ⟨same, -⟩ := kept
    · rw [void]
      exact nodup_nil
    · rw [same]
      exact sound.distinct
  case filed =>
    intro name other holds
    obtain void | ⟨same, sameKey⟩ := kept
    · rw [slotAt, void] at holds
      obtain here | here := holds <;> cases here
    · rw [slotAt, same] at holds
      have filed := sound.filed name other holds
      obtain ⟨cur, key, here, decoded, signature⟩ := filed.signature
      have keys := sameKey cur here
      refine ⟨filed.named, ⟨held, key, rfl, keys ▸ decoded, signature⟩, ?_⟩
      intro permits b there
      obtain rfl : held = b := some.inj there
      rw [rebind_floorAt, ← keys]
      exact filed.noted permits cur here

/-! ### What is loaded was saved -/

theorem loadHeld_ok {signed : Option (SignedEnvelope P)} (loaded : loadHeld o key signed = .ok (some held)) :
    signed = some held.signed ∧ verifyGrantSignature o held.signed key = .ok held.body := by
  cases signed with
  | none => cases loaded
  | some signed =>
    simp only [loadHeld, bind_ok_iff, pure_ok_iff] at loaded
    obtain ⟨body, signature, same⟩ := loaded
    cases same
    exact ⟨rfl, signature⟩

theorem loadSlot_ok {file : SlotFile P}
    (loaded : loadSlot o key file = .ok (name, slot)) : name = (file.cogId, file.version) ∧
      ∀ held, slot.Holds held → (file.current = some held.signed ∨ file.previous = some held.signed) ∧
        verifyGrantSignature o held.signed key = .ok held.body := by
  simp only [loadSlot, bind_ok_iff, ensure_ok_iff, pure_ok_iff] at loaded
  obtain ⟨current, currentLoaded, previous, previousLoaded, _, -, same⟩ := loaded
  cases same
  refine ⟨rfl, ?_⟩
  intro held holds
  obtain here | here := holds
  · rw [show current = some held from here] at currentLoaded
    obtain ⟨there, signature⟩ := loadHeld_ok currentLoaded
    exact ⟨.inl there, signature⟩
  · rw [show previous = some held from here] at previousLoaded
    obtain ⟨there, signature⟩ := loadHeld_ok previousLoaded
    exact ⟨.inr there, signature⟩

theorem loadSlots_ok {slots result : List ((String × String) × Slot P)}
    (distinct : (slots.map (·.1)).Nodup) (loaded : loadSlots o key files slots = .ok result) :
    (result.map (·.1)).Nodup ∧ ∀ name slot, result.lookup name = some slot →
      slots.lookup name = some slot ∨ ∃ file ∈ files, loadSlot o key file = .ok (name, slot) := by
  induction files generalizing slots with
  | nil =>
    cases loaded
    exact ⟨distinct, fun name slot found => .inl found⟩
  | cons file files ih =>
    simp only [loadSlots, bind_ok_iff] at loaded
    obtain ⟨⟨fileName, fileSlot⟩, first, rest⟩ := loaded
    obtain ⟨unique, origin⟩ := ih (Table.nodup_insert distinct fileName fileSlot) rest
    refine ⟨unique, ?_⟩
    intro name slot found
    obtain before | ⟨later, listed, read⟩ := origin name slot found
    · by_cases same : name = fileName
      · subst same
        rw [Table.lookup_insert_self] at before
        cases before
        exact .inr ⟨file, mem_cons_self, first⟩
      · rw [Table.lookup_insert_other slots fileSlot same] at before
        exact .inl before
    · exact .inr ⟨later, mem_cons_of_mem _ listed, read⟩

theorem Sound.loadBinding_eq (sound : Sound o anchors inner) {binding : Option (Held P BindingRecord)}
    (loaded : loadBinding o anchors (inner.binding.map (·.signed)) = .ok binding) : binding = inner.binding := by
  cases here : inner.binding with
  | none =>
    rw [here] at loaded
    cases loaded
    rfl
  | some held =>
    simp only [here, map_some, loadBinding, bind_ok_iff, pure_ok_iff] at loaded
    obtain ⟨body, signature, rfl⟩ := loaded
    have same : held.body = body := Except.ok.inj ((sound.bound held here).symm.trans signature)
    rw [← same]

omit [DecidableEq P] in
theorem slotAt_of_mem (distinct : (inner.slots.map (·.1)).Nodup)
    (listed : entry ∈ inner.entries) : inner.slotAt entry.1 = entry.2 := by
  rw [slotAt, Table.lookup_of_mem distinct (mem_entries.mp listed)]
  rfl

theorem Sound.holds_of_loadSlot (sound : Sound o anchors inner) {b : Held P BindingRecord}
    (bound : inner.binding = some b) (decoded : hexDecodeExact 32 b.body.grantPubkey = some key)
    (saved : file ∈ inner.fileOf.grants)
    (loaded : loadSlot o key file = .ok (name, slot)) (holds : slot.Holds held) :
    (inner.slotAt name).Holds held := by
  obtain ⟨entry, listed, rfl⟩ := mem_map.mp saved
  obtain ⟨rfl, origin⟩ := loadSlot_ok loaded
  obtain ⟨written, signature⟩ := origin held holds
  have here : inner.slotAt entry.1 = entry.2 := slotAt_of_mem sound.distinct listed
  have original : ∃ h, entry.2.Holds h ∧ h.signed = held.signed := by
    obtain current | previous := written
    · obtain ⟨h, there, same⟩ := map_eq_some_iff.mp current
      exact ⟨h, .inl there, same⟩
    · obtain ⟨h, there, same⟩ := map_eq_some_iff.mp previous
      exact ⟨h, .inr there, same⟩
  obtain ⟨h, there, sameSigned⟩ := original
  obtain ⟨b', key', bound', decoded', signature'⟩ := (sound.filed entry.1 h (here ▸ there)).signature
  obtain rfl : b = b' := some.inj (bound.symm.trans bound')
  obtain rfl : key = key' := some.inj (decoded.symm.trans decoded')
  have sameBody : h.body = held.body := by
    rw [sameSigned] at signature'
    exact Except.ok.inj (signature'.symm.trans signature)
  have same : h = held := by
    cases h
    cases held
    cases sameSigned
    cases sameBody
    rfl
  rw [here, ← same]
  exact there

theorem diskSound_fileOf (sound : Sound o anchors inner) : DiskSound o anchors (.file inner.fileOf) := by
  intro loaded result
  simp only [load, bind_ok_iff, ensure_ok_iff] at result
  obtain ⟨_, -, binding, bindingLoaded, _, -, rest⟩ := result
  obtain rfl : binding = inner.binding := sound.loadBinding_eq bindingLoaded
  split at rest
  · cases rest
    exact ⟨sound.bound, nodup_nil, fun name held holds => by obtain here | here := holds <;> cases here⟩
  · simp only [bind_ok_iff, require_ok_iff, pure_ok_iff] at rest
    obtain ⟨key, keyRead, slots, slotsLoaded, rfl⟩ := rest
    obtain ⟨b, bound, decoded⟩ := bind_eq_some_iff.mp keyRead
    have start : (([] : List ((String × String) × Slot P)).map (·.1)).Nodup := nodup_nil
    obtain ⟨distinct, origin⟩ := loadSlots_ok start slotsLoaded
    refine ⟨sound.bound, distinct, ?_⟩
    intro name held holds
    rw [slotAt] at holds
    dsimp only at holds
    cases found : slots.lookup name with
    | none =>
      rw [found] at holds
      obtain here | here := holds <;> cases here
    | some slot =>
      rw [found, getD_some] at holds
      obtain nothing | ⟨file, saved, loaded⟩ := origin name slot found
      · cases nothing
      · have before := sound.holds_of_loadSlot bound decoded saved loaded holds
        exact (sound.filed name held before).of_same rfl fun _ => le_rfl

section
variable (sound : StoreSound o anchors s)
include sound

theorem StoreSound.save (write : Option LicenceError) :
    StoreSound o anchors (s.save write).2 := by
  cases write with
  | some e => exact sound
  | none => exact ⟨sound.memory.saved, diskSound_fileOf sound.memory⟩

theorem StoreSound.observe (now : Nat) (key : String) :
    StoreSound o anchors (s.observe now key) := ⟨sound.memory.observe now key, sound.disk⟩

theorem StoreSound.commitRestrictive {next : Inner P} (memory : Sound o anchors next) (write : Option LicenceError) :
    StoreSound o anchors (s.commitRestrictive write next).2 := by
  cases write with
  | some e => exact ⟨memory.dirty true, sound.disk⟩
  | none => exact ⟨memory.saved, diskSound_fileOf memory⟩

theorem StoreSound.acceptGrant (env : Env) (signed : SignedEnvelope P) :
    StoreSound o anchors (s.acceptGrant o env signed).2 := by
  obtain ⟨result, s', call, step⟩ := acceptGrant_step o env s signed
  simp only [call]
  cases step with
  | unverified => exact sound
  | early | full | refused | kept | unsaved => exact sound.observe _ _
  | conflict verified ruling =>
    exact (sound.observe _ _).commitRestrictive (sound.memory.conflict verified ruling) _
  | withdrawn verified ruling =>
    exact (sound.observe _ _).commitRestrictive (sound.memory.placed verified ruling) _
  | granted verified ruling =>
    have memory := sound.memory.placed verified ruling
    exact ⟨memory.saved, diskSound_fileOf memory⟩

theorem StoreSound.acceptBinding (env : Env) (signed : SignedEnvelope P) (posture : AdmissionPosture)
    (extra : BindingRecord → Except LicenceError Unit) :
    StoreSound o anchors (s.acceptBinding o anchors env signed posture extra).2 := by
  obtain ⟨result, s', call, step⟩ := acceptBinding_step o anchors env s signed posture extra
  simp only [call]
  cases step with
  | idle | lost => exact sound
  | unbound verified =>
    exact sound.commitRestrictive (sound.memory.rebind ⟨signed, _⟩ (admitBinding_ok o anchors verified).2.1) _
  | bound verified =>
    have memory := sound.memory.rebind ⟨signed, _⟩ (admitBinding_ok o anchors verified).2.1
    exact ⟨memory.saved, diskSound_fileOf memory⟩

theorem StoreSound.upkeep (upkeep : Upkeep True s t) : StoreSound o anchors t := by
  induction upkeep with
  | refl => exact sound
  | observe _ now key ih => exact ih.observe now key
  | reset _ _ key now ih => exact ⟨ih.memory.setFloor (FloorState.reset_maxIssued _ _).ge, ih.disk⟩
  | save _ write ih => exact ih.save write
  | noteBound _ _ ih => exact ⟨ih.memory, ih.disk⟩

end

theorem StoreSound.openOrPoisoned {disk : Disk (StoreFile P)} (sound : DiskSound o anchors disk) (marker : Bool) :
    StoreSound o anchors (openOrPoisoned o anchors disk marker) := by
  unfold Store.openOrPoisoned
  split
  next inner loaded => exact ⟨sound inner loaded, sound⟩
  · exact ⟨sound_empty.of_same rfl rfl fun _ => le_rfl, sound⟩

theorem step_sound (n : Node P) (act : Act P) (sound : StoreSound o anchors n.grants) :
    StoreSound o anchors (step o anchors n act).grants := by
  cases act with
  | bind env signed posture extra => exact sound.acceptBinding env signed posture extra
  | grant env signed => exact sound.acceptGrant env signed
  | approve env signed => exact sound
  | query kind env => exact sound.upkeep (.asked kind env)
  | tick env => exact sound.upkeep (.tick env)
  | resetFloor env => exact sound.upkeep (.resetFloor env)
  | everBound env => exact sound.upkeep (.wasEverBound env)
  | tamper how =>
    cases how with
    | deleted =>
      refine ⟨sound.memory, ?_⟩
      intro inner loaded
      cases loaded
      exact sound_empty
    | spoiled why =>
      refine ⟨sound.memory, ?_⟩
      intro inner loaded
      cases loaded
  | restart => exact StoreSound.openOrPoisoned sound.disk n.grants.marker

/-- Whatever happened to a node since it was set up, what it holds is sound. -/
theorem run_sound (acts : List (Act P)) : StoreSound o anchors (Run.run (step o anchors) {} acts).grants := by
  refine @Run.run_always _ _ _ (fun n : Node P => StoreSound o anchors n.grants) step_sound {} acts ⟨sound_empty, ?_⟩
  intro inner loaded
  cases loaded
  exact sound_empty

theorem current_of_mem_entries (sound : Sound o anchors inner)
    (listed : entry ∈ inner.entries) (current : entry.2.current = some held) :
    (inner.slotAt held.body.key).current = some held := by
  have here : inner.slotAt entry.1 = entry.2 := slotAt_of_mem sound.distinct listed
  have named := (sound.filed entry.1 held (.inl (here.symm ▸ current))).named
  rw [named, here]
  exact current

end

/-! ### A sample outside: every signature verifies, and one binary has a digest of its own -/

namespace Sample

inductive Text where
  | grant (g : CheckoutGrant)
  | binding (b : BindingRecord)
  | approval (a : Approval)
  deriving DecidableEq

def zeros : String := String.ofList (replicate 64 '0')

def ones : String := String.ofList (replicate 64 '1')

def outside : Outside Text where
  size _ := 0
  publicKey secret := secret
  sign _ _ _ := replicate 64 0
  verifyStrict _ _ _ _ := true
  sha256Hex bytes := if bytes = [2] then ones else zeros
  blake3Hex bytes := if bytes = [2] then ones else zeros
  textSha256Hex _ := zeros
  grantText := .grant
  parseGrant
    | .grant g => .ok g
    | _ => .error "not a grant"
  parseGrant_grantText _ := rfl
  bindingText := .binding
  parseBinding
    | .binding b => .ok b
    | _ => .error "not a binding"
  approvalText := .approval
  parseApproval
    | .approval a => .ok a
    | _ => .error "not an approval"

def operatorKey : Octets := replicate 32 1

def grantKey : Octets := replicate 32 2

def anchors : TrustAnchors := ⟨fun key => key = operatorKey, fun key => key = operatorKey⟩

def binding : BindingRecord where
  v := 2
  deviceId := "seed"
  devicePubkey := zeros
  meshId := zeros
  grantPubkey := hexEncode grantKey
  stewardNodeId := "steward"
  stewardPubkey := zeros
  state := .bound
  seq := 1
  boundAt := 0

def signedBinding (b : BindingRecord) : SignedEnvelope Text :=
  signEnvelope outside BINDING_DOMAIN (.binding b) operatorKey

def grant (seq issuedAt expiresAt : Nat) : CheckoutGrant where
  v := 1
  grantId := zeros
  meshId := zeros
  seedDeviceId := "seed"
  grantKeyId := "ed25519:0000000000000000"
  source := "cognitum"
  registry := "registry"
  cogId := "cog"
  version := "1"
  artifacts := [⟨"aarch64", 1, zeros, zeros⟩]
  manifestSha256 := zeros
  licence := ⟨zeros, MAX_UNIX_TIME⟩
  seq := seq
  issuedAt := issuedAt
  expiresAt := expiresAt

def signedGrant (g : CheckoutGrant) : SignedEnvelope Text := signGrant outside g grantKey

def approval : Approval where
  v := 1
  meshId := zeros
  cogId := "cog"
  version := "1"
  sha256 := [zeros]
  approvedAt := 100

def signedApproval (a : Approval) : SignedEnvelope Text :=
  signEnvelope outside APPROVAL_DOMAIN (.approval a) operatorKey

def env (now : Nat) : Env where
  now := now
  localMesh := some zeros
  localAgain := some zeros
  keyRevoked _ := false
  hashRevoked _ := false
  write := none
  writeAgain := none
  markerWrite := true

def posture : AdmissionPosture := ⟨true, true, false⟩

def bind : Act Text := .bind (env 100) (signedBinding binding) posture fun _ => .ok ()

end Sample

end Weftos.Licence.Member
