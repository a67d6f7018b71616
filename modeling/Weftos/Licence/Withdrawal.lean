import Weftos.Licence.Member

/-! Withdrawals over runs of deliveries. A slot remembers two grants, so a withdrawal is final as long
as no more than one number above it was signed twice. -/

namespace Weftos.Licence.Withdrawal
open Lib Lib.Bytes Wire Store Member

section
variable {P : Type} [DecidableEq P] (o : Outside P) {deliveries : List (Env × SignedEnvelope P)}

def deliver (s : CheckoutGrantStore P) (delivery : Env × SignedEnvelope P) : CheckoutGrantStore P :=
  (s.acceptGrant o delivery.1 delivery.2).2

def Delivered (deliveries : List (Env × SignedEnvelope P)) (key : Octets) (held : Held P CheckoutGrant) : Prop :=
  ∃ delivery ∈ deliveries, delivery.2 = held.signed ∧ verifyGrantSignature o held.signed key = .ok held.body

def SignedTwice (deliveries : List (Env × SignedEnvelope P)) (key : Octets) (name : String × String) (seq : Nat) :
    Prop :=
  ∃ first second, Delivered o deliveries key first ∧ Delivered o deliveries key second ∧
    first.body.key = name ∧ second.body.key = name ∧ first.body.seq = seq ∧ second.body.seq = seq ∧
    first.signed.payload ≠ second.signed.payload

section
variable (deliveries : List (Env × SignedEnvelope P)) (key : Octets) (name : String × String) (w : Nat)

/-- The grant is at or above the withdrawal's number, and at that number a withdrawal itself. -/
structure Above (held : Held P CheckoutGrant) : Prop where
  named : held.body.key = name
  seq : w ≤ held.body.seq
  tombstone : held.body.seq = w → held.body.isWithdrawal = true
  delivered : w < held.body.seq → Delivered o deliveries key held

/-- The current grant of the slot is not below the withdrawal, and there is something to fall back to unless a
number above it has been contested already. -/
def Remembers (slot : Slot P) : Prop := ∃ cur, slot.current = some cur ∧ Above o deliveries key name w cur ∧
  (w < cur.body.seq → (∃ prev, slot.previous = some prev ∧ Above o deliveries key name w prev) ∨
    ∃ n ∈ slot.conflicted, w < n ∧ SignedTwice o deliveries key name n)

variable {o deliveries key name w} {held : Held P CheckoutGrant} {slot : Slot P}
  (remembers : Remembers o deliveries key name w slot) (named : held.body.key = name)
  (delivered : Delivered o deliveries key held)
include remembers named delivered

theorem Remembers.placed (ruling : slot.accept held = .placed slot') :
    Remembers o deliveries key name w slot' := by
  obtain ⟨cur, current, above, -⟩ := remembers
  obtain ⟨rfl, -, newer⟩ := Slot.accept_placed ruling
  have rises : w < held.body.seq := lt_of_le_of_lt above.seq (newer cur current).1
  refine ⟨held, rfl, ⟨named, rises.le, ?_, fun _ => delivered⟩, fun _ => .inl ⟨cur, current, above⟩⟩
  intro same
  omega

theorem Remembers.conflict
    (single : ∀ m n, w < m → w < n → SignedTwice o deliveries key name m → SignedTwice o deliveries key name n → m = n)
    (ruling : slot.accept held = .conflict slot') : Remembers o deliveries key name w slot' := by
  obtain ⟨cur, current, above, backed⟩ := remembers
  obtain ⟨cur', current', sameSeq, apart, fresh, rfl⟩ := Slot.accept_conflict ruling
  obtain rfl : cur = cur' := Option.some.inj (current.symm.trans current')
  have contested : w < cur.body.seq → SignedTwice o deliveries key name cur.body.seq := fun over_ =>
    ⟨cur, held, above.delivered over_, delivered, above.named, named, rfl, sameSeq, apart⟩
  have listed : ∀ slot' : Slot P, slot'.conflicted = slot.conflicted ++ [held.body.seq] → w < cur.body.seq →
      ∃ n ∈ slot'.conflicted, w < n ∧ SignedTwice o deliveries key name n := by
    intro slot' same higher
    refine ⟨cur.body.seq, ?_, higher, contested higher⟩
    rw [same, sameSeq]
    exact List.mem_append_right _ List.mem_cons_self
  unfold Slot.conflictAt
  split
  next withdrawal found =>
    have restricts := List.find?_some found
    have either := List.mem_of_find?_eq_some found
    simp only [List.mem_cons, List.not_mem_nil, or_false] at either
    obtain rfl | rfl := either
    · exact ⟨withdrawal, rfl, above, fun higher => .inr (listed _ rfl higher)⟩
    · refine ⟨withdrawal, rfl, ⟨named, sameSeq ▸ above.seq, fun _ => restricts, fun _ => delivered⟩, ?_⟩
      intro higher
      exact .inr (listed _ rfl (sameSeq ▸ higher))
  next neither =>
    -- the contested grant was no withdrawal, so its number lies above
    have higher : w < cur.body.seq := by
      refine lt_of_le_of_ne above.seq ?_
      intro same
      have restricts := above.tombstone same.symm
      have none := List.find?_eq_none.mp neither cur List.mem_cons_self
      exact none restricts
    obtain ⟨prev, previous, behind⟩ | ⟨n, already, over_, twice⟩ := backed higher
    · exact ⟨prev, previous, behind, fun _ => .inr (listed _ rfl higher)⟩
    · -- a second contested number would be the first one again, which is refused for good
      have same := single n cur.body.seq over_ higher twice (contested higher)
      rw [same, ← sameSeq] at already
      exact absurd already fresh

end

theorem remembers_deliver
    (binding : s.inner.binding = some bound) (decoded : hexDecodeExact 32 bound.body.grantPubkey = some key)
    (single : ∀ m n, w < m → w < n → SignedTwice o deliveries key name m → SignedTwice o deliveries key name n → m = n)
    (remembers : Remembers o deliveries key name w (s.inner.slotAt name))
    (listed : delivery ∈ deliveries) : Remembers o deliveries key name w
    ((deliver o s delivery).inner.slotAt name) := by
  obtain same | ⟨b, g, slot, verified, rfl, ruling, result⟩ := acceptGrant_slotAt o delivery.1 s delivery.2 name
  · rw [deliver, same]
    exact remembers
  · obtain ⟨inEffect, -, -, key', decoded', signature⟩ := admitGrant_ok o verified
    obtain ⟨-, -, ⟨bound', binding', rfl⟩, -⟩ := bindingInEffect_ok inEffect
    obtain rfl : bound = bound' := Option.some.inj (binding.symm.trans binding')
    obtain rfl : key = key' := Option.some.inj (decoded.symm.trans decoded')
    have delivered : Delivered o deliveries key ⟨delivery.2, g⟩ := ⟨delivery, listed, rfl, signature⟩
    rw [deliver, result]
    obtain placed | conflict := ruling
    · exact remembers.placed rfl delivered placed
    · exact remembers.conflict rfl delivered single conflict

theorem current_of_applied {s : CheckoutGrantStore P} (verified : admitGrant o env s.inner signed = .ok (b, g))
    (applied : (s.acceptGrant o env signed).1 = .ok .applied ∨ (s.acceptGrant o env signed).1 = .ok .appliedUnsaved) :
    ((s.acceptGrant o env signed).2.inner.slotAt g.key).current = some ⟨signed, g⟩ := by
  obtain ⟨result, s', call, step⟩ := acceptGrant_step o env s signed
  simp only [call] at applied ⊢
  have placed : ∀ {slot : Slot P}, (s.inner.slotAt g.key).accept ⟨signed, g⟩ = .placed slot →
      ((s.inner.put g.key slot).slotAt g.key).current = some ⟨signed, g⟩ := by
    intro slot ruling
    obtain ⟨rfl, -, -⟩ := Slot.accept_placed ruling
    rw [Inner.slotAt_put]
    rfl
  cases step with
  | unverified | early | full | refused | conflict | unsaved => simp at applied
  | kept _ ruling =>
    obtain ⟨rfl | rfl, -⟩ := Slot.accept_kept ruling <;> simp at applied
  | @withdrawn _ _ slot verified' ruling =>
    cases Except.ok.inj (verified.symm.trans verified')
    have here : ((s.observe env.now b.grantPubkey).commitRestrictive env.write
        (placedGrant env s b g slot)).2.inner.slotAt g.key = (s.inner.put g.key slot).slotAt g.key := by
      cases env.write <;> rfl
    rw [here]
    exact placed ruling
  | granted verified' ruling =>
    cases Except.ok.inj (verified.symm.trans verified')
    exact placed ruling

/-- The run lemma: the slot still remembers the withdrawal after every later delivery. -/
theorem remembers_run {start : CheckoutGrantStore P} {w : CheckoutGrant} {key : Octets}
    (verified : admitGrant o env start.inner signed = .ok (b, w)) (restricts : w.isWithdrawal = true)
    (bound : hexDecodeExact 32 b.grantPubkey = some key)
    (applied : (start.acceptGrant o env signed).1 = .ok .applied ∨
      (start.acceptGrant o env signed).1 = .ok .appliedUnsaved)
    (single : ∀ m n, w.seq < m → w.seq < n → SignedTwice o deliveries key w.key m →
      SignedTwice o deliveries key w.key n → m = n) :
    Remembers o deliveries key w.key w.seq
      ((Run.run (deliver o) (deliver o start (env, signed)) deliveries).inner.slotAt w.key) := by
  obtain ⟨-, -, ⟨held, binding, rfl⟩, -⟩ := bindingInEffect_ok (admitGrant_ok o verified).1
  have kept : ∀ (s : CheckoutGrantStore P) (delivery : Env × SignedEnvelope P),
      s.inner.binding = some held ∧ Remembers o deliveries key w.key w.seq (s.inner.slotAt w.key) →
      delivery ∈ deliveries → (deliver o s delivery).inner.binding = some held ∧
        Remembers o deliveries key w.key w.seq ((deliver o s delivery).inner.slotAt w.key) := by
    intro s delivery before listed
    refine ⟨(acceptGrant_binding o delivery.1 s delivery.2).trans before.1, ?_⟩
    exact remembers_deliver o before.1 bound single before.2 listed
  have first : Remembers o deliveries key w.key w.seq ((deliver o start (env, signed)).inner.slotAt w.key) := by
    refine ⟨⟨signed, w⟩, current_of_applied o verified applied, ?_, ?_⟩
    · exact ⟨rfl, le_rfl, fun _ => restricts, fun higher => absurd higher (lt_irrefl _)⟩
    · exact fun higher => absurd higher (lt_irrefl _)
  have start := (acceptGrant_binding o env start signed).trans binding
  exact (Run.run_keeps_mem kept ⟨start, first⟩ fun _ listed => listed).2

/-- Once a withdrawal was applied, no grant of its cog version with a lower number is current or reported valid
again, if the bound key signed two payloads at no more than one number above it. -/
theorem withdrawal_final (anchors : TrustAnchors) (history : List (Act P)) (env : Env) (signed : SignedEnvelope P)
    (b : BindingRecord) (w : CheckoutGrant) (key : Octets) (deliveries : List (Env × SignedEnvelope P))
    (verified : admitGrant o env (Run.run (step o anchors) {} history).grants.inner signed = .ok (b, w))
    (restricts : w.isWithdrawal = true) (bound : hexDecodeExact 32 b.grantPubkey = some key)
    (applied : ((Run.run (step o anchors) {} history).grants.acceptGrant o env signed).1 = .ok .applied ∨
      ((Run.run (step o anchors) {} history).grants.acceptGrant o env signed).1 = .ok .appliedUnsaved)
    (single : ∀ m n, w.seq < m → w.seq < n → SignedTwice o deliveries key w.key m →
      SignedTwice o deliveries key w.key n → m = n) :
    let s := Run.run (deliver o) (deliver o (Run.run (step o anchors) {} history).grants (env, signed)) deliveries
    (∀ held, (s.inner.slotAt w.key).current = some held → w.seq ≤ held.body.seq) ∧
      ∀ later, (∀ v ∈ (s.verifiedGrants later).1, v.grant.key = w.key → w.seq ≤ v.grant.seq) ∧
        ∀ row ∈ (s.grantRows later).1, row.valid = true → (row.cogId, row.version) = w.key → w.seq ≤ row.seq := by
  intro s
  obtain ⟨cur, current, above, -⟩ := remembers_run o verified restricts bound applied single
  have sound : StoreSound o anchors s :=
    Run.run_always (fun s delivery sound => sound.acceptGrant delivery.1 delivery.2) deliveries
      ((run_sound history).acceptGrant env signed)
  have judged : ∀ held, (s.inner.slotAt w.key).current = some held → w.seq ≤ held.body.seq := by
    intro other here
    obtain rfl : cur = other := Option.some.inj (current.symm.trans here)
    exact above.seq
  refine ⟨judged, ?_⟩
  intro later
  constructor
  · intro v listed own
    obtain ⟨_, entry, other, -, -, filed, here, same, -, -⟩ := CheckoutGrantStore.mem_verifiedGrants listed
    have slot := current_of_mem_entries sound.memory filed here
    rw [same, own] at slot
    exact same ▸ judged other slot
  · intro row listed valid own
    obtain ⟨_, entry, other, -, -, filed, here, rfl, -, -⟩ := CheckoutGrantStore.mem_grantRows listed valid
    have slot := current_of_mem_entries sound.memory filed here
    rw [show other.body.key = w.key from own] at slot
    exact judged other slot

end

section
open Sample

def deliverAt (now : Nat) (g : CheckoutGrant) : Env × SignedEnvelope Text := (env now, signedGrant g)

def contested : List (Env × SignedEnvelope Text) :=
  [deliverAt 100 (grant 6 100 900), deliverAt 100 (grant 6 100 901), deliverAt 100 (grant 4 100 900)]

theorem withdrawal_final_contested :
    let s := Run.run (deliver outside) (deliver outside (Run.run (step outside anchors) {} [bind]).grants
      (deliverAt 100 (grant 5 100 50))) contested
    ∀ held, (s.inner.slotAt ("cog", "1")).current = some held → 5 ≤ held.body.seq := by
  have numbers : ∀ held, Delivered outside contested grantKey held → held.body.seq ≤ 6 := by
    rintro ⟨signed, body⟩ ⟨delivery, listed, same, signature⟩
    dsimp only at same signature
    subst same
    have read : ∀ delivery ∈ contested, ∀ g, verifyGrantSignature outside delivery.2 grantKey = .ok g → g.seq ≤ 6 := by
      decide +kernel
    exact read delivery listed body signature
  have single : ∀ m n, 5 < m → 5 < n → SignedTwice outside contested grantKey ("cog", "1") m →
      SignedTwice outside contested grantKey ("cog", "1") n → m = n := by
    rintro m n highM highN ⟨first, _, deliveredM, -, -, -, rfl, -, -⟩ ⟨second, _, deliveredN, -, -, -, rfl, -, -⟩
    have boundM := numbers first deliveredM
    have boundN := numbers second deliveredN
    omega
  exact (withdrawal_final outside anchors [bind] (env 100) (signedGrant (grant 5 100 50)) binding (grant 5 100 50)
    grantKey contested (by decide +kernel) (by decide) (by decide +kernel) (by decide +kernel) single).1

/-- Two contested numbers above the withdrawal empty the slot, and an older grant is taken again. -/
theorem withdrawal_forgotten :
    let s := Run.run (deliver outside) (Run.run (step outside anchors) {} [bind]).grants
      [deliverAt 100 (grant 5 100 50), deliverAt 100 (grant 6 100 900), deliverAt 100 (grant 7 100 900),
        deliverAt 100 (grant 7 100 901), deliverAt 100 (grant 6 100 901), deliverAt 100 (grant 4 100 900)]
    ((Run.run (step outside anchors) {} [bind]).grants.acceptGrant outside (env 100)
        (signedGrant (grant 5 100 50))).1 = .ok .applied ∧ (grant 5 100 50).isWithdrawal = true ∧
      (s.inner.slotAt ("cog", "1")).current = some ⟨signedGrant (grant 4 100 900), grant 4 100 900⟩ ∧
      (s.verifiedGrants (env 100)).1 = [⟨grant 4 100 900, hexEncode grantKey⟩] := by
  decide +kernel

end

end Weftos.Licence.Withdrawal
