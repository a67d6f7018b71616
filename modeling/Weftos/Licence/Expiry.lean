import Weftos.Licence.Member

/-! Expiry under a clock that jumps: within one process and under one grant key the floor only rises. -/

namespace Weftos.Licence.Expiry
open Lib Lib.Bytes Wire Store Member CheckoutGrantStore

variable (f : FloorState)

/-! ### The floor rises -/

structure Rises (f f' : FloorState) : Prop where
  maxIssued : f.maxIssued ≤ f'.maxIssued
  hw : f.hw ≤ f'.hw

namespace Rises

theorem refl : Rises f f := ⟨le_rfl, le_rfl⟩

theorem trans {f g h : FloorState} (first : Rises f g) (second : Rises g h) : Rises f h :=
  ⟨first.maxIssued.trans second.maxIssued, first.hw.trans second.hw⟩

theorem observe (now : Nat) : Rises f (f.observe now) :=
  ⟨(f.observe_maxIssued now).ge, f.hw_le_observe now⟩

theorem noteIssued (issuedAt : Nat) : Rises f (f.noteIssued issuedAt) := ⟨le_max_left _ _, le_rfl⟩

theorem floor {f f' : FloorState} (rises : Rises f f') : f.floor ≤ f'.floor := max_le_max rises.maxIssued rises.hw

end Rises

section
variable {P : Type} {key : String}

theorem rises_setFloor {inner : Inner P} {f : FloorState} (rises : Rises (inner.floorAt key) f)
    (other : String) : Rises (inner.floorAt other) ((inner.setFloor key f).floorAt other) := by
  by_cases same : other = key
  · rw [same, Inner.floorAt_setFloor]
    exact rises
  · rw [Inner.floorAt_setFloor_of_ne inner f same]
    exact .refl _

theorem rises_observe (inner : Inner P) (now : Nat) (key other : String) :
    Rises (inner.floorAt other) ((inner.observe now key).floorAt other) := rises_setFloor (.observe _ now) other

theorem rises_upkeep (upkeep : Upkeep False s t) (key : String) :
    Rises (s.inner.floorAt key) (t.inner.floorAt key) := by
  induction upkeep with
  | refl => exact .refl _
  | observe _ now other ih => exact ih.trans (rises_observe _ now other key)
  | reset _ allowed => exact allowed.elim
  | save _ write ih => cases write <;> exact ih
  | noteBound _ _ ih => exact ih

variable [DecidableEq P] {o : Outside P} {anchors : TrustAnchors}

omit [DecidableEq P] in
theorem rises_placedGrant (env : Env) (s : CheckoutGrantStore P) (b : BindingRecord) (g : CheckoutGrant) (slot : Slot P)
    (key : String) : Rises (s.inner.floorAt key) ((placedGrant env s b g slot).floorAt key) :=
  (rises_observe s.inner env.now b.grantPubkey key).trans (rises_setFloor (.noteIssued _ _) key)

theorem rises_acceptGrant (env : Env) (s : CheckoutGrantStore P) (signed : SignedEnvelope P) (key : String) :
    Rises (s.inner.floorAt key) ((s.acceptGrant o env signed).2.inner.floorAt key) := by
  obtain ⟨result, s', call, step⟩ := acceptGrant_step o env s signed
  simp only [call]
  cases step with
  | unverified => exact .refl _
  | early | full | refused | kept | unsaved => exact rises_observe _ _ _ _
  | @conflict b g slot =>
    cases env.write <;> exact rises_observe s.inner env.now b.grantPubkey key
  | @withdrawn b g slot =>
    cases env.write <;> exact rises_placedGrant env s b g slot key
  | @granted b g slot => exact rises_placedGrant env s b g slot key

def boundKey (n : Node P) : Option String := n.grants.inner.binding.map (·.body.grantPubkey)

theorem rises_acceptBinding (env : Env) (s : CheckoutGrantStore P) (signed : SignedEnvelope P)
    (posture : AdmissionPosture) (extra : BindingRecord → Except LicenceError Unit)
    (same : (s.acceptBinding o anchors env signed posture extra).2.inner.binding.map (·.body.grantPubkey) = some key) :
    Rises (s.inner.floorAt key) ((s.acceptBinding o anchors env signed posture extra).2.inner.floorAt key) := by
  obtain ⟨result, s', call, step⟩ := acceptBinding_step o anchors env s signed posture extra
  simp only [call] at same ⊢
  -- the floor of the new binding's key is the one that is kept
  have kept : ∀ record : BindingRecord, record.grantPubkey = key →
      (s.inner.rebind ⟨signed, record⟩).floorAt key = s.inner.floorAt key := by
    rintro record rfl
    exact rebind_floorAt s.inner ⟨signed, record⟩
  cases step with
  | idle | lost => exact .refl _
  | @unbound record =>
    cases written : env.write with
    | none | some e =>
      rw [written] at same
      rw [← kept record (Option.some.inj same)]
      exact .refl _
  | @bound record =>
    rw [← kept record (Option.some.inj same)]
    exact .refl _

variable (o anchors) in
/-- The act belongs to one process, is no reset of the floor and keeps the bound key. -/
def Continues (n : Node P) : Act P → Prop
  | .restart => False
  | .resetFloor _ => False
  | act => boundKey (step o anchors n act) = boundKey n

theorem step_rises (continues : Continues o anchors n act)
    (bound : boundKey n = some key) : boundKey (step o anchors n act) = some key ∧
      Rises (n.grants.inner.floorAt key) ((step o anchors n act).grants.inner.floorAt key) := by
  cases act with
  | restart | resetFloor => exact continues.elim
  | bind env signed posture extra =>
    have same := continues.trans bound
    exact ⟨same, rises_acceptBinding env n.grants signed posture extra same⟩
  | grant env signed => exact ⟨continues.trans bound, rises_acceptGrant env n.grants signed key⟩
  | approve => exact ⟨bound, .refl _⟩
  | query kind env => exact ⟨continues.trans bound, rises_upkeep (.asked kind env) key⟩
  | tick env => exact ⟨continues.trans bound, rises_upkeep (.tick env) key⟩
  | everBound env => exact ⟨continues.trans bound, rises_upkeep (.wasEverBound env) key⟩
  | tamper how =>
    cases how <;> exact ⟨bound, .refl _⟩

theorem run_rises (along : Run.Along (step o anchors) (Continues o anchors) n acts)
    (bound : boundKey n = some key) : boundKey (Run.run (step o anchors) n acts) = some key ∧
      Rises (n.grants.inner.floorAt key) ((Run.run (step o anchors) n acts).grants.inner.floorAt key) := by
  induction acts generalizing n with
  | nil => exact ⟨bound, .refl _⟩
  | cons act acts ih =>
    obtain ⟨still, first⟩ := step_rises along.1 bound
    obtain ⟨finally_, rest⟩ := ih along.2 still
    exact ⟨finally_, first.trans rest⟩

/-! ### What was judged expired -/

def Expired (g : CheckoutGrant) (time : Nat) : Prop := g.expiresAt ≤ time ∨ g.licence.expires ≤ time

instance (g : CheckoutGrant) (time : Nat) : Decidable (Expired g time) := inferInstanceAs (Decidable (_ ∨ _))

theorem grantValid_expired (expired : Expired g time) (order : time ≤ later) :
    grantValid g later = false := by
  unfold Expired at expired
  simp only [grantValid, Bool.and_eq_false_iff, decide_eq_false_iff_not]
  omega

theorem expired_floor {f : FloorState} (issued : 0 < g.issuedAt)
    (noted : g.issuedAt ≤ f.maxIssued) (lifetime : g.expiresAt ≤ g.issuedAt + MAX_GRANT_TTL_SECS)
    (range : g.expiresAt ≤ MAX_UNIX_TIME) (expired : Expired g ((f.observe now).effectiveNow now)) :
    Expired g (f.observe now).floor := by
  have marked := FloorState.le_observe_hw (issued.trans_le noted) now
  have below : (f.observe now).hw ≤ (f.observe now).floor := le_max_right _ _
  by_cases ahead : now ≤ (f.observe now).floor
  · rwa [FloorState.effectiveNow, max_eq_right ahead] at expired
  · -- the clock ran past the cap, so the mark stands at the cap
    have cap : saturatingAdd f.maxIssued FAR_FUTURE_CLAMP_SECS ≤ (f.observe now).hw := by omega
    have beyond : g.expiresAt ≤ saturatingAdd f.maxIssued FAR_FUTURE_CLAMP_SECS := by
      apply le_saturatingAdd
      · calc g.expiresAt ≤ g.issuedAt + MAX_GRANT_TTL_SECS := lifetime
          _ ≤ f.maxIssued + FAR_FUTURE_CLAMP_SECS := Nat.add_le_add noted (by decide)
      · exact range.trans (by decide)
    exact .inl (beyond.trans (cap.trans below))

/-- The query judges held grants: a binding is in effect, and for the valid grants its key unrevoked. -/
def Judges (kind : Query) (env : Env) (inner : Inner P) (b : BindingRecord) : Prop :=
  bindingInEffect env inner = .ok b ∧ (kind = .valid → env.keyRevoked b.grantPubkey = false)

omit [DecidableEq P] in
theorem asked_judges (judges : Judges kind env s.inner b) : asked kind env s = s.observe env.now b.grantPubkey := by
  obtain ⟨inEffect, unrevoked⟩ := judges
  cases kind with
  | valid =>
    rw [asked, verifiedGrants, inEffect]
    dsimp only
    rw [unrevoked rfl]
    rfl
  | rows | floor | effectiveNow => simp only [asked, grantRows, floor,
      effectiveNow, inEffect]

variable {held : Held P CheckoutGrant}

theorem expired_observed {inner : Inner P} (sound : Sound o anchors inner)
    (current : (inner.slotAt name).current = some held)
    (permits : held.body.isWithdrawal = false) (issued : 0 < held.body.issuedAt)
    (binding : inner.binding = some bound)
    (expired : Expired held.body (inner.effNow now bound.body.grantPubkey)) :
    Expired held.body ((inner.observe now bound.body.grantPubkey).floorAt bound.body.grantPubkey).floor := by
  have filed := sound.filed name held (.inl current)
  obtain ⟨_, key, -, -, signature⟩ := filed.signature
  obtain ⟨lifetime, -, range, -⟩ := checkShape_times o (verifyGrantSignature_ok o signature).2
  rw [Inner.effNow, Inner.observe, Inner.floorAt_setFloor] at expired
  rw [Inner.observe, Inner.floorAt_setFloor]
  exact expired_floor issued (filed.noted permits bound binding) lifetime range expired

omit [DecidableEq P] in
theorem floor_le_effNow (inner : Inner P) (now : Nat) (key : String) :
    (inner.floorAt key).floor ≤ inner.effNow now key := by
  have rises := rises_observe inner now key key
  exact rises.floor.trans (le_max_right _ _)

theorem invalid_later (sound : StoreSound o anchors n.grants)
    (judges : Judges kind env n.grants.inner b) (current : (n.grants.inner.slotAt name).current = some held)
    (issued : 0 < held.body.issuedAt) (expired : Expired held.body (n.grants.inner.effNow env.now b.grantPubkey))
    (along : Run.Along (step o anchors) (Continues o anchors) (step o anchors n (.query kind env)) acts)
    (inEffect : bindingInEffect later
      (Run.run (step o anchors) n (.query kind env :: acts)).grants.inner = .ok b') :
    grantValid held.body ((Run.run (step o anchors) n (.query kind env :: acts)).grants.inner.effNow later.now
      b'.grantPubkey) = false := by
  by_cases permits : held.body.isWithdrawal = false
  · obtain ⟨-, -, ⟨bound, binding, rfl⟩, -⟩ := bindingInEffect_ok judges.1
    have marked := expired_observed sound.memory current permits issued binding expired
    have observed : (step o anchors n (.query kind env)).grants = n.grants.observe env.now bound.body.grantPubkey :=
      asked_judges judges
    have key : boundKey (step o anchors n (.query kind env)) = some bound.body.grantPubkey := by
      rw [boundKey, observed]
      exact congrArg _ binding
    obtain ⟨still, rises⟩ := run_rises along key
    obtain ⟨-, -, ⟨bound', binding', rfl⟩, -⟩ := bindingInEffect_ok inEffect
    have same : bound'.body.grantPubkey = bound.body.grantPubkey := by
      rw [boundKey, ← Run.run_cons, binding'] at still
      exact Option.some.inj still
    rw [same]
    rw [observed] at rises
    apply grantValid_expired marked
    exact rises.floor.trans (floor_le_effNow _ _ _)
  · have restricts : held.body.isWithdrawal = true := by simpa using permits
    simp [grantValid, restricts]

/-- Once a query has judged a held grant expired, no later query of the process reports it valid, whatever the
clock does; for every grant that was not issued at time zero. -/
theorem expired_for_good (history acts : List (Act P)) (kind : Query) (env later : Env) (b : BindingRecord)
    (name : String × String) (held : Held P CheckoutGrant)
    (judges : Judges kind env (Run.run (step o anchors) {} history).grants.inner b)
    (current : ((Run.run (step o anchors) {} history).grants.inner.slotAt name).current = some held)
    (issued : 0 < held.body.issuedAt)
    (expired : Expired held.body ((Run.run (step o anchors) {} history).grants.inner.effNow env.now b.grantPubkey))
    (along : Run.Along (step o anchors) (Continues o anchors)
      (step o anchors (Run.run (step o anchors) {} history) (.query kind env)) acts) :
    let s := (Run.run (step o anchors) {} (history ++ .query kind env :: acts)).grants
    (∀ v ∈ (s.verifiedGrants later).1, v.grant ≠ held.body) ∧
      ∀ row ∈ (s.grantRows later).1, row.valid = true → row ≠ grantRow held.body true := by
  rw [Run.run_append]
  intro s
  have invalid : ∀ b', bindingInEffect later s.inner = .ok b' →
      grantValid held.body (s.inner.effNow later.now b'.grantPubkey) = false := fun b' inEffect =>
    invalid_later (run_sound history) judges current issued expired along inEffect
  constructor
  · intro v listed same
    obtain ⟨b', -, -, inEffect, -, -, -, -, -, valid⟩ := mem_verifiedGrants listed
    rw [same] at valid
    exact absurd (valid.symm.trans (invalid b' inEffect)) (by decide)
  · intro row listed valid same
    obtain ⟨b', -, other, inEffect, -, -, -, rfl, -, valid⟩ := mem_grantRows listed valid
    -- a row shows every time the judgement rests on
    have alike : grantValid other.body (s.inner.effNow later.now b'.grantPubkey) =
        grantValid held.body (s.inner.effNow later.now b'.grantPubkey) := by
      have fields := GrantRow.mk.inj same
      obtain ⟨-, -, -, -, issuedAt, expiresAt, licence, withdrawn, -, -⟩ := fields
      rw [grantValid, grantValid, issuedAt, expiresAt, licence, withdrawn]
    exact absurd (valid.symm.trans (alike.trans (invalid b' inEffect))) (by decide)

end

section
open Sample

def held (g : CheckoutGrant) : Act Text := .grant (env 50) (signedGrant g)

/-- The clock runs past the expiry, is set back, and the grant stays expired. -/
theorem expired_for_good_setBack :
    let s := (Run.run (step outside anchors) {} ([bind, held (grant 1 40 100)] ++ .query .rows (env 200) :: [])).grants
    ∀ v ∈ (s.verifiedGrants (env 50)).1, v.grant ≠ grant 1 40 100 :=
  (expired_for_good [bind, held (grant 1 40 100)] [] .rows (env 200) (env 50) binding ("cog", "1")
    ⟨signedGrant (grant 1 40 100), grant 1 40 100⟩ ⟨by decide +kernel, nofun⟩ (by decide +kernel) (by decide)
    (by decide +kernel) trivial).1

/-- No mark is kept while the newest issue is at time zero: a grant judged expired at 200 is valid
again at 50. -/
theorem expired_revived :
    let n := Run.run (step outside anchors) {} [bind, held (grant 1 0 100)]
    let s := (step outside anchors n (.query .rows (env 200))).grants
    (n.grants.grantRows (env 200)).1 = [grantRow (grant 1 0 100) false] ∧
      Expired (grant 1 0 100) (n.grants.inner.effNow 200 binding.grantPubkey) ∧
      (s.verifiedGrants (env 50)).1 = [⟨grant 1 0 100, hexEncode grantKey⟩] := by
  decide +kernel

end

end Weftos.Licence.Expiry
