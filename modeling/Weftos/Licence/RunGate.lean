import Weftos.Licence.Member

/-! The run gate. Its verdict is put together from separately locked reads, and other threads may act before
each of them. -/

namespace Weftos.Licence.RunGate
open Lib
open Wire Store Approvals Member Run

structure RunRequest where
  cogId : String
  version : String
  sha256 : String
  blake3 : String

structure RunPermit where
  grantId : String
  approvalId : String
  blake3 : String
  deriving DecidableEq

inductive RunRefusal where
  | bindingInactive (why : String)
  | noGrant
  | grantLapsed
  | notInGrant
  | hashRevoked
  | noApproval
  deriving DecidableEq

inductive RunVerdict where
  | notSeedBound
  | permit (permit : RunPermit)
  deriving DecidableEq

structure Turn (P : Type) where
  acts : List (Act P)
  env : Env

section
variable {P : Type} [DecidableEq P] (o : Outside P) (anchors : TrustAnchors) (turns : Nat → Turn P)

def arrive (i : Nat) (n : Node P) : Node P := run (step o anchors) n (turns i).acts

def boundSignal (hasApprovals : Bool) (n : Node P) : Bool × Node P :=
  let n := arrive o anchors turns 0 n
  let held := hasApprovals && !n.approvals.isEmpty
  let n := arrive o anchors turns 1 n
  let approvalsHeld := held || (hasApprovals && n.approvals.poisoned.isSome)
  let n := arrive o anchors turns 2 n
  if n.grants.heldBinding.isSome then (true, n)
  else
    let n := arrive o anchors turns 3 n
    if n.grants.inner.poisoned.isSome then (true, n)
    else
      let n := arrive o anchors turns 4 n
      ((n.grants.wasEverBound (turns 4).env).1 || approvalsHeld, step o anchors n (.everBound (turns 4).env))

/-- The node when a call that has not ended looks for the grant. -/
def atGrant (hasApprovals : Bool) (n : Node P) : Node P :=
  arrive o anchors turns 8 (arrive o anchors turns 7 (arrive o anchors turns 6 (arrive o anchors turns 5
    (boundSignal o anchors turns hasApprovals n).2)))

/-- The node when the call looks for the approval. -/
def atApproval (hasApprovals : Bool) (n : Node P) : Node P :=
  arrive o anchors turns 12 (arrive o anchors turns 11
    (step o anchors (atGrant o anchors turns hasApprovals n) (.query .valid (turns 8).env)))

def refusalFor (req : RunRequest) (n : Node P) : RunRefusal :=
  let n := arrive o anchors turns 9 n
  if (n.grants.heldGrant req.cogId req.version).isNone then .noGrant
  else
    let n := arrive o anchors turns 10 n
    if ((n.grants.verifiedGrants (turns 10).env).1.any fun v => v.grant.cogId = req.cogId ∧
      v.grant.version = req.version) then .notInGrant
    else .grantLapsed

def approvedFor (hasApprovals : Bool) (req : RunRequest) (grant : CheckoutGrant) (art : GrantArtifact) (n : Node P) :
    Except RunRefusal RunVerdict :=
  let n := arrive o anchors turns 11 n
  if (turns 11).env.hashRevoked req.blake3 then .error .hashRevoked
  else
    let n := arrive o anchors turns 12 n
    match if hasApprovals then n.approvals.covering (turns 12).env req.cogId req.version req.sha256 else none with
    | none => .error .noApproval
    | some id => .ok (.permit ⟨grant.grantId, id, art.blake3⟩)

def checkRun (hasApprovals : Bool) (req : RunRequest) (n : Node P) : Except RunRefusal RunVerdict :=
  let (signal, n) := boundSignal o anchors turns hasApprovals n
  if !signal then .ok .notSeedBound
  else
    let n := arrive o anchors turns 5 n
    let unheld := n.grants.heldBinding.isNone
    let n := arrive o anchors turns 6 n
    if unheld && n.grants.inner.poisoned.isNone then
      .error (.bindingInactive "this node was Seed-bound but its licence store holds no binding (store missing?)")
    else
      let n := arrive o anchors turns 7 n
      match bindingInEffect (turns 7).env n.grants.inner with
      | .error e => .error (.bindingInactive e.message)
      | .ok _ =>
        let n := arrive o anchors turns 8 n
        match (n.grants.validGrantForArtifact (turns 8).env req.cogId req.version req.sha256 req.blake3).1 with
        | none => .error (refusalFor o anchors turns req (step o anchors n (.query .valid (turns 8).env)))
        | some (grant, art) =>
          approvedFor o anchors turns hasApprovals req grant art (step o anchors n (.query .valid (turns 8).env))

variable {o anchors turns} {n : Node P}

/-! ### The marker stays -/

omit [DecidableEq P] in
theorem marker_upkeep (upkeep : Upkeep True s t) (marked : s.marker = true) : t.marker = true := by
  induction upkeep with
  | refl => exact marked
  | observe _ _ _ ih | reset _ _ _ _ ih => exact ih
  | save _ write ih => cases write <;> exact ih
  | noteBound _ env ih =>
    rw [CheckoutGrantStore.noteBound, ih]
    rfl

theorem step_marker (n : Node P) (act : Act P) (marked : n.grants.marker = true) :
    (step o anchors n act).grants.marker = true := by
  cases act with
  | bind env signed posture extra =>
    change (n.grants.acceptBinding o anchors env signed posture extra).2.marker = true
    obtain ⟨result, s', call, step⟩ := acceptBinding_step o anchors env n.grants signed posture extra
    simp only [call]
    cases step with
    | idle | lost => exact marked
    | unbound => cases env.write <;> exact marked
    | bound =>
      change (n.grants.marker || env.markerWrite) = true
      rw [marked, Bool.true_or]
  | grant env signed =>
    change (n.grants.acceptGrant o env signed).2.marker = true
    obtain ⟨result, s', call, step⟩ := acceptGrant_step o env n.grants signed
    simp only [call]
    cases step with
    | unverified | early | full | refused | kept | unsaved | granted => exact marked
    | conflict | withdrawn => cases env.write <;> exact marked
  | approve => exact marked
  | query kind env => exact marker_upkeep (.asked kind env) marked
  | tick env => exact marker_upkeep (.tick env) marked
  | resetFloor env => exact marker_upkeep (.resetFloor env) marked
  | everBound env => exact marker_upkeep (.wasEverBound env) marked
  | tamper how => cases how <;> exact marked
  | restart =>
    change (openOrPoisoned o anchors n.grants.disk n.grants.marker).marker = true
    unfold openOrPoisoned
    split <;> exact marked

theorem run_marker (acts : List (Act P)) (marked : n.grants.marker = true) :
    (run (step o anchors) n acts).grants.marker = true :=
  @Run.run_always _ _ _ (fun n : Node P => n.grants.marker = true) step_marker n acts marked

variable (o anchors) in
def BindApplied (history : List (Act P)) : Prop :=
  ∃ before env signed posture extra after, history = before ++ .bind env signed posture extra :: after ∧
    env.markerWrite = true ∧
    ((run (step o anchors) {} before).grants.acceptBinding o anchors env signed posture extra).1 = .ok .applied ∧
    ∃ held, ((run (step o anchors) {} before).grants.acceptBinding o anchors env signed posture extra).2.inner.binding =
      some held ∧ held.body.state = .bound

theorem BindApplied.marker (applied : BindApplied o anchors history) :
    (run (step o anchors) {} history).grants.marker = true := by
  obtain ⟨before, env, signed, posture, extra, after, rfl, written, applied, held, binding, bound⟩ := applied
  rw [run_append, run_cons]
  apply run_marker
  change ((run (step o anchors) {} before).grants.acceptBinding o anchors env signed posture extra).2.marker = true
  generalize (run (step o anchors) {} before).grants = s at applied binding ⊢
  obtain ⟨result, s', call, step⟩ := acceptBinding_step o anchors env s signed posture extra
  simp only [call] at applied binding ⊢
  cases step with
  | idle _ unplaced => exact absurd applied unplaced.1
  | lost => cases applied
  | @unbound record _ _ unbinds =>
    have here : some ⟨signed, record⟩ = some held := by
      cases ended : env.write with
      | none | some e =>
        rw [ended] at binding
        exact binding
    cases here
    rw [unbinds] at bound
    cases bound
  | bound =>
    change (s.marker || env.markerWrite) = true
    rw [written, Bool.or_true]

variable (o anchors turns) in
theorem boundSignal_marker (hasApprovals : Bool) (marked : n.grants.marker = true) :
    (boundSignal o anchors turns hasApprovals n).1 = true := by
  have stays : ∀ i (m : Node P), m.grants.marker = true → (arrive o anchors turns i m).grants.marker = true :=
    fun i m marked => run_marker (turns i).acts marked
  unfold boundSignal
  dsimp only
  split
  · rfl
  split
  · rfl
  · have here := stays 4 _ (stays 3 _ (stays 2 _ (stays 1 _ (stays 0 n marked))))
    rw [CheckoutGrantStore.wasEverBound, if_pos here, Bool.true_or]

/-! ### What a permit rests on -/

/-- A binding for the local mesh is in effect with an unrevoked key, and the current grant of the cog version
permits, is unexpired and lists exactly this binary. -/
structure Licensed (env : Env) (n : Node P) (req : RunRequest) (b : BindingRecord) (held : Held P CheckoutGrant) :
    Prop where
  inEffect : bindingInEffect env n.grants.inner = .ok b
  localMesh : env.localMesh = some b.meshId
  unrevoked : env.keyRevoked b.grantPubkey = false
  current : (n.grants.inner.slotAt (req.cogId, req.version)).current = some held
  mesh : held.body.meshId = b.meshId
  permits : held.body.isWithdrawal = false
  unexpired : n.grants.inner.effNow env.now b.grantPubkey < held.body.expiresAt ∧
    n.grants.inner.effNow env.now b.grantPubkey < held.body.licence.expires
  listed : ∃ art ∈ held.body.artifacts, art.sha256 = req.sha256 ∧ art.blake3 = req.blake3

def Approved (n : Node P) (req : RunRequest) (mesh : String) : Prop :=
  ∃ id h, (id, h) ∈ n.approvals.held ∧ h.body.meshId = mesh ∧ h.body.cogId = req.cogId ∧
    h.body.version = req.version ∧ req.sha256 ∈ h.body.sha256

variable {grant : CheckoutGrant} {art : GrantArtifact}

theorem validGrantForArtifact_licensed (sound : StoreSound o anchors n.grants)
    (found : (n.grants.validGrantForArtifact env req.cogId req.version req.sha256 req.blake3).1 = some (grant, art)) :
    ∃ b held, Licensed env n req b held ∧ held.body = grant := by
  obtain ⟨v, listed, answer⟩ := List.exists_of_findSome?_eq_some found
  obtain ⟨b, entry, held, inEffect, unrevoked, filed, current, same, mesh, valid⟩ :=
    CheckoutGrantStore.mem_verifiedGrants listed
  dsimp only at answer
  split at answer
  · cases answer
  next named =>
    obtain ⟨hit, located, pair⟩ := Option.map_eq_some_iff.mp answer
    cases pair
    rw [not_or, not_not, not_not] at named
    have slot := current_of_mem_entries sound.memory filed current
    have key : held.body.key = (req.cogId, req.version) := by
      rw [same, ← named.1, ← named.2]
      rfl
    rw [key] at slot
    have fits := List.find?_some located
    rw [decide_eq_true_eq] at fits
    simp only [grantValid, Bool.and_eq_true, Bool.not_eq_true', decide_eq_true_eq] at valid
    obtain ⟨⟨⟨permits, own⟩, licence⟩, -⟩ := valid
    refine ⟨b, held, ⟨inEffect, (bindingInEffect_ok inEffect).2.1, unrevoked, slot, same ▸ mesh, same ▸ permits,
      same ▸ ⟨own, licence⟩, ?_⟩, same⟩
    exact ⟨art, same ▸ List.mem_of_find?_eq_some located, fits⟩

variable (turns) in
theorem arrive_sound (i : Nat) (sound : StoreSound o anchors n.grants) :
    StoreSound o anchors (arrive o anchors turns i n).grants :=
  @Run.run_always _ _ _ (fun n : Node P => StoreSound o anchors n.grants) step_sound n (turns i).acts sound

variable (turns) in
theorem boundSignal_sound (hasApprovals : Bool) (sound : StoreSound o anchors n.grants) :
    StoreSound o anchors (boundSignal o anchors turns hasApprovals n).2.grants := by
  have held := arrive_sound turns 2 (arrive_sound turns 1 (arrive_sound turns 0 sound))
  unfold boundSignal
  dsimp only
  split
  · exact held
  split
  · exact arrive_sound turns 3 held
  · exact step_sound _ (.everBound (turns 4).env) (arrive_sound turns 4 (arrive_sound turns 3 held))

variable {hasApprovals : Bool} {req : RunRequest} {n : Node P}

theorem approvedFor_permit
    (permitted : approvedFor o anchors turns hasApprovals req grant art n = .ok (.permit permit)) :
    permit.grantId = grant.grantId ∧ (turns 11).env.hashRevoked req.blake3 = false ∧
      ∃ mesh, (turns 12).env.localMesh = some mesh ∧
        Approved (arrive o anchors turns 12 (arrive o anchors turns 11 n)) req mesh := by
  unfold approvedFor at permitted
  dsimp only at permitted
  split at permitted
  · cases permitted
  next unrevoked =>
    split at permitted
    · cases permitted
    next id found =>
      cases permitted
      split at found
      · obtain ⟨mesh, h, here, held, same, cog, version, sha⟩ := covering_some found
        exact ⟨rfl, by simpa using unrevoked, mesh, here, id, h, held, same, cog, version, sha⟩
      · cases found

theorem approvedFor_ne : approvedFor o anchors turns hasApprovals req grant art n ≠ .ok .notSeedBound := by
  unfold approvedFor
  dsimp only
  split
  · exact nofun
  split <;> exact nofun

theorem checkRun_permit (sound : StoreSound o anchors n.grants)
    (permitted : checkRun o anchors turns hasApprovals req n = .ok (.permit permit)) :
    ∃ b held, Licensed (turns 8).env (atGrant o anchors turns hasApprovals n) req b held ∧
      permit.grantId = held.body.grantId ∧ (turns 11).env.hashRevoked req.blake3 = false ∧
      ∃ mesh, (turns 12).env.localMesh = some mesh ∧ Approved (atApproval o anchors turns hasApprovals n) req mesh := by
  have reached : StoreSound o anchors (atGrant o anchors turns hasApprovals n).grants :=
    arrive_sound turns 8 (arrive_sound turns 7 (arrive_sound turns 6 (arrive_sound turns 5
      (boundSignal_sound turns hasApprovals sound))))
  unfold checkRun at permitted
  dsimp only at permitted
  split at permitted
  · cases permitted
  split at permitted
  · cases permitted
  split at permitted
  · cases permitted
  split at permitted
  · cases permitted
  next grant art found =>
    obtain ⟨b, held, licensed, same⟩ := validGrantForArtifact_licensed reached found
    obtain ⟨id, unrevoked, mesh, here, approved⟩ := approvedFor_permit permitted
    exact ⟨b, held, licensed, same ▸ id, unrevoked, mesh, here, approved⟩

/-- The gate fails closed. If the mesh id is the same when the call looks for the grant and when it looks for the
approval, a permit means that at the first the binary was licensed, that it was not revoked when asked, and that at the
second an approval for the same mesh, cog and version listed it. -/
theorem run_gate_closed (history : List (Act P)) (turns : Nat → Turn P) (hasApprovals : Bool) (req : RunRequest) :
    let n := run (step o anchors) {} history
    (BindApplied o anchors history → checkRun o anchors turns hasApprovals req n ≠ .ok .notSeedBound) ∧
      ((turns 12).env.localMesh = (turns 8).env.localMesh →
        ∀ permit, checkRun o anchors turns hasApprovals req n = .ok (.permit permit) →
          ∃ b held, Licensed (turns 8).env (atGrant o anchors turns hasApprovals n) req b held ∧
            permit.grantId = held.body.grantId ∧ (turns 11).env.hashRevoked req.blake3 = false ∧
            Approved (atApproval o anchors turns hasApprovals n) req b.meshId) := by
  intro n
  constructor
  · intro applied verdict
    have signal := boundSignal_marker o anchors turns hasApprovals applied.marker
    unfold checkRun at verdict
    dsimp only at verdict
    split at verdict
    next unbound =>
      rw [signal] at unbound
      cases unbound
    split at verdict
    · cases verdict
    split at verdict
    · cases verdict
    split at verdict
    · cases verdict
    · exact approvedFor_ne verdict
  · intro steady permit permitted
    obtain ⟨b, held, licensed, id, unrevoked, mesh, here, approved⟩ := checkRun_permit (run_sound history) permitted
    have same : mesh = b.meshId := by
      rw [steady, licensed.localMesh] at here
      exact (Option.some.inj here).symm
    exact ⟨b, held, licensed, id, unrevoked, same ▸ approved⟩

end

section
open Sample

def onMesh (mesh : String) : Env := { env 100 with localMesh := some mesh, localAgain := some mesh }

def request : RunRequest := ⟨"cog", "1", zeros, zeros⟩

def setUp (mesh : String) : List (Act Text) :=
  [bind, .grant (env 100) (signedGrant (grant 1 100 900)),
    .approve (onMesh mesh) (signedApproval { approval with meshId := mesh })]

/-- The node is permitted to run the binary, on the strength of a licence and an approval for its mesh. -/
theorem run_gate_closed_permit :
    let turns : Nat → Turn Text := fun _ => ⟨[], env 100⟩
    checkRun outside anchors turns true request (run (step outside anchors) {} (setUp zeros)) =
        .ok (.permit ⟨zeros, zeros, zeros⟩) ∧
      ∃ b held, Licensed (env 100) (atGrant outside anchors turns true (run (step outside anchors) {} (setUp zeros)))
        request
        b held ∧ Approved (atApproval outside anchors turns true (run (step outside anchors) {} (setUp zeros))) request
        b.meshId := by
  have permitted : checkRun outside anchors (fun _ => ⟨[], env 100⟩) true request
      (run (step outside anchors) {} (setUp zeros)) = .ok (.permit ⟨zeros, zeros, zeros⟩) := by decide +kernel
  obtain ⟨b, held, licensed, -, -, approved⟩ :=
    (run_gate_closed (setUp zeros) (fun _ => ⟨[], env 100⟩) true request).2 rfl _ permitted
  exact ⟨permitted, b, held, licensed, approved⟩

/-- The mesh id changes after the grant was found: the grant is for the one mesh, the only approval for the other. -/
theorem permit_across_meshes :
    let turns : Nat → Turn Text := fun i => ⟨[], if i ≤ 11 then onMesh zeros else onMesh ones⟩
    let n := run (step outside anchors) {} (setUp ones)
    checkRun outside anchors turns true request n = .ok (.permit ⟨zeros, zeros, zeros⟩) ∧
      n.grants.inner.binding.map (·.body.meshId) = some zeros ∧ n.approvals.held.map (·.2.body.meshId) = [ones] := by
  decide +kernel

end

end Weftos.Licence.RunGate
