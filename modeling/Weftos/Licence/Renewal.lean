import Weftos.Licence.Converge
import Weftos.Licence.Issues

/-! The steward's renewal pull (`renewal.rs`): a pass renews at the Seed and then pages through what was
issued since its cursor, while the Seed and the rest of the mesh go on. -/

namespace Weftos.Licence.Renewal
open Lib Lib.Bytes Wire Store Proxy Turn Licence.Numbering OneBinding Issues Option Numbering.Sample
open Member.Sample

/-! ### Passes -/

section
variable {P : Type} [DecidableEq P] (o : Outside P) (cfg : Config) (maxPages : Nat)

/-- A pass under way: grants received and not yet installed, and the page they came with, if it was
one, with the cursor it was asked from. -/
structure Pass (P : Type) where
  seedCtr : Nat
  pending : List (SignedEnvelope P)
  page : Option (Nat × Page P)
  pagesLeft : Nat

structure Renewer (P : Type) where
  cursor : Nat := 0
  cursorFor : Option (Nat × String) := none
  pass : Option (Pass P) := none

structure World (P : Type) where
  seed : Seed P
  store : CheckoutGrantStore P
  renewer : Renewer P := {}

omit [DecidableEq P] in
def applyOrder (grants : List (SignedEnvelope P)) : List (SignedEnvelope P) :=
  let withdraws (signed : SignedEnvelope P) := (o.parseGrant signed.payload).toOption.any (·.isWithdrawal)
  grants.filter withdraws ++ grants.filter fun signed => !withdraws signed

omit [DecidableEq P] in
theorem mem_applyOrder : signed ∈ applyOrder o grants ↔ signed ∈ grants := by
  unfold applyOrder
  rw [List.mem_append, List.mem_filter, List.mem_filter]
  by_cases withdraws : (o.parseGrant signed.payload).toOption.any (·.isWithdrawal) = true <;> simp [withdraws]

omit [DecidableEq P] in
def resetCursorOnRebind (store : CheckoutGrantStore P) (r : Renewer P) : Renewer P :=
  let now := store.heldBinding.map fun b => (b.seq, b.deviceId)
  if r.cursorFor ≠ now then { r with cursorFor := now, cursor := 0 } else r

def renewAnswer (seed : Seed P) (now : Nat) (ents : String → Except LicenceCheckError Entitlement)
    (bindWrite write : WriteOutcome) : Option (Page P) :=
  match seed.inner with
  | none => none
  | some inner =>
    match settle write (Proxy.renew o cfg seed.files bindWrite inner seed.disk now [] ents) with
    | (.ok grants, inner, _) => some ⟨grants, inner.slots.ctr, false⟩
    | (.error _, _) => none

inductive Act (P : Type) where
  /-- Anything the Seed does on behalf of others. -/
  | seed (act : Proxy.Act)
  /-- A grant reaches the store on another way: the relay, a flood, a sync. -/
  | deliver (env : Env) (signed : SignedEnvelope P)
  | rebind (anchors : TrustAnchors) (env : Env) (signed : SignedEnvelope P) (posture : AdmissionPosture)
  /-- A pass that ends before its first call. -/
  | skip
  | begin (now : Nat) (ents : String → Except LicenceCheckError Entitlement) (bindWrite write : WriteOutcome)
      (lost : Bool)
  /-- The next grant of the pass is installed. -/
  | apply (env : Env)
  /-- The page is done. -/
  | turn
  | page (bindWrite : WriteOutcome) (lost : Bool)

namespace World

omit [DecidableEq P] in
def skip (w : World P) : World P :=
  match w.renewer.pass with
  | some _ => w
  | none => { w with renewer := resetCursorOnRebind w.store w.renewer }

/-- `run_once` up to the answer of its first call. -/
def begin (w : World P) (now : Nat) (ents : String → Except LicenceCheckError Entitlement)
    (bindWrite write : WriteOutcome) (lost : Bool) : World P :=
  match w.renewer.pass with
  | some _ => w
  | none =>
    let answer := (renewAnswer o cfg w.seed now ents bindWrite write).filter fun _ => !lost
    { w with
      seed := w.seed.step o cfg (.renew now [] ents bindWrite write)
      renewer := { resetCursorOnRebind w.store w.renewer with
        pass := answer.map fun answer => ⟨answer.next, applyOrder o answer.grants, none, maxPages⟩ } }

def apply (w : World P) (env : Env) : World P :=
  match w.renewer.pass with
  | some ⟨seedCtr, signed :: rest, page, left⟩ =>
    { w with
      store := (w.store.acceptGrant o env signed).2
      renewer := { w.renewer with pass := some ⟨seedCtr, rest, page, left⟩ } }
  | _ => w

omit [DecidableEq P] in
def turn (w : World P) : World P :=
  match w.renewer.pass with
  | some ⟨seedCtr, [], some (since, page), left⟩ =>
    let onward := page.more ∧ since < page.next
    { w with renewer := { w.renewer with
        cursor := max page.next since
        pass := if onward then some ⟨seedCtr, [], none, left - 1⟩ else none } }
  | _ => w

/-- The next page. One that moves the cursor past grants it does not carry ends the pass. -/
def page (w : World P) (bindWrite : WriteOutcome) (lost : Bool) : World P :=
  match w.renewer.pass with
  | some ⟨seedCtr, [], none, left⟩ =>
    if left = 0 then { w with renewer := { w.renewer with pass := none } }
    else
      let since := w.renewer.cursor
      let seed := w.seed.step o cfg (.grants since bindWrite)
      let answer := ((seed.inner.map fun inner => grantsPage cfg inner since).filter fun _ => !lost).filter fun page =>
        page.next ≤ saturatingAdd (max seedCtr since) page.grants.length
      { w with
        seed := seed
        renewer := { w.renewer with
          pass := answer.map fun page => ⟨seedCtr, applyOrder o page.grants, some (since, page), left⟩ } }
  | _ => w

def step (w : World P) : Act P → World P
  | .seed act => { w with seed := w.seed.step o cfg act }
  | .deliver env signed => { w with store := (w.store.acceptGrant o env signed).2 }
  | .rebind anchors env signed posture =>
    { w with store := (w.store.acceptBinding o anchors env signed posture fun _ => .ok ()).2 }
  | .skip => w.skip
  | .begin now ents bindWrite write lost => w.begin o cfg maxPages now ents bindWrite write lost
  | .apply env => w.apply o env
  | .turn => w.turn
  | .page bindWrite lost => w.page o cfg bindWrite lost

omit [DecidableEq P] in
/-- The next grant of the page. -/
def paged (w : World P) : Option (SignedEnvelope P) :=
  w.renewer.pass.bind fun pass => pass.page.bind fun _ => pass.pending.head?

end World

def Covered (store : CheckoutGrantStore P) (signed : SignedEnvelope P) : Prop :=
  ∃ g cur, signed.payload = o.grantText g ∧ (store.inner.slotAt g.key).current = some cur ∧ g.seq ≤ cur.body.seq ∧
    (g.seq = cur.body.seq → cur.signed.payload = signed.payload)

def heldSeq (store : CheckoutGrantStore P) (name : String × String) : Nat :=
  ((store.inner.slotAt name).current.map (·.body.seq)).getD 0

/-- Both ends keep their binding, what reaches the store under the bound key is what the Seed released,
no grant of a page is refused, and of a checkout that a page has no room for the store lacks the last
issue at most. -/
def Smooth (w : World P) : Act P → Prop
  | .seed (.replaceFiles _) => False
  | .rebind _ _ _ _ => False
  | .deliver env signed => (admitGrant o env w.store.inner signed).toOption.isSome →
    ∃ e ∈ w.seed.released, e.payload = signed.payload
  | .apply env => (w.paged.all fun signed => (w.store.acceptGrant o env signed).1.toOption.isSome) = true
  | .page _ _ => ∀ entry ∈ (table w.seed).slots, NoRoom cfg (table w.seed) w.renewer.cursor entry.2 →
    entry.2.seq ≤ heldSeq w.store (entry.2.cogId, entry.2.version) + 1
  | _ => True

instance (w : World P) (act : Act P) : Decidable (Smooth o cfg w act) :=
  match act with
  | .seed act => match act with
    | .replaceFiles _ => .isFalse id
    | .begin _ _ | .look _ _ _ _ | .finish _ _ _ _ _ _ | .renew _ _ _ _ _ | .grants _ _ | .artifact _ _ | .sent
    | .refresh _ | .crash | .start _ => .isTrue trivial
  | .rebind _ _ _ _ => .isFalse id
  | .deliver env signed => inferInstanceAs (Decidable ((admitGrant o env w.store.inner signed).toOption.isSome →
    ∃ e ∈ w.seed.released, e.payload = signed.payload))
  | .apply _ => inferInstanceAs (Decidable (_ = true))
  | .page _ _ => inferInstanceAs (Decidable (∀ entry ∈ (table w.seed).slots,
    NoRoom cfg (table w.seed) w.renewer.cursor entry.2 →
      entry.2.seq ≤ heldSeq w.store (entry.2.cogId, entry.2.version) + 1))
  | .skip | .begin _ _ _ _ _ | .turn => .isTrue trivial

end

/-! ### The store -/

section
variable {P : Type} [DecidableEq P] {o : Outside P} {store : CheckoutGrantStore P} {released : List (SignedEnvelope P)}

def Holding (o : Outside P) (released : List (SignedEnvelope P)) (store : CheckoutGrantStore P) : Prop :=
  ∀ name cur, (store.inner.slotAt name).current = some cur → cur.body.key = name ∧
    cur.signed.payload = o.grantText cur.body ∧ ∃ e ∈ released, e.payload = cur.signed.payload

def Once (o : Outside P) (released : List (SignedEnvelope P)) : Prop :=
  ∀ e ∈ released, ∀ e' ∈ released, ∀ g g', e.payload = o.grantText g → e'.payload = o.grantText g' → g.key = g'.key →
    g.seq = g'.seq → e.payload = e'.payload

omit [DecidableEq P] in
theorem once_of_kept (kept : Kept Follows (Numbered o n) s) : Once o s.released := by
  obtain ⟨rising, -⟩ := kept_rises kept
  intro e listed e' listed' g g' text text' name number
  have cog : g.cogId = g'.cogId := congrArg Prod.fst name
  have version : g.version = g'.version := congrArg Prod.snd name
  obtain rises | rises := Durable.either_order Rises.refl rising listed listed'
  · exact (rises g g' text text' cog version).2 number
  · exact ((rises g' g text' text cog.symm version.symm).2 number.symm).symm

theorem admitGrant_text {env : Env} {inner : Store.Inner P}
    (admitted : admitGrant o env inner signed = .ok (b, g)) : signed.payload = o.grantText g := by
  obtain ⟨-, -, -, key, -, verified⟩ := admitGrant_ok o admitted
  exact (verifyGrantSignature_ok o verified).1.symm

section
variable (holding : Holding o released store) (once : Once o released) (env : Env) (signed : SignedEnvelope P)
  (genuine : (admitGrant o env store.inner signed).toOption.isSome → ∃ e ∈ released, e.payload = signed.payload)
include holding once genuine

/-- Of a slot's current grant a delivery changes nothing, or it puts a higher number there: two texts
at one number do not occur. -/
theorem Holding.accept (name : String × String) :
    ((store.acceptGrant o env signed).2.inner.slotAt name).current = (store.inner.slotAt name).current ∨
      ∃ g, g.key = name ∧ signed.payload = o.grantText g ∧ (∃ e ∈ released, e.payload = signed.payload) ∧
        ((store.acceptGrant o env signed).2.inner.slotAt name).current = some ⟨signed, g⟩ ∧
        ∀ cur, (store.inner.slotAt name).current = some cur → cur.body.seq < g.seq := by
  obtain same | ⟨b, g, slot, admitted, own, ruling, here⟩ := acceptGrant_slotAt o env store signed name
  · exact .inl (congrArg Slot.current same)
  · have text := admitGrant_text admitted
    have sent : ∃ e ∈ released, e.payload = signed.payload := genuine (by rw [admitted]; rfl)
    obtain placed | conflict := ruling
    · right
      obtain ⟨rfl, -, newer⟩ := Slot.accept_placed placed
      rw [here]
      exact ⟨g, own, text, sent, rfl, fun cur there => (newer cur there).1⟩
    · exfalso
      obtain ⟨cur, there, number, differ, -⟩ := Slot.accept_conflict conflict
      obtain ⟨name', textCur, e, listed, same⟩ := holding name cur there
      obtain ⟨e', listed', same'⟩ := sent
      apply differ
      rw [← same, ← same']
      exact once e listed e' listed' cur.body g (same.trans textCur) (same'.trans text)
        (name'.trans own.symm) number.symm

theorem Holding.accepted : Holding o released (store.acceptGrant o env signed).2 := by
  intro name cur here
  obtain same | ⟨g, own, text, sent, placed, -⟩ := holding.accept once env signed genuine name
  · exact holding name cur (same ▸ here)
  · obtain rfl : ⟨signed, g⟩ = cur := some.inj (placed.symm.trans here)
    exact ⟨own, text, sent⟩

theorem Covered.accepted (covered : Covered o store other) : Covered o (store.acceptGrant o env signed).2 other := by
  obtain ⟨g, cur, text, here, above, equal⟩ := covered
  obtain same | ⟨new, -, -, -, placed, newer⟩ := holding.accept once env signed genuine g.key
  · exact ⟨g, cur, text, same.trans here, above, equal⟩
  · have higher := newer cur here
    refine ⟨g, ⟨signed, new⟩, text, placed, by dsimp only; omega, ?_⟩
    intro number
    dsimp only at number
    omega

end

theorem covered_of_accepted {env : Env} (accepted : (store.acceptGrant o env signed).1.toOption.isSome = true) :
    Covered o (store.acceptGrant o env signed).2 signed := by
  obtain ⟨result, store', call, step⟩ := acceptGrant_step o env store signed
  simp only [call] at accepted ⊢
  have placed : ∀ {b g slot}, admitGrant o env store.inner signed = .ok (b, g) →
      (store.inner.slotAt g.key).accept ⟨signed, g⟩ = .placed slot →
      store'.inner.slotAt g.key = (store.inner.put g.key slot).slotAt g.key → Covered o store' signed := by
    intro b g slot admitted ruling here
    obtain ⟨rfl, -, -⟩ := Slot.accept_placed ruling
    rw [Inner.slotAt_put] at here
    refine ⟨g, ⟨signed, g⟩, admitGrant_text admitted, ?_, le_rfl, fun _ => rfl⟩
    rw [here]
    rfl
  cases step with
  | unverified | early | full | refused | conflict | unsaved => cases accepted
  | kept admitted ruling =>
    obtain ⟨-, cur, here, above, equal⟩ := Slot.accept_kept ruling
    exact ⟨_, cur, admitGrant_text admitted, here, above, equal⟩
  | withdrawn admitted ruling =>
    apply placed admitted ruling
    cases env.write <;> rfl
  | granted admitted ruling => exact placed admitted ruling rfl

end

section
variable {P : Type} [DecidableEq P] {o : Outside P} {cfg : Config} {maxPages : Nat} {files : Files} {b : BindingRecord}
  {secret : Octets} {w w' : World P} {seed seed' : Seed P} {ents : String → Except LicenceCheckError Entitlement}

/-! ### The Seed -/

structure Serving (o : Outside P) (files : Files) (b : BindingRecord) (secret : Octets) (seed : Seed P) : Prop where
  steady : Steady files b secret seed
  orderly : Orderly b.meshId seed
  kept : Kept Follows (Numbered o seed.issues) seed

/-- What the Seed has done meanwhile: it issued again, and released what its table carries. -/
structure Onward (o : Outside P) (files : Files) (b : BindingRecord) (secret : Octets) (seed seed' : Seed P) :
    Prop where
  serving : Serving o files b secret seed'
  reissues : Reissues (table seed) (table seed')
  grows : seed.released ⊆ seed'.released
  carried : ∀ e ∈ seed'.released, e ∈ seed.released ∨ Carries (table seed') e

omit [DecidableEq P] in
theorem Serving.stays (serving : Serving o files b secret seed) : Onward o files b secret seed seed :=
  ⟨serving, .refl _, List.Subset.refl _, fun _ => .inl⟩

theorem Serving.step (bound : Bound files b secret) (serving : Serving o files b secret seed)
    (fixed : ∀ files, act ≠ .replaceFiles files) (few : (seed.step o cfg act).issues < 2 ^ 64) :
    Onward o files b secret seed (seed.step o cfg act) := by
  obtain ⟨orderly, reissues⟩ := step_orderly serving.steady serving.orderly act few
  have serving' : Serving o files b secret (seed.step o cfg act) :=
    ⟨step_steady bound serving.steady fixed (step_does seed act), orderly, step_kept seed act serving.kept few⟩
  have turns : Turns o cfg seed act (seed.step o cfg act) := step_turns seed act
  generalize seed.step o cfg act = seed' at few turns reissues serving'
  suffices released : seed'.released = seed.released ∨
      ∃ out, seed'.released = seed.released ++ out ∧ ∀ e ∈ out, Carries (table seed') e by
    obtain same | ⟨out, more, carried⟩ := released
    · exact ⟨serving', reissues, same ▸ List.Subset.refl _, fun e listed => .inl (same ▸ listed)⟩
    · refine ⟨serving', reissues, more ▸ List.subset_append_left _ _, fun e listed => ?_⟩
      exact (List.mem_append.mp (more ▸ listed)).imp id (carried e)
  cases turns with
  | shown out reread released carried => exact .inr ⟨out, released, carried⟩
  | stopped memory disk released => exact .inl released
  | signed slots disk work out reread made issues ended =>
    obtain ⟨memory, -, released⟩ | ⟨-, -, released⟩ := ended
    · obtain ⟨shown, kept, -⟩ := serving.kept
      have read := kept_reread kept reread (fun slot status => ⟨.inr ⟨rfl, rfl⟩, .inr ⟨rfl, rfl⟩⟩)
        fun key slot status numbered => ⟨numbered.named, numbered.grant, numbered.bounded⟩
      have carried := (signed_numbers made read.inMemory (Nat.le_sub_one_of_lt (issues ▸ few))).2.2
      exact .inr ⟨out, released, fun e new => memory ▸ carried e new⟩
    · exact .inl released

omit [DecidableEq P] in
theorem Serving.running {inner : Proxy.Inner P} (bound : Bound files b secret) (serving : Serving o files b secret seed)
    (up : seed.inner = some inner) :
    table seed = inner.slots ∧ Dated b.meshId inner.slots ∧ inner.bound.map (·.meshId) = some b.meshId := by
  have memory := table_running up
  refine ⟨memory, memory ▸ serving.orderly.inMemory, ?_⟩
  rw [Inner.bound, (serving.steady.running inner up).1]
  simp [Option.filter, bound.inForce]

theorem renewAnswer_released (answered : renewAnswer o cfg seed now ents bindWrite write = some answer) :
    answer.grants ⊆ (seed.step o cfg (.renew now [] ents bindWrite write)).released := by
  unfold renewAnswer at answered
  split at answered
  · cases answered
  next inner running =>
    split at answered
    next grants inner' disk settled =>
      cases answered
      have made : (seed.step o cfg (.renew now [] ents bindWrite write)).released = seed.released ++ grants := by
        unfold Seed.step
        rw [running]
        change seed.released ++ (settle write _).1.toOption.getD [] = _
        rw [settled]
        rfl
      rw [made]
      exact List.subset_append_right _ _
    · cases answered

theorem grants_released {inner : Proxy.Inner P}
    (running : (seed.step o cfg (.grants since bindWrite)).inner = some inner) :
    (grantsPage cfg inner since).grants ⊆ (seed.step o cfg (.grants since bindWrite)).released := by
  unfold Seed.step at running ⊢
  split at running
  next old before =>
    obtain rfl : (refreshBinding seed.files bindWrite old seed.disk).1 = inner := some.inj running
    exact List.subset_append_right _ _
  next down =>
    rw [show seed.dormant (.grants since bindWrite) = seed from rfl, down] at running
    cases running

theorem grants_table (steady : Steady files b secret seed) (since : Nat) (bindWrite : WriteOutcome) :
    table (seed.step o cfg (.grants since bindWrite)) = table seed := by
  unfold Seed.step
  split
  next inner running =>
    change (refreshBinding seed.files bindWrite inner seed.disk).1.slots = _
    rw [steady.refresh running, table_running running]
  · rfl

/-! ### Steps -/

/-- What a step does; `none` is a Seed that is not asked. -/
inductive Moves (o : Outside P) (cfg : Config) (w : World P) : Act P → World P → Prop
  | idle : Moves o cfg w act w
  | seed : Moves o cfg w (.seed act) { w with seed := w.seed.step o cfg act }
  | delivered {env : Env} : Moves o cfg w (.deliver env signed) { w with store := (w.store.acceptGrant o env signed).2 }
  | rebound {anchors : TrustAnchors} {env : Env} {posture : AdmissionPosture} (store : CheckoutGrantStore P) :
    Moves o cfg w (.rebind anchors env signed posture) { w with store := store }
  | passed {seed : Seed P} (call : Option Proxy.Act) (fixed : ∀ files, call ≠ some (.replaceFiles files))
      (asks : seed = call.elim w.seed (w.seed.step o cfg)) (cursor : r.cursor = w.renewer.cursor ∨ r.cursor = 0)
      (fresh : ∀ pass, r.pass = some pass → pass.page = none ∧ pass.pending ⊆ seed.released) :
    Moves o cfg w act ⟨seed, w.store, r⟩
  | applied {env : Env} (running : w.renewer.pass = some ⟨seedCtr, signed :: rest, page, left⟩) :
    Moves o cfg w (.apply env) { w with
      store := (w.store.acceptGrant o env signed).2
      renewer := { w.renewer with pass := some ⟨seedCtr, rest, page, left⟩ } }
  | turned (running : w.renewer.pass = some ⟨seedCtr, [], some (since, page), left⟩)
      (cursor : r.cursor = max page.next since)
      (fresh : ∀ pass, r.pass = some pass → pass.page = none ∧ pass.pending = []) :
    Moves o cfg w .turn { w with renewer := r }
  | asked (cursor : r.cursor = w.renewer.cursor)
      (answer : ∀ pass, r.pass = some pass → ∃ inner,
        (w.seed.step o cfg (.grants w.renewer.cursor bindWrite)).inner = some inner ∧
        pass.page = some (w.renewer.cursor, grantsPage cfg inner w.renewer.cursor) ∧
        pass.pending = applyOrder o (grantsPage cfg inner w.renewer.cursor).grants) :
    Moves o cfg w (.page bindWrite lost) ⟨w.seed.step o cfg (.grants w.renewer.cursor bindWrite), w.store, r⟩

omit [DecidableEq P] in
theorem resetCursorOnRebind_cursor (store : CheckoutGrantStore P) (r : Renewer P) :
    ((resetCursorOnRebind store r).cursor = r.cursor ∨ (resetCursorOnRebind store r).cursor = 0) ∧
      (resetCursorOnRebind store r).pass = r.pass := by
  unfold resetCursorOnRebind
  dsimp only
  split
  · exact ⟨.inr rfl, rfl⟩
  · exact ⟨.inl rfl, rfl⟩

theorem step_moves (w : World P) (act : Act P) : Moves o cfg w act (w.step o cfg maxPages act) := by
  obtain ⟨cursor, pass⟩ := resetCursorOnRebind_cursor w.store w.renewer
  cases act with
  | seed act => exact .seed
  | deliver env signed => exact .delivered
  | rebind => exact .rebound _
  | skip =>
    rw [World.step, World.skip]
    split
    · exact .idle
    next idle => exact .passed none nofun rfl cursor (by simp [pass, idle])
  | begin now ents bindWrite write lost =>
    rw [World.step, World.begin]
    split
    · exact .idle
    · refine .passed (some (.renew now [] ents bindWrite write)) (by simp) rfl cursor fun pass here => ?_
      obtain ⟨answer, answered, rfl⟩ := map_eq_some_iff.mp here
      refine ⟨rfl, fun signed listed => ?_⟩
      exact renewAnswer_released (filter_eq_some_iff.mp answered).1 ((mem_applyOrder o).mp listed)
  | apply env =>
    rw [World.step, World.apply]
    split
    next running => exact .applied running
    · exact .idle
  | turn =>
    rw [World.step, World.turn]
    split
    next running =>
      refine .turned running rfl fun pass here => ?_
      dsimp only at here
      split at here
      · cases here
        exact ⟨rfl, rfl⟩
      · cases here
    · exact .idle
  | page bindWrite lost =>
    rw [World.step, World.page]
    split
    · split_ifs
      · exact .passed none nofun rfl (.inl rfl) nofun
      · refine .asked rfl fun pass here => ?_
        obtain ⟨page, asked, rfl⟩ := map_eq_some_iff.mp here
        obtain ⟨inner, up, rfl⟩ := map_eq_some_iff.mp (filter_eq_some_iff.mp (filter_eq_some_iff.mp asked).1).1
        exact ⟨inner, up, rfl, rfl⟩
    · exact .idle

omit [DecidableEq P] in
theorem paged_eq {page : Nat × Page P} (running : w.renewer.pass = some ⟨seedCtr, signed :: rest, some page, left⟩) :
    w.paged = some signed := by
  rw [World.paged, running]
  rfl

theorem Moves.onward (bound : Bound files b secret) (serving : Serving o files b secret w.seed)
    (moves : Moves o cfg w act w') (smooth : Smooth o cfg w act) (few : w'.seed.issues < 2 ^ 64) :
    Onward o files b secret w.seed w'.seed := by
  cases moves with
  | idle | delivered | applied | turned => exact serving.stays
  | @seed act =>
    refine serving.step bound ?_ few
    rintro files rfl
    exact smooth
  | rebound => exact smooth.elim
  | passed call fixed asks =>
    subst asks
    cases call with
    | none => exact serving.stays
    | some act => exact serving.step bound (fun files same => fixed files (congrArg some same)) few
  | asked => exact serving.step bound (by simp) few

theorem step_issues (w : World P) (act : Act P) : w.seed.issues ≤ (w.step o cfg maxPages act).seed.issues := by
  have asked : ∀ act, w.seed.issues ≤ (w.seed.step o cfg act).issues :=
    fun act => Turns.issues_le (step_turns (o := o) w.seed act)
  have moves : Moves o cfg w act (w.step o cfg maxPages act) := step_moves w act
  generalize w.step o cfg maxPages act = w' at moves
  cases moves with
  | idle | delivered | rebound | applied | turned => exact le_rfl
  | seed | asked => exact asked _
  | passed call fixed asks =>
    subst asks
    cases call with
    | none => exact le_rfl
    | some act => exact asked act

theorem run_issues (w : World P) (acts : List (Act P)) :
    w.seed.issues ≤ (Run.run (World.step o cfg maxPages) w acts).seed.issues :=
  @Run.run_always _ _ _ (fun later : World P => w.seed.issues ≤ later.seed.issues)
    (fun later act before => before.trans (step_issues later act)) w acts le_rfl

/-! ### The cursor -/

/-- The store has only what the Seed released, more of it may be waiting, and neither the cursor nor a page is
beyond the counter. -/
structure Caught (o : Outside P) (ctr : Nat) (w : World P) : Prop where
  holding : Holding o w.seed.released w.store
  reached : w.renewer.cursor ≤ ctr
  pending : ∀ pass, w.renewer.pass = some pass → ∀ signed ∈ pass.pending,
    ∃ e ∈ w.seed.released, e.payload = signed.payload
  page : ∀ pass since page, w.renewer.pass = some pass → pass.page = some (since, page) →
    since = w.renewer.cursor ∧ page.next ≤ ctr

omit [DecidableEq P] in
theorem Caught.onward (caught : Caught o ctr w) (grows : w.seed.released ⊆ seed.released) :
    Caught o ctr { w with seed := seed } where
  holding name cur here := by
    obtain ⟨own, text, e, listed, same⟩ := caught.holding name cur here
    exact ⟨own, text, e, grows listed, same⟩
  reached := caught.reached
  pending pass running signed listed := by
    obtain ⟨e, sent, same⟩ := caught.pending pass running signed listed
    exact ⟨e, grows sent, same⟩
  page := caught.page

theorem step_caught (bound : Bound files b secret) (serving : Serving o files b secret w.seed)
    (caught : Caught o (table w.seed).ctr w) (moves : Moves o cfg w act w') (smooth : Smooth o cfg w act)
    (onward : Onward o files b secret w.seed w'.seed) : Caught o (table w.seed).ctr w' := by
  have once := once_of_kept serving.kept
  have reached := caught.reached
  cases moves with
  | idle => exact caught
  | seed => exact caught.onward onward.grows
  | delivered => exact { caught with holding := caught.holding.accepted once _ _ smooth }
  | rebound => exact smooth.elim
  | passed call fixed asks cursor fresh =>
    have moved := caught.onward onward.grows
    refine ⟨moved.holding, ?_, fun pass running signed listed => ?_, fun pass since page running paging => ?_⟩
    · dsimp only
      omega
    · exact ⟨signed, (fresh pass running).2 listed, rfl⟩
    · rw [(fresh pass running).1] at paging
      cases paging
  | @applied seedCtr signed rest page left env running =>
    have sent := caught.pending _ running signed List.mem_cons_self
    refine ⟨caught.holding.accepted once env signed fun _ => sent, reached, ?_, ?_⟩
    · rintro _ ⟨⟩ other listed
      exact caught.pending _ running other (List.mem_cons_of_mem _ listed)
    · rintro _ since page' ⟨⟩ paging
      exact caught.page _ since page' running paging
  | turned running cursor fresh =>
    obtain ⟨from_, within⟩ := caught.page _ _ _ running rfl
    refine ⟨caught.holding, ?_, fun pass here signed listed => ?_, fun pass since page here paging => ?_⟩
    · dsimp only
      omega
    · rw [(fresh pass here).2] at listed
      cases listed
    · rw [(fresh pass here).1] at paging
      cases paging
  | asked cursor answer =>
    have moved := caught.onward onward.grows
    refine ⟨moved.holding, cursor ▸ reached, fun pass here signed listed => ?_, fun pass since page here paging => ?_⟩
    · obtain ⟨inner, up, -, pending⟩ := answer pass here
      rw [pending] at listed
      exact ⟨signed, grants_released up ((mem_applyOrder o).mp listed), rfl⟩
    · obtain ⟨inner, up, paged, -⟩ := answer pass here
      cases paged.symm.trans paging
      obtain ⟨memory, dated, mesh⟩ := onward.serving.running bound up
      have within := (@grantsPage_complete _ cfg _ inner dated mesh w.renewer.cursor).2
      rw [← memory, grants_table serving.steady] at within
      exact ⟨cursor.symm, within.trans (max_le reached le_rfl)⟩

/-! ### Issues -/

/-- One issue, in the table of its time. -/
structure Issue (o : Outside P) (past : Slots P) (key : String) (slot : Proxy.Slot P) (signed : SignedEnvelope P) :
    Prop where
  here : past.slots.lookup key = some slot
  carried : slot.grant = some signed
  dated : ∃ mesh, Dated mesh past
  numbered : ∃ n, Numbered o n key slot

/-- A grant and one that is to take its place, or the same. -/
def Outdoes (o : Outside P) (later signed : SignedEnvelope P) : Prop :=
  ∃ g g', signed.payload = o.grantText g ∧ later.payload = o.grantText g' ∧ g.key = g'.key ∧ g.seq ≤ g'.seq ∧
    (g.seq = g'.seq → later.payload = signed.payload)

omit [DecidableEq P] in
theorem Covered.outdone {store : CheckoutGrantStore P} (covered : Covered o store later)
    (outdoes : Outdoes o later signed) : Covered o store signed := by
  obtain ⟨g, g', text, text', name, lower, equal⟩ := outdoes
  obtain ⟨h, cur, textH, current, above, same⟩ := covered
  obtain rfl : g' = h := Outside.grantText_inj (text'.symm.trans textH)
  refine ⟨g, cur, text, name ▸ current, lower.trans above, fun number => ?_⟩
  rw [same (by omega), equal (by omega)]

/-- No other text was released under the number of an issue, and what the cursor has passed of it is in
the store, or what a page will make it pass is about to be outdone. -/
structure Traced (o : Outside P) (slot : Proxy.Slot P) (signed : SignedEnvelope P) (w : World P) : Prop where
  once : ∀ e ∈ w.seed.released, ∀ g g', e.payload = o.grantText g → signed.payload = o.grantText g' → g.key = g'.key →
    g.seq = g'.seq → e.payload = signed.payload
  caught : slot.issueCtr ≤ w.renewer.cursor → Covered o w.store signed
  page : ∀ pass since page, w.renewer.pass = some pass → pass.page = some (since, page) → since < slot.issueCtr →
    slot.issueCtr ≤ page.next → Covered o w.store signed ∨ ∃ e ∈ pass.pending, Outdoes o e signed

section
variable {past : Slots P} {key : String} {slot : Proxy.Slot P} {signed : SignedEnvelope P}

omit [DecidableEq P] in
theorem Serving.issue (serving : Serving o files b secret seed) (here : (table seed).slots.lookup key = some slot)
    (carried : slot.grant = some signed) : Issue o (table seed) key slot signed := by
  obtain ⟨shown, kept, -⟩ := serving.kept
  exact ⟨here, carried, ⟨b.meshId, serving.orderly.inMemory⟩, _, kept.inMemory.good key slot here⟩

omit [DecidableEq P] in
theorem Issue.later (issue : Issue o past key slot signed) (serving : Serving o files b secret seed)
    (reissues : Reissues past (table seed)) : ∃ later signed', (table seed).slots.lookup key = some later ∧
      later.grant = some signed' ∧ Outdoes o signed' signed ∧ slot.issueCtr ≤ later.issueCtr ∧
      (signed' = signed ∧ later.issueCtr = slot.issueCtr ∨
        slot.seq < later.seq ∧ later.cogId = slot.cogId ∧ later.version = slot.version) := by
  obtain ⟨later, there, moved⟩ := reissues.forward key slot issue.here
  obtain ⟨n, numbered⟩ := issue.numbered
  obtain ⟨g, text, name, number⟩ := numbered.grant signed issue.carried
  obtain ⟨_, rfl⟩ | new := moved
  · exact ⟨_, signed, there, issue.carried, ⟨g, g, text, text, rfl, le_rfl, fun _ => rfl⟩, le_rfl, .inl ⟨rfl, rfl⟩⟩
  · obtain ⟨signed', carried'⟩ := (serving.orderly.inMemory.each there).granted
    obtain ⟨shown, kept, -⟩ := serving.kept
    obtain ⟨g', text', name', number'⟩ := (kept.inMemory.good key later there).grant signed' carried'
    obtain ⟨mesh, dated⟩ := issue.dated
    have within := (dated.each issue.here).counter
    have beyond := new.counter
    have higher := new.number
    refine ⟨later, signed', there, carried', ⟨g, g', text, text', ?_, by omega, by omega⟩, by omega,
      .inr ⟨higher, new.name⟩⟩
    apply Prod.ext
    · exact name.1.trans (new.name.1.symm.trans name'.1.symm)
    · exact name.2.trans (new.name.2.symm.trans name'.2.symm)

omit [DecidableEq P] in
/-- A table carries no other text under the number of an earlier issue. -/
theorem Issue.carries (issue : Issue o past key slot signed) (serving : Serving o files b secret seed)
    (reissues : Reissues past (table seed)) (carries : Carries (table seed) e) (text : e.payload = o.grantText g)
    (text' : signed.payload = o.grantText g') (name : g.key = g'.key) (number : g.seq = g'.seq) :
    e.payload = signed.payload := by
  obtain ⟨entry, listed, carried⟩ := carries
  obtain ⟨shown, kept, -⟩ := serving.kept
  have found := Table.lookup_of_mem kept.inMemory.distinct listed
  obtain ⟨n, numbered⟩ := issue.numbered
  have numberedHere := kept.inMemory.good _ _ found
  obtain ⟨h, textH, nameH, numberH⟩ := numberedHere.grant e carried
  obtain ⟨h', textH', nameH', numberH'⟩ := numbered.grant signed issue.carried
  obtain rfl : g = h := Outside.grantText_inj (text.symm.trans textH)
  obtain rfl : g' = h' := Outside.grantText_inj (text'.symm.trans textH')
  have sameKey : entry.1 = key := by
    have cog : g.cogId = g'.cogId := congrArg Prod.fst name
    have version : g.version = g'.version := congrArg Prod.snd name
    rw [numberedHere.named, numbered.named, ← nameH.1, ← nameH.2, ← nameH'.1, ← nameH'.2, cog, version]
  obtain ⟨later, signed', there, carried', -, -, last⟩ := issue.later serving reissues
  obtain rfl : later = entry.2 := some.inj (there.symm.trans (sameKey ▸ found))
  obtain rfl : signed' = e := some.inj (carried'.symm.trans carried)
  obtain ⟨rfl, -⟩ | ⟨higher, -⟩ := last
  · rfl
  · omega

omit [DecidableEq P] in
theorem Traced.held (traced : Traced o slot signed w) (issue : Issue o past key slot signed)
    (holding : Holding o w.seed.released w.store)
    (held : slot.seq ≤ heldSeq w.store (slot.cogId, slot.version)) : Covered o w.store signed := by
  obtain ⟨mesh, dated⟩ := issue.dated
  have first := (dated.each issue.here).first
  obtain ⟨n, numbered⟩ := issue.numbered
  obtain ⟨g, text, name, number⟩ := numbered.grant signed issue.carried
  have own : g.key = (slot.cogId, slot.version) := Prod.ext name.1 name.2
  unfold heldSeq at held
  cases current : (w.store.inner.slotAt (slot.cogId, slot.version)).current with
  | none =>
    rw [current] at held
    exact absurd held (not_le.mpr first)
  | some cur =>
    rw [current] at held
    obtain ⟨named, textCur, e, listed, same⟩ := holding _ cur current
    refine ⟨g, cur, text, own ▸ current, number ▸ held, fun equal => ?_⟩
    rw [← same]
    exact traced.once e listed cur.body g (same.trans textCur) text (named.trans own.symm) equal.symm

theorem Traced.accepts (traced : Traced o slot signed w) (holding : Holding o w.seed.released w.store)
    (once : Once o w.seed.released) (env : Env) (other : SignedEnvelope P)
    (genuine : (admitGrant o env w.store.inner other).toOption.isSome →
      ∃ e ∈ w.seed.released, e.payload = other.payload) :
    Traced o slot signed { w with store := (w.store.acceptGrant o env other).2 } where
  once := traced.once
  caught passed := (traced.caught passed).accepted holding once env other genuine
  page pass since page running paging after upTo :=
    (traced.page pass since page running paging after upTo).imp (·.accepted holding once env other genuine) id

/-- An issue stays traced. A page passes over it only when it carries a later one of the checkout, or the store
lacks no more than that. -/
theorem step_traced (bound : Bound files b secret) (issue : Issue o past key slot signed)
    (serving : Serving o files b secret w.seed) (caught : Caught o (table w.seed).ctr w)
    (traced : Traced o slot signed w) (moves : Moves o cfg w act w') (smooth : Smooth o cfg w act)
    (onward : Onward o files b secret w.seed w'.seed) (reissues : Reissues past (table w'.seed)) :
    Traced o slot signed w' := by
  have once := once_of_kept serving.kept
  have moved : Traced o slot signed { w with seed := w'.seed } := by
    refine ⟨fun e listed g g' text text' name number => ?_, traced.caught, traced.page⟩
    obtain before | new := onward.carried e listed
    · exact traced.once e before g g' text text' name number
    · exact issue.carries onward.serving reissues new text text' name number
  cases moves with
  | idle => exact traced
  | seed => exact moved
  | delivered => exact traced.accepts caught.holding once _ _ smooth
  | rebound => exact smooth.elim
  | passed call fixed asks cursor fresh =>
    refine ⟨moved.once, fun passed => ?_, fun pass since page running paging => ?_⟩
    · obtain ⟨mesh, dated⟩ := issue.dated
      have first := (dated.each issue.here).first.trans_le (dated.each issue.here).number
      dsimp only at passed
      exact traced.caught (by omega)
    · rw [(fresh pass running).1] at paging
      cases paging
  | @applied seedCtr head rest page left env running =>
    have sent := caught.pending _ running head List.mem_cons_self
    have next := traced.accepts caught.holding once env head fun _ => sent
    refine { next with page := ?_ }
    rintro _ since page' ⟨⟩ paging after upTo
    obtain covered | ⟨e, waiting, outdoes⟩ := next.page _ since page' running paging after upTo
    · exact .inl covered
    obtain rfl | later := List.mem_cons.mp waiting
    · -- the store does not refuse a grant of a page
      dsimp only at paging
      subst paging
      simp only [Smooth, paged_eq running, all_some] at smooth
      exact .inl ((covered_of_accepted smooth).outdone outdoes)
    · exact .inr ⟨e, later, outdoes⟩
  | turned running cursor fresh =>
    obtain ⟨from_, -⟩ := caught.page _ _ _ running rfl
    refine ⟨traced.once, fun passed => ?_, fun pass since page here paging => ?_⟩
    · dsimp only at passed
      by_cases before : slot.issueCtr ≤ w.renewer.cursor
      · exact traced.caught before
      · obtain covered | ⟨e, waiting, -⟩ := traced.page _ _ _ running rfl (by omega) (by omega)
        · exact covered
        · cases waiting
    · rw [(fresh pass here).1] at paging
      cases paging
  | asked cursor answer =>
    refine ⟨moved.once, fun passed => traced.caught (cursor ▸ passed), fun pass since page here paging after upTo => ?_⟩
    obtain ⟨inner, up, paged, pending⟩ := answer pass here
    cases paged.symm.trans paging
    obtain ⟨memory, dated, mesh⟩ := onward.serving.running bound up
    obtain ⟨later, signed', there, carried, outdoes, beyond, last⟩ := issue.later onward.serving reissues
    have unmoved : table w.seed = inner.slots := (grants_table serving.steady ..).symm.trans memory
    rw [memory] at there
    by_cases reached : later.issueCtr ≤ (grantsPage cfg inner w.renewer.cursor).next
    · have listed := (grantsPage_complete dated mesh).1 key later signed' there carried (by omega) reached
      exact .inr ⟨signed', pending ▸ (mem_applyOrder o).mpr listed, outdoes⟩
    · obtain ⟨-, same⟩ | ⟨higher, cog, version⟩ := last
      · omega
      have noRoom := noRoom_of_left dated mesh there (by omega) (not_le.mp reached)
      rw [← unmoved] at noRoom there
      have close := smooth (key, later) (Table.mem_of_lookup there) noRoom
      dsimp only at close
      rw [cog, version] at close
      exact .inl (traced.held issue caught.holding (by omega))

omit [DecidableEq P] in
/-- An issue that has just come into the table is beyond the cursor and every page. -/
theorem Issue.enters (issue : Issue o (table w.seed) key slot signed) (serving : Serving o files b secret w.seed)
    (caught : Caught o ctr w) (beyond : ctr < slot.issueCtr) : Traced o slot signed w where
  once e listed g g' text text' name number := by
    obtain ⟨shown, kept, grants⟩ := serving.kept
    have there : some e ∈ shown.map (·.2.grant) := grants ▸ List.mem_map_of_mem listed
    obtain ⟨item, shownItem, carried⟩ := List.mem_map.mp there
    obtain ⟨entry, found, follows⟩ := kept.covered item shownItem
    have rises := rises_of_follows (kept.shownGood item shownItem) (kept.inMemory.good key slot issue.here) carried
      issue.carried fun same => by
        obtain rfl : entry = slot := some.inj (found.symm.trans (same ▸ issue.here))
        exact follows
    exact (rises g g' text text' (congrArg Prod.fst name) (congrArg Prod.snd name)).2 number
  caught passed := by
    have reached := caught.reached
    omega
  page pass since page running paging _ upTo := by
    have within := (caught.page pass since page running paging).2
    omega

end

/-- Every issue in the table is traced. -/
structure Following (o : Outside P) (files : Files) (b : BindingRecord) (secret : Octets) (w : World P) : Prop where
  serving : Serving o files b secret w.seed
  caught : Caught o (table w.seed).ctr w
  known : ∀ key slot signed, (table w.seed).slots.lookup key = some slot → slot.grant = some signed →
    Traced o slot signed w

theorem Following.step (bound : Bound files b secret) (following : Following o files b secret w)
    (smooth : Smooth o cfg w act) (few : (w.step o cfg maxPages act).seed.issues < 2 ^ 64) :
    Following o files b secret (w.step o cfg maxPages act) ∧
      Reissues (table w.seed) (table (w.step o cfg maxPages act).seed) ∧
      ∀ past key slot signed, Issue o past key slot signed → Reissues past (table w.seed) → Traced o slot signed w →
        Traced o slot signed (w.step o cfg maxPages act) := by
  have moves : Moves o cfg w act (w.step o cfg maxPages act) := step_moves w act
  generalize w.step o cfg maxPages act = w' at few moves
  obtain ⟨serving, caught, known⟩ := following
  have onward := moves.onward bound serving smooth few
  have caught' := step_caught bound serving caught moves smooth onward
  have traces past key slot signed (issue : Issue o past key slot signed) (before : Reissues past (table w.seed))
      (traced : Traced o slot signed w) : Traced o slot signed w' :=
    step_traced bound issue serving caught traced moves smooth onward (before.trans onward.reissues)
  refine ⟨⟨onward.serving, ?_, fun key slot signed here carried => ?_⟩, onward.reissues, traces⟩
  · exact { caught' with
      reached := caught'.reached.trans onward.reissues.later
      page := fun pass since page running paging =>
        (caught'.page pass since page running paging).imp id (·.trans onward.reissues.later) }
  · by_cases old : slot.issueCtr ≤ (table w.seed).ctr
    · obtain ⟨before, there, _, rfl⟩ := onward.reissues.back key slot here old
      have traced := traces _ key before signed (serving.issue there carried) (.refl _)
        (known key before signed there carried)
      exact ⟨traced.once, traced.caught, traced.page⟩
    · exact (onward.serving.issue here carried).enters onward.serving caught' (not_le.mp old)

theorem run_following (bound : Bound files b secret) (following : Following o files b secret w)
    (smooth : Run.Along (World.step o cfg maxPages) (Smooth o cfg) w acts)
    (few : (Run.run (World.step o cfg maxPages) w acts).seed.issues < 2 ^ 64) :
    Following o files b secret (Run.run (World.step o cfg maxPages) w acts) ∧
      ∀ past key slot signed, Issue o past key slot signed → Reissues past (table w.seed) → Traced o slot signed w →
        Traced o slot signed (Run.run (World.step o cfg maxPages) w acts) := by
  induction acts generalizing w with
  | nil => exact ⟨following, fun _ _ _ _ _ _ traced => traced⟩
  | cons act acts ih =>
    obtain ⟨next, reissues, traces⟩ := following.step bound smooth.1 ((run_issues _ acts).trans_lt few)
    obtain ⟨last, rest⟩ := ih next smooth.2 few
    refine ⟨last, fun past key slot signed issue before traced => ?_⟩
    exact rest past key slot signed issue (before.trans reissues) (traces past key slot signed issue before traced)

omit [DecidableEq P] in
theorem following_start {store : CheckoutGrantStore P} (empty : store.inner.slots = []) :
    Following o files b secret { seed := { files := files }, store := store } where
  serving := ⟨⟨rfl, fun inner running => by cases running⟩, orderly_empty b.meshId files, kept_empty files⟩
  caught := by
    refine ⟨fun name cur held => ?_, le_rfl, nofun, nofun⟩
    rw [Inner.slotAt, empty] at held
    cases held
  known key slot signed found := by cases found

variable (o cfg maxPages) in
/-- Under one binding, with no grant of a page refused and with no checkout beyond a page of which the store
lacks more than the last issue: every grant the Seed ever had under a counter that the cursor has reached is
held by the store, or has a higher number there. -/
theorem cursor_passes_over_nothing (bound : Bound files b secret) (store : CheckoutGrantStore P)
    (empty : store.inner.slots = []) (before after : List (Act P))
    (smooth : Run.Along (World.step o cfg maxPages) (Smooth o cfg) { seed := { files := files }, store := store }
      (before ++ after))
    (few : (Run.run (World.step o cfg maxPages) { seed := { files := files }, store := store }
      (before ++ after)).seed.issues < 2 ^ 64) (key : String) (slot : Proxy.Slot P) (signed : SignedEnvelope P) :
    let past := Run.run (World.step o cfg maxPages) { seed := { files := files }, store := store } before
    let now := Run.run (World.step o cfg maxPages) { seed := { files := files }, store := store } (before ++ after)
    (table past.seed).slots.lookup key = some slot → slot.grant = some signed → slot.issueCtr ≤ now.renewer.cursor →
    Covered o now.store signed := by
  intro past now here carried passed
  have issues := @run_issues _ _ o cfg maxPages past after
  rw [Run.run_append] at few
  obtain ⟨smooth, smoothAfter⟩ := Run.along_append.mp smooth
  obtain ⟨following, -⟩ := run_following bound (following_start empty) smooth (issues.trans_lt few)
  obtain ⟨-, traces⟩ := run_following bound following smoothAfter few
  have traced := traces _ key slot signed (following.serving.issue here carried) (.refl _)
    (following.known key slot signed here carried)
  have end_ : Run.run (World.step o cfg maxPages) past after = now := (Run.run_append _ before after).symm
  rw [end_] at traced
  exact traced.caught passed

end

/-! ### A sample -/

namespace Sample

def world : World Text := { seed := { files := files }, store := Converge.Sample.store }

def run (acts : List (Act Text)) : World Text := Run.run (World.step outside (config 1) 16) world acts

def checkedOut : List (Act Text) :=
  let acts := .seed (.start .done) :: (checkout clock [1]).map .seed
  acts ++ (run acts).seed.released.map fun signed => .deliver (env clock) signed

def pass (now : Nat) : List (Act Text) := [.begin now (fun _ => .ok entitlement) .done .done false, .page .done false,
  .apply (env now), .turn]

def issued (w : World Text) : Option (Proxy.Slot Text × SignedEnvelope Text) :=
  ((table w.seed).slots.lookup "cog@1").bind fun slot => slot.grant.map fun signed => (slot, signed)

theorem issued_eq (here : issued w = some (slot, signed)) :
    (table w.seed).slots.lookup "cog@1" = some slot ∧ slot.grant = some signed := by
  obtain ⟨_, found, made⟩ := bind_eq_some_iff.mp here
  obtain ⟨_, carried, pair⟩ := map_eq_some_iff.mp made
  cases pair
  exact ⟨found, carried⟩

def release (ahead : Nat) : Act Text := .seed (renewal (clock + ahead) [("cog", "1")] .done)

end Sample
open Sample

/-- A release is paged and installed. -/
theorem cursor_passes_over_nothing_release :
    let past := run (checkedOut ++ [release 10])
    let now := run (checkedOut ++ [release 10] ++ pass (clock + 20))
    ∃ slot signed, (table past.seed).slots.lookup "cog@1" = some slot ∧ slot.grant = some signed ∧
      slot.issueCtr ≤ now.renewer.cursor ∧ Covered outside now.store signed := by
  intro past now
  have reached : ∃ entry ∈ issued past, entry.1.issueCtr ≤ now.renewer.cursor := by decide +kernel
  simp only [now, run, world] at reached ⊢
  obtain ⟨⟨slot, signed⟩, entry, passed⟩ := reached
  obtain ⟨here, carried⟩ := issued_eq entry
  refine ⟨slot, signed, here, carried, passed, ?_⟩
  exact cursor_passes_over_nothing outside (config 1) 16 (⟨rfl, rfl, rfl⟩ : Bound files binding grantKey)
    Converge.Sample.store rfl (checkedOut ++ [release 10]) (pass (clock + 20)) (by decide +kernel) (by decide +kernel)
    "cog@1" slot signed here carried passed

/-- A checkout is released on a Seed whose clock is ahead of the store's: the cursor passes the withdrawal
though the store refuses it. -/
theorem withdrawal_passed_over :
    let w := run (checkedOut ++ [release 1000] ++ pass (clock + 10) ++
      pass (clock + 5000))
    ∃ slot signed g, (table w.seed).slots.lookup "cog@1" = some slot ∧ slot.grant = some signed ∧
      slot.issueCtr ≤ w.renewer.cursor ∧ outside.parseGrant signed.payload = .ok g ∧
      g.isWithdrawal = true ∧ ¬ Covered outside w.store signed := by
  intro w
  have latest : ∃ entry ∈ issued w, entry.1.issueCtr ≤ w.renewer.cursor ∧
      ∃ g, outside.parseGrant entry.2.payload = .ok g ∧ g.key = ("cog", "1") ∧ g.seq = 2 ∧ g.isWithdrawal = true := by
    decide +kernel
  have held : ∀ cur ∈ (w.store.inner.slotAt ("cog", "1")).current, cur.body.seq = 1 := by decide +kernel
  obtain ⟨⟨slot, signed⟩, entry, passed, g, parsed, name, number, restricts⟩ := latest
  obtain ⟨here, carried⟩ := issued_eq entry
  refine ⟨slot, signed, g, here, carried, passed, parsed, restricts, ?_⟩
  rintro ⟨h, cur, text, current, above, -⟩
  rw [text, outside.parseGrant_grantText] at parsed
  cases parsed
  rw [name] at current
  have one := held cur current
  omega

end Weftos.Licence.Renewal
