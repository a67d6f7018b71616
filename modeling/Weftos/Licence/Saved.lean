import Weftos.Licence.Withdrawal

/-! What may count before it is saved, over runs with any pattern of failing writes. -/

namespace Weftos.Licence.Saved
open Lib Lib.Outcome
open Wire Store Approvals Member List

section
variable {P : Type} {inner : Inner P} {W W' : StoreFile P → Prop} {A : ApprovalsFile P → Prop}
  {name : String × String} {slot : Slot P} {held : Held P CheckoutGrant}

def grantIn (f : StoreFile P) (name : String × String) (signed : SignedEnvelope P) : Prop :=
  ∃ file ∈ f.grants, (file.cogId, file.version) = name ∧ (file.current = some signed ∨ file.previous = some signed)

structure InnerSaved (W : StoreFile P → Prop) (inner : Inner P) : Prop where
  binding : ∀ held, inner.binding = some held → held.body.state = .bound → ∃ f, W f ∧ f.binding = some held.signed
  grant : ∀ name held, (inner.slotAt name).Holds held → held.body.isWithdrawal = false →
    ∃ f, W f ∧ grantIn f name held.signed

def ApprovalsSaved (A : ApprovalsFile P → Prop) (s : ApprovalStore P) : Prop :=
  ∀ id held, (id, held) ∈ s.held → ∃ f, A f ∧ held.signed ∈ f.approvals

/-! ### The grant store -/

theorem InnerSaved.of_same (saved : InnerSaved W inner) (binding : inner'.binding = inner.binding)
    (slots : inner'.slots = inner.slots) : InnerSaved W inner' where
  binding held here := saved.binding held (binding ▸ here)
  grant name held holds := by
    rw [Inner.slotAt, slots] at holds
    exact saved.grant name held holds

theorem InnerSaved.mono (saved : InnerSaved W inner) (more : ∀ f, W f → W' f) :
    InnerSaved W' inner where
  binding held here bound := by
    obtain ⟨f, written, listed⟩ := saved.binding held here bound
    exact ⟨f, more f written, listed⟩
  grant name held holds permits := by
    obtain ⟨f, written, listed⟩ := saved.grant name held holds permits
    exact ⟨f, more f written, listed⟩

theorem innerSaved_void (binding : inner.binding = none) (slots : inner.slots = []) : InnerSaved W inner where
  binding held here := by cases binding.symm.trans here
  grant name held holds := by
    rw [Inner.slotAt, slots] at holds
    obtain here | here := holds <;> cases here

theorem lookup_of_holds (holds : (inner.slotAt name).Holds held) :
    ∃ slot, inner.slots.lookup name = some slot ∧ slot.Holds held := by
  unfold Inner.slotAt at holds
  cases found : inner.slots.lookup name with
  | none =>
    rw [found] at holds
    obtain here | here := holds <;> cases here
  | some slot =>
    rw [found] at holds
    exact ⟨slot, rfl, holds⟩

theorem grantIn_fileOf (holds : (inner.slotAt name).Holds held) : grantIn inner.fileOf name held.signed := by
  obtain ⟨slot, found, here⟩ := lookup_of_holds holds
  have listed := Inner.mem_entries.mpr (Table.mem_of_lookup found)
  refine ⟨_, mem_map_of_mem listed, rfl, ?_⟩
  obtain current | previous := here
  · exact .inl (congrArg (Option.map _) current)
  · exact .inr (congrArg (Option.map _) previous)

theorem innerSaved_fileOf (written : W inner.fileOf) : InnerSaved W inner where
  binding _ here _ := ⟨inner.fileOf, written, congrArg (Option.map _) here⟩
  grant _ _ holds _ := ⟨inner.fileOf, written, grantIn_fileOf holds⟩

theorem InnerSaved.put (saved : InnerSaved W inner)
    (held : ∀ held, slot.Holds held → held.body.isWithdrawal = false → (inner.slotAt name).Holds held) :
    InnerSaved W (inner.put name slot) where
  binding := saved.binding
  grant other grant holds permits := by
    by_cases same : other = name
    · subst same
      rw [Inner.slotAt_put] at holds
      exact saved.grant other grant (held grant holds permits) permits
    · rw [Inner.slotAt_put_of_ne inner slot same] at holds
      exact saved.grant other grant holds permits

theorem InnerSaved.unbind {held : Held P BindingRecord} (saved : InnerSaved W inner)
    (unbinds : held.body.state = .unbound) : InnerSaved W (inner.rebind held) where
  binding other here bound := by
    obtain rfl : held = other := Option.some.inj here
    rw [unbinds] at bound
    cases bound
  grant name grant holds := by
    have kept : (inner.rebind held).slots = [] ∨ (inner.rebind held).slots = inner.slots := by
      unfold Inner.rebind
      split
      · split
        · exact .inl rfl
        · exact .inr rfl
      · exact .inr rfl
    obtain void | same := kept
    · rw [Inner.slotAt, void] at holds
      obtain here | here := holds <;> cases here
    · rw [Inner.slotAt, same] at holds
      exact saved.grant name grant holds

variable [DecidableEq P] {o : Outside P} {anchors : TrustAnchors}

section
variable {s : CheckoutGrantStore P} (saved : InnerSaved W s.inner) (more : ∀ f, W f → W' f)
include saved more

theorem InnerSaved.acceptGrant (env : Env) (signed : SignedEnvelope P)
    (written : ∀ f, (s.acceptGrant o env signed).2.disk = .file f → W' f) :
    InnerSaved W' (s.acceptGrant o env signed).2.inner := by
  obtain ⟨result, s', call, step⟩ := acceptGrant_step o env s signed
  simp only [call] at written ⊢
  have before := saved.mono more
  cases step with
  | unverified => exact before
  | early | full | refused | kept | unsaved => exact before.of_same rfl rfl
  | @conflict b g slot verified ruling =>
    have kept : InnerSaved W' (s.inner.put g.key slot) := by
      apply before.put
      intro held holds permits
      obtain ⟨rfl, restricts⟩ | old := Slot.conflict_holds ruling holds
      · exact absurd (restricts.symm.trans permits) (by decide)
      · exact old
    cases env.write <;> exact kept.of_same rfl rfl
  | @withdrawn b g slot verified ruling restricts =>
    have kept : InnerSaved W' (s.inner.put g.key slot) := by
      apply before.put
      intro held holds permits
      obtain rfl | old := Slot.placed_holds ruling holds
      · exact absurd (restricts.symm.trans permits) (by decide)
      · exact old
    cases env.write <;> exact kept.of_same rfl rfl
  | granted => exact (innerSaved_fileOf (written _ rfl)).of_same rfl rfl

theorem InnerSaved.acceptBinding (env : Env) (signed : SignedEnvelope P) (posture : AdmissionPosture)
    (extra : BindingRecord → Except LicenceError Unit)
    (written : ∀ f, (s.acceptBinding o anchors env signed posture extra).2.disk = .file f → W' f) :
    InnerSaved W' (s.acceptBinding o anchors env signed posture extra).2.inner := by
  obtain ⟨result, s', call, step⟩ := acceptBinding_step o anchors env s signed posture extra
  simp only [call] at written ⊢
  have before := saved.mono more
  cases step with
  | idle | lost => exact before
  | unbound verified newer unbinds => cases env.write <;> exact (before.unbind unbinds).of_same rfl rfl
  | bound => exact (innerSaved_fileOf (written _ rfl)).of_same rfl rfl

end

theorem innerSaved_load (written : ∀ f, disk = .file f → W f)
    (loaded : load o anchors disk = .ok inner) : InnerSaved W inner := by
  cases disk with
  | missing =>
    cases loaded
    exact innerSaved_void rfl rfl
  | unreadable why => cases loaded
  | file f =>
    simp only [load, bind_ok_iff, ensure_ok_iff] at loaded
    obtain ⟨_, -, binding, bindingLoaded, _, -, rest⟩ := loaded
    have signed : ∀ held, binding = some held → f.binding = some held.signed := by
      rintro held rfl
      cases stored : f.binding with
      | none =>
        rw [stored] at bindingLoaded
        cases bindingLoaded
      | some signed =>
        simp only [stored, loadBinding, bind_ok_iff, pure_ok_iff] at bindingLoaded
        obtain ⟨_, -, same⟩ := bindingLoaded
        cases same
        rfl
    split at rest
    · cases rest
      refine ⟨fun held here _ => ⟨f, written f rfl, signed held here⟩, ?_⟩
      intro name held holds
      obtain here | here := holds <;> cases here
    · simp only [bind_ok_iff, require_ok_iff, pure_ok_iff] at rest
      obtain ⟨key, -, slots, slotsLoaded, rfl⟩ := rest
      have start : (([] : List ((String × String) × Slot P)).map (·.1)).Nodup := nodup_nil
      obtain ⟨-, origin⟩ := loadSlots_ok start slotsLoaded
      refine ⟨fun held here _ => ⟨f, written f rfl, signed held here⟩, ?_⟩
      intro name held holds _
      obtain ⟨slot, found, here⟩ := lookup_of_holds holds
      obtain nothing | ⟨file, listed, read⟩ := origin name slot found
      · cases nothing
      · obtain ⟨rfl, held_⟩ := loadSlot_ok read
        exact ⟨f, written f rfl, file, listed, rfl, (held_ held here).1⟩

omit [DecidableEq P] in
theorem approvalsSaved_fileOf (written : A s.fileOf) : ApprovalsSaved A s := by
  intro id held listed
  exact ⟨s.fileOf, written, mem_map_of_mem (ApprovalStore.mem_entries.mpr listed)⟩

theorem loadApprovals_mem {held result : List (String × Held P Approval)}
    (loaded : loadApprovals o anchors files held = .ok result) :
    ∀ entry ∈ result, entry ∈ held ∨ entry.2.signed ∈ files := by
  induction files generalizing held with
  | nil =>
    cases loaded
    exact fun entry listed => .inl listed
  | cons signed files ih =>
    simp only [loadApprovals, bind_ok_iff] at loaded
    obtain ⟨a, -, rest⟩ := loaded
    intro entry listed
    obtain before | later := ih rest entry listed
    · obtain kept | added := mem_append.mp before
      · exact .inl (mem_filter.mp kept).1
      · rw [mem_singleton.mp added]
        exact .inr mem_cons_self
    · exact .inr (mem_cons_of_mem _ later)

theorem approvalsSaved_open (written : ∀ f, disk = .file f → A f) :
    ApprovalsSaved A (openApprovals o anchors disk) := by
  unfold openApprovals
  split
  next held loaded =>
    cases disk with
    | missing =>
      cases loaded
      intro id held listed
      cases listed
    | unreadable why => cases loaded
    | file f =>
      simp only [loadStore, bind_ok_iff] at loaded
      obtain ⟨_, -, rest⟩ := loaded
      intro id held listed
      obtain nothing | stored := loadApprovals_mem rest (id, held) listed
      · cases nothing
      · exact ⟨f, written f rfl, stored⟩
  · intro id held listed
    cases listed

omit [DecidableEq P] in
theorem Upkeep.records (upkeep : Upkeep True s t) :
    t.inner.binding = s.inner.binding ∧ t.inner.slots = s.inner.slots := by
  induction upkeep with
  | refl => exact ⟨rfl, rfl⟩
  | observe _ _ _ ih | reset _ _ _ _ ih | noteBound _ _ ih => exact ih
  | save _ write ih => cases write <;> exact ih

theorem step_innerSaved (saved : InnerSaved W n.grants.inner) (more : ∀ f, W f → W' f)
    (written : ∀ f, (step o anchors n act).grants.disk = .file f → W' f) :
    InnerSaved W' (step o anchors n act).grants.inner := by
  have before := saved.mono more
  have kept {t : CheckoutGrantStore P} (upkeep : Upkeep True n.grants t) : InnerSaved W' t.inner :=
    before.of_same (Upkeep.records upkeep).1 (Upkeep.records upkeep).2
  cases act with
  | bind env signed posture extra => exact saved.acceptBinding more env signed posture extra written
  | grant env signed => exact saved.acceptGrant more env signed written
  | approve => exact before
  | tamper how => cases how <;> exact before
  | query kind env => exact kept (.asked kind env)
  | tick env => exact kept (.tick env)
  | resetFloor env => exact kept (.resetFloor env)
  | everBound env => exact kept (.wasEverBound env)
  | restart =>
    change InnerSaved W' (openOrPoisoned o anchors n.grants.disk n.grants.marker).inner
    change ∀ f, (openOrPoisoned o anchors n.grants.disk n.grants.marker).disk = .file f → W' f at written
    unfold openOrPoisoned at written ⊢
    split
    next inner loaded =>
      rw [loaded] at written
      exact innerSaved_load written loaded
    · exact innerSaved_void rfl rfl

theorem step_approvalsSaved {A' : ApprovalsFile P → Prop}
    (saved : ApprovalsSaved A n.approvals) (more : ∀ f, A f → A' f)
    (writes : ∀ env signed, act = .approve env signed → env.write = none)
    (written : ∀ f, (step o anchors n act).approvals.disk = .file f → A' f) :
    ApprovalsSaved A' (step o anchors n act).approvals := by
  have before : ApprovalsSaved A' n.approvals := by
    intro id held listed
    obtain ⟨f, here, stored⟩ := saved id held listed
    exact ⟨f, more f here, stored⟩
  cases act with
  | bind | grant | query | tick | resetFloor | everBound => exact before
  | tamper how => cases how <;> exact before
  | approve env signed =>
    change ApprovalsSaved A' (n.approvals.accept o anchors env signed).2
    change ∀ f, (n.approvals.accept o anchors env signed).2.disk = .file f → A' f at written
    obtain ⟨result, s', call, step⟩ := accept_step o anchors env n.approvals signed
    simp only [call] at written ⊢
    cases step with
    | idle => exact before
    | unsaved _ failed => cases failed.symm.trans (writes env signed rfl)
    | saved => exact approvalsSaved_fileOf (written _ rfl)
  | restart =>
    apply approvalsSaved_open
    intro f here
    apply written f
    change (openApprovals o anchors n.approvals.disk).disk = .file f
    unfold openApprovals
    split <;> exact here

/-- The file stood on the node's disk at some moment of the run, so a write of it succeeded. -/
def Written (o : Outside P) (anchors : TrustAnchors) (acts : List (Act P)) (f : StoreFile P) : Prop :=
  ∃ before after, acts = before ++ after ∧ (Run.run (step o anchors) {} before).grants.disk = .file f

def WrittenApprovals (o : Outside P) (anchors : TrustAnchors) (acts : List (Act P)) (f : ApprovalsFile P) : Prop :=
  ∃ before after, acts = before ++ after ∧ (Run.run (step o anchors) {} before).approvals.disk = .file f

theorem run_saved (acts : List (Act P)) (writes : ∀ env signed, .approve env signed ∈ acts → env.write = none) :
    InnerSaved (Written o anchors acts) (Run.run (step o anchors) {} acts).grants.inner ∧
      ApprovalsSaved (WrittenApprovals o anchors acts) (Run.run (step o anchors) {} acts).approvals := by
  induction acts using reverseRecOn with
  | nil =>
    exact ⟨innerSaved_void rfl rfl, fun id held listed => by cases listed⟩
  | append_singleton acts act ih =>
    obtain ⟨grants, approvals⟩ := ih fun env signed listed => writes env signed (mem_append_left _ listed)
    have moreGrants : ∀ f, Written o anchors acts f → Written o anchors (acts ++ [act]) f := by
      rintro f ⟨before, after, rfl, here⟩
      exact ⟨before, after ++ [act], append_assoc _ _ _, here⟩
    have moreApprovals : ∀ f, WrittenApprovals o anchors acts f → WrittenApprovals o anchors (acts ++ [act]) f := by
      rintro f ⟨before, after, rfl, here⟩
      exact ⟨before, after ++ [act], append_assoc _ _ _, here⟩
    have last : Run.run (step o anchors) {} (acts ++ [act]) =
        step o anchors (Run.run (step o anchors) {} acts) act := Run.run_append _ _ _
    rw [last]
    constructor
    · apply step_innerSaved grants moreGrants
      intro f here
      exact ⟨acts ++ [act], [], (append_nil _).symm, last ▸ here⟩
    · apply step_approvalsSaved approvals moreApprovals
      · rintro env signed rfl
        exact writes env signed (mem_append_right _ mem_cons_self)
      · intro f here
        exact ⟨acts ++ [act], [], (append_nil _).symm, last ▸ here⟩

/-! ### File and memory -/

variable {s : CheckoutGrantStore P} {e : LicenceError}

def InSync (s : CheckoutGrantStore P) : Prop :=
  match s.disk with
  | .missing => s.inner.binding = none ∧ s.inner.slots = []
  | .unreadable _ => False
  | .file f => f.binding = s.inner.fileOf.binding ∧ f.grants = s.inner.fileOf.grants

def Marked (s : CheckoutGrantStore P) : Prop := s.inner.dirty = true ∨ InSync s

omit [DecidableEq P] in
theorem Marked.of_same (marked : Marked s) (binding : s'.inner.binding = s.inner.binding)
    (slots : s'.inner.slots = s.inner.slots) (dirty : s'.inner.dirty = s.inner.dirty) (disk : s'.disk = s.disk) :
    Marked s' := by
  obtain ahead | sync := marked
  · exact .inl (dirty.trans ahead)
  · right
    unfold InSync at sync ⊢
    rw [disk]
    simp only [Inner.fileOf, Inner.entries, binding, slots]
    exact sync

omit [DecidableEq P] in
theorem Marked.save (marked : Marked s) (write : Option LicenceError) :
    Marked (s.save write).2 := by
  cases write with
  | none => exact .inr ⟨rfl, rfl⟩
  | some e => exact marked

omit [DecidableEq P] in
theorem marked_commitRestrictive (write : Option LicenceError) (s : CheckoutGrantStore P) (next : Inner P) :
    Marked (s.commitRestrictive write next).2 := by
  cases write with
  | none => exact .inr ⟨rfl, rfl⟩
  | some e => exact .inl rfl

omit [DecidableEq P] in
theorem Marked.upkeep (marked : Marked s) (upkeep : Upkeep True s t) : Marked t := by
  induction upkeep with
  | refl => exact marked
  | observe _ _ _ ih | reset _ _ _ _ ih | noteBound _ _ ih => exact ih.of_same rfl rfl rfl rfl
  | save _ write ih => exact ih.save write

theorem Marked.acceptGrant (marked : Marked s) (env : Env) (signed : SignedEnvelope P) :
    Marked (s.acceptGrant o env signed).2 := by
  obtain ⟨result, s', call, step⟩ := acceptGrant_step o env s signed
  simp only [call]
  cases step with
  | unverified => exact marked
  | early | full | refused | kept | unsaved => exact marked.of_same rfl rfl rfl rfl
  | conflict | withdrawn => exact marked_commitRestrictive _ _ _
  | granted => exact .inr ⟨rfl, rfl⟩

theorem Marked.acceptBinding (marked : Marked s) (env : Env) (signed : SignedEnvelope P) (posture : AdmissionPosture)
    (extra : BindingRecord → Except LicenceError Unit) :
    Marked (s.acceptBinding o anchors env signed posture extra).2 := by
  obtain ⟨result, s', call, step⟩ := acceptBinding_step o anchors env s signed posture extra
  simp only [call]
  cases step with
  | idle | lost => exact marked
  | unbound => exact marked_commitRestrictive _ _ _
  | bound => exact .inr ⟨rfl, rfl⟩

def Undisturbed : Act P → Prop
  | .restart => False
  | .tamper _ => False
  | _ => True

theorem step_marked (n : Node P) (act : Act P) (marked : Marked n.grants) (undisturbed : Undisturbed act) :
    Marked (step o anchors n act).grants := by
  cases act with
  | restart | tamper => exact undisturbed.elim
  | bind env signed posture extra => exact marked.acceptBinding env signed posture extra
  | grant env signed => exact marked.acceptGrant env signed
  | approve => exact marked
  | query kind env => exact marked.upkeep (.asked kind env)
  | tick env => exact marked.upkeep (.tick env)
  | resetFloor env => exact marked.upkeep (.resetFloor env)
  | everBound env => exact marked.upkeep (.wasEverBound env)

/-! ### One rule for all records -/

def WriteError (e : LicenceError) : Prop := e = .tooLarge ∨ ∃ why, e = .persist why

def Applied (result : Except LicenceError Outcome) : Prop := result = .ok .applied ∨ result = .ok .appliedUnsaved

/-- Permissions are in force only when saved, an accept whose write failed changed no record, restrictions are
in force whatever becomes of the write, and a save that succeeds brings the file up to memory. -/
structure OnlySavedCounts (o : Outside P) (anchors : TrustAnchors) (acts : List (Act P)) (n : Node P) : Prop where
  saved : InnerSaved (Written o anchors acts) n.grants.inner
  savedApprovals : ApprovalsSaved (WrittenApprovals o anchors acts) n.approvals
  bindingFailed : ∀ env signed posture extra e,
    (n.grants.acceptBinding o anchors env signed posture extra).1 = .error e →
      (n.grants.acceptBinding o anchors env signed posture extra).2 = n.grants
  grantFailed : ∀ env signed e, WriteError e → (n.grants.acceptGrant o env signed).1 = .error e →
    (n.grants.acceptGrant o env signed).2 = n.grants ∨
      ∃ key, (n.grants.acceptGrant o env signed).2 = n.grants.observe env.now key
  approvalFailed : ∀ env signed e, env.write = none → (n.approvals.accept o anchors env signed).1 = .error e →
    (n.approvals.accept o anchors env signed).2 = n.approvals
  unbinds : ∀ env signed posture extra record,
    admitBinding o anchors env n.grants.inner signed posture extra = .ok record → record.state = .unbound →
      (∀ cur, n.grants.inner.binding = some cur → cur.body.seq < record.seq) →
      Applied (n.grants.acceptBinding o anchors env signed posture extra).1 ∧
        (n.grants.acceptBinding o anchors env signed posture extra).2.inner.binding = some ⟨signed, record⟩ ∧
        ∀ later, ((n.grants.acceptBinding o anchors env signed posture extra).2.verifiedGrants later).1 = []
  withdraws : ∀ env signed b g slot, Admitted o env n.grants signed b g → g.isWithdrawal = true →
    (n.grants.inner.slotAt g.key).accept ⟨signed, g⟩ = .placed slot →
      Applied (n.grants.acceptGrant o env signed).1 ∧
        ((n.grants.acceptGrant o env signed).2.inner.slotAt g.key).current = some ⟨signed, g⟩
  conflicts : ∀ env signed b g slot, Admitted o env n.grants signed b g →
    (n.grants.inner.slotAt g.key).accept ⟨signed, g⟩ = .conflict slot →
      (n.grants.acceptGrant o env signed).2.inner.slotAt g.key = slot ∧ g.seq ∈ slot.conflicted ∧
        ∀ cur, slot.current = some cur → cur.body.isWithdrawal = true ∨
          (n.grants.inner.slotAt g.key).previous = some cur
  grantWritten : ∀ env signed, (n.grants.acceptGrant o env signed).1 = .ok .applied →
    (n.grants.acceptGrant o env signed).2.disk = .file (n.grants.acceptGrant o env signed).2.inner.fileOf
  bindingWritten : ∀ env signed posture extra,
    (n.grants.acceptBinding o anchors env signed posture extra).1 = .ok .applied →
      (n.grants.acceptBinding o anchors env signed posture extra).2.disk =
        .file (n.grants.acceptBinding o anchors env signed posture extra).2.inner.fileOf
  approvalWritten : ∀ env signed, (n.approvals.accept o anchors env signed).1 = .ok .applied →
    (n.approvals.accept o anchors env signed).2.disk = .file (n.approvals.accept o anchors env signed).2.fileOf
  retried : ∀ env, n.grants.inner.dirty = true → n.grants.inner.poisoned = none → env.write = none →
    (n.grants.retrySave env).inner.dirty = false ∧
      (n.grants.retrySave env).disk = .file (n.grants.retrySave env).inner.fileOf
  marked : (∀ act ∈ acts, Undisturbed act) → Marked n.grants

section
variable (s : CheckoutGrantStore P) (env : Env) (signed : SignedEnvelope P)
  {extra : BindingRecord → Except LicenceError Unit} {posture : AdmissionPosture}

theorem acceptBinding_error (failed : (s.acceptBinding o anchors env signed posture extra).1 = .error e) :
    (s.acceptBinding o anchors env signed posture extra).2 = s := by
  obtain ⟨result, s', call, step⟩ := acceptBinding_step o anchors env s signed posture extra
  simp only [call] at failed ⊢
  cases step with
  | idle | lost => rfl
  | unbound | bound => cases failed

theorem acceptGrant_error (write : WriteError e) (failed : (s.acceptGrant o env signed).1 = .error e) :
    (s.acceptGrant o env signed).2 = s ∨
      ∃ key, (s.acceptGrant o env signed).2 = s.observe env.now key := by
  obtain ⟨result, s', call, step⟩ := acceptGrant_step o env s signed
  simp only [call] at failed ⊢
  cases step with
  | unverified => exact .inl rfl
  | early | full | refused | unsaved => exact .inr ⟨_, rfl⟩
  | kept | withdrawn | granted => cases failed
  | conflict =>
    cases failed
    obtain impossible | ⟨_, impossible⟩ := write <;> cases impossible

theorem acceptGrant_applied (applied : (s.acceptGrant o env signed).1 = .ok .applied) :
    (s.acceptGrant o env signed).2.disk = .file (s.acceptGrant o env signed).2.inner.fileOf := by
  obtain ⟨result, s', call, step⟩ := acceptGrant_step o env s signed
  simp only [call] at applied ⊢
  cases step with
  | unverified | early | full | refused | conflict | unsaved => cases applied
  | kept _ ruling =>
    obtain ⟨rfl | rfl, -⟩ := Slot.accept_kept ruling <;> cases applied
  | withdrawn =>
    cases ended : env.write with
    | none => rfl
    | some e =>
      rw [ended] at applied
      cases applied
  | granted => rfl

theorem acceptBinding_applied (applied : (s.acceptBinding o anchors env signed posture extra).1 = .ok .applied) :
    (s.acceptBinding o anchors env signed posture extra).2.disk =
      .file (s.acceptBinding o anchors env signed posture extra).2.inner.fileOf := by
  obtain ⟨result, s', call, step⟩ := acceptBinding_step o anchors env s signed posture extra
  simp only [call] at applied ⊢
  cases step with
  | idle _ unplaced => exact absurd applied unplaced.1
  | lost => cases applied
  | unbound =>
    cases ended : env.write with
    | none => rfl
    | some e =>
      rw [ended] at applied
      cases applied
  | bound => rfl

theorem acceptBinding_unbinds (verified : admitBinding o anchors env s.inner signed posture extra = .ok record)
    (unbinds : record.state = .unbound) (newer : ∀ cur, s.inner.binding = some cur → cur.body.seq < record.seq) :
    Applied (s.acceptBinding o anchors env signed posture extra).1 ∧
      (s.acceptBinding o anchors env signed posture extra).2.inner.binding = some ⟨signed, record⟩ := by
  have placed : s.acceptBinding o anchors env signed posture extra = s.placeBinding env ⟨signed, record⟩ := by
    unfold CheckoutGrantStore.acceptBinding
    rw [verified]
    dsimp only
    split
    · rfl
    next cur held =>
      have older := newer cur held
      rw [if_neg (by omega), if_neg (by omega)]
  rw [placed, placeBinding_eq, if_pos unbinds]
  cases env.write with
  | none => exact ⟨.inl rfl, rfl⟩
  | some e => exact ⟨.inr rfl, rfl⟩

omit [DecidableEq P] in
theorem verifiedGrants_unbound {s : CheckoutGrantStore P} {held : Held P BindingRecord}
    (binding : s.inner.binding = some held) (unbinds : held.body.state = .unbound) (later : Env) :
    (s.verifiedGrants later).1 = [] := by
  unfold CheckoutGrantStore.verifiedGrants
  split
  · rfl
  next b inEffect =>
    obtain ⟨-, -, ⟨held', here, rfl⟩, bound⟩ := bindingInEffect_ok inEffect
    obtain rfl : held = held' := Option.some.inj (binding.symm.trans here)
    rw [unbinds] at bound
    cases bound

end

section
variable {env : Env} {signed : SignedEnvelope P}

theorem acceptGrant_withdraws (admitted : Admitted o env s signed b g) (restricts : g.isWithdrawal = true)
    (ruling : (s.inner.slotAt g.key).accept ⟨signed, g⟩ = .placed slot) :
    Applied (s.acceptGrant o env signed).1 ∧
      ((s.acceptGrant o env signed).2.inner.slotAt g.key).current = some ⟨signed, g⟩ := by
  have applied : Applied (s.acceptGrant o env signed).1 := by
    rw [admitted.acceptGrant_eq, ruling]
    dsimp only
    rw [if_pos restricts]
    cases env.write with
    | none => exact .inl rfl
    | some e => exact .inr rfl
  exact ⟨applied, Withdrawal.current_of_applied o admitted.verified applied⟩

theorem acceptGrant_conflicts
    (admitted : Admitted o env s signed b g) (ruling : (s.inner.slotAt g.key).accept ⟨signed, g⟩ = .conflict slot) :
    (s.acceptGrant o env signed).2.inner.slotAt g.key = slot ∧ g.seq ∈ slot.conflicted ∧
      ∀ cur, slot.current = some cur → cur.body.isWithdrawal = true ∨ (s.inner.slotAt g.key).previous = some cur := by
  refine ⟨?_, ?_⟩
  · rw [admitted.acceptGrant_eq, ruling]
    cases env.write <;> exact Inner.slotAt_put _ _ _
  · obtain ⟨cur, -, -, -, -, rfl⟩ := Slot.accept_conflict ruling
    unfold Slot.conflictAt
    split
    next withdrawal found =>
      refine ⟨mem_append_right _ mem_cons_self, ?_⟩
      intro kept here
      obtain rfl : withdrawal = kept := Option.some.inj here
      have restricts := find?_some found
      exact .inl restricts
    · exact ⟨mem_append_right _ mem_cons_self, fun kept here => .inr here⟩

end

theorem accept_error {s : ApprovalStore P} {env : Env} {signed : SignedEnvelope P}
    (writes : env.write = none) (failed : (s.accept o anchors env signed).1 = .error e) :
    (s.accept o anchors env signed).2 = s := by
  obtain ⟨result, s', call, step⟩ := accept_step o anchors env s signed
  simp only [call] at failed ⊢
  cases step with
  | idle => rfl
  | unsaved _ write => cases write.symm.trans writes
  | saved => cases failed

theorem accept_applied {s : ApprovalStore P} {env : Env} {signed : SignedEnvelope P}
    (applied : (s.accept o anchors env signed).1 = .ok .applied) :
    (s.accept o anchors env signed).2.disk = .file (s.accept o anchors env signed).2.fileOf := by
  obtain ⟨result, s', call, step⟩ := accept_step o anchors env s signed
  simp only [call] at applied ⊢
  cases step with
  | idle untaken => exact absurd applied untaken
  | unsaved => cases applied
  | saved => rfl

/-- For every run in which the approvals' own writes succeed, and whatever becomes of all other
writes: only saved permissions count. -/
theorem only_saved_counts (acts : List (Act P)) (writes : ∀ env signed, .approve env signed ∈ acts → env.write = none) :
    OnlySavedCounts o anchors acts (Run.run (step o anchors) {} acts) where
  saved := (run_saved acts writes).1
  savedApprovals := (run_saved acts writes).2
  bindingFailed env signed _ _ _ failed := acceptBinding_error _ env signed failed
  grantFailed env signed _ write failed := acceptGrant_error _ env signed write failed
  approvalFailed _ _ _ written failed := accept_error written failed
  unbinds env signed posture extra record verified unbinds newer := by
    obtain ⟨applied, binding⟩ := acceptBinding_unbinds _ env signed verified unbinds newer
    exact ⟨applied, binding, verifiedGrants_unbound binding unbinds⟩
  withdraws _ _ _ _ _ admitted restricts ruling := acceptGrant_withdraws admitted restricts ruling
  conflicts _ _ _ _ _ admitted ruling := acceptGrant_conflicts admitted ruling
  grantWritten env signed applied := acceptGrant_applied _ env signed applied
  bindingWritten env signed _ _ applied := acceptBinding_applied _ env signed applied
  approvalWritten _ _ applied := accept_applied applied
  retried env dirty clean written := by
    rw [CheckoutGrantStore.retrySave, if_pos ⟨dirty, clean⟩, written]
    exact ⟨rfl, rfl⟩
  marked undisturbed :=
    @Run.run_keeps_mem _ _ _ (fun n : Node P => Marked n.grants) Undisturbed step_marked _ _
      (.inr ⟨rfl, rfl⟩) undisturbed

end

section
open Sample

def fullDisk : Env := { env 100 with write := some (.persist "no space left on device") }

/-- A binding is saved, a grant is not, an unbinding is in force though unsaved. -/
theorem only_saved_counts_fullDisk :
    OnlySavedCounts outside anchors [bind, .grant fullDisk (signedGrant (grant 1 100 900)),
        .approve (env 100) (signedApproval approval),
        .bind fullDisk (signedBinding { binding with state := .unbound, seq := 2 }) posture fun _ => .ok ()]
      (Run.run (step outside anchors) {} [bind, .grant fullDisk (signedGrant (grant 1 100 900)),
        .approve (env 100) (signedApproval approval),
        .bind fullDisk (signedBinding { binding with state := .unbound, seq := 2 }) posture fun _ => .ok ()]) := by
  apply only_saved_counts
  intro e signed listed
  simp only [Sample.bind, mem_cons, not_mem_nil, or_false, reduceCtorEq, false_or, Act.approve.injEq] at listed
  rw [listed.1]
  rfl

/-- An approval whose write failed is refused and in force all the same, and is never written later. -/
theorem approval_counts_unsaved :
    let n := step outside anchors (Run.run (step outside anchors) {} [bind])
      (.approve fullDisk (signedApproval approval))
    ((Run.run (step outside anchors) {} [bind]).approvals.accept outside anchors fullDisk (signedApproval approval)).1 =
        .error (.persist "no space left on device") ∧
      n.approvals.covering (env 100) "cog" "1" zeros = some zeros ∧ n.approvals.disk = .missing ∧
      (n.approvals.accept outside anchors (env 100) (signedApproval approval)).1 = .ok .duplicate ∧
      (n.approvals.accept outside anchors (env 100) (signedApproval approval)).2.disk = .missing := by
  decide +kernel

end

end Weftos.Licence.Saved
