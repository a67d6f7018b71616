import Weftos.Chain.Invariant
import Weftos.Governance.Runtime

/-! Anti-rollback of a project's governance over whole runs, with every file open to replacement in between.
Only the chain is trusted to keep what was appended to it. -/

namespace Weftos.Governance.Rollback
open Lib.Bytes Lib.Outcome
open Chain.Event Chain.Local Chain.Invariant
open Rules Policy Merge Gate
open Trust Governance.Runtime

/-! ### What an append does to the history -/

theorem chainHistory_eq (chain : LocalChain) :
    chainHistory chain = (chain.events.filter isApplied).foldl History.note {} := by
  simp [chainHistory, LocalChain.tail]

variable {chain next : LocalChain} {event : ChainEvent}

theorem chainHistory_same (events : next.events = chain.events) : chainHistory next = chainHistory chain := by
  rw [chainHistory_eq, events, ← chainHistory_eq]

theorem chainHistory_unapplied (events : next.events = chain.events ++ [event])
    (unapplied : isApplied event = false) : chainHistory next = chainHistory chain := by
  rw [chainHistory_eq, chainHistory_eq, events, List.filter_append]
  simp [unapplied]

theorem chainHistory_applied (events : next.events = chain.events ++ [event])
    (applied : isApplied event = true) : chainHistory next = (chainHistory chain).note event := by
  rw [chainHistory_eq, chainHistory_eq, events, List.filter_append, List.foldl_append]
  simp [applied]

/-- A chain operation of any other part of the kernel or of a peer. -/
def writesApplied : Operation → Bool
  | .append source kind .. | .appendIdempotent source kind .. =>
    kind = OVERLAY_APPLIED_KIND && source = OVERLAY_APPLIED_SOURCE
  | .appendSigned .. | .checkpoint _ => false

theorem appendSigned_not_applied (ok : (chain.appendSigned h event now).2 = .ok accepted) :
    isApplied event = false := by
  by_contra applied
  rw [Bool.not_eq_false, isApplied, Bool.and_eq_true, decide_eq_true_eq] at applied
  have reserved : isReservedKind event.kind = true := by
    rw [applied.1]
    decide
  unfold LocalChain.appendSigned at ok
  rw [reserved, Bool.or_true, if_pos rfl] at ok
  cases ok

theorem chainHistory_other (h : Hashing) (chain : LocalChain)
    (other : writesApplied operation = false) : chainHistory (step h chain operation) = chainHistory chain := by
  cases operation with
  | append => exact chainHistory_unapplied (push_events ..) other
  | appendIdempotent source kind payload key now stamp =>
    rcases appendIdempotent_cases h chain source kind payload key now stamp with same | appended
    · exact chainHistory_same (congrArg LocalChain.events same)
    · rw [step, appended]
      exact chainHistory_unapplied (push_events ..) other
  | appendSigned event now =>
    rcases appendSigned_cases h chain event now with ⟨refusal, refused⟩ | ⟨_, accepted⟩
    · rw [step, refused]
    · have unapplied := appendSigned_not_applied (congrArg Prod.snd accepted)
      rw [step, accepted]
      exact chainHistory_unapplied (push_events ..) unapplied
  | checkpoint now => exact chainHistory_same rfl

section
variable {F : Type} (platform : Platform F) (chain : LocalChain) (rt : OverlayRuntime F)

theorem chainHistory_rejected (refusal : OverlayError) (source : String) (now : Timestamp) :
    chainHistory (record platform chain rt (.error refusal) source now) = chainHistory chain := by
  refine chainHistory_unapplied (push_events ..) ?_
  simp [isApplied, LocalChain.nextEvent, OVERLAY_APPLIED_KIND]

/-- An accepted change is what the chain remembers last, and raises its floor. -/
theorem chainHistory_recorded (a : Applied) (source : String) (now : Timestamp) :
    (chainHistory (record platform chain rt (.ok a) source now)).lastOverlayHash = some a.overlayHash ∧
      (chainHistory (record platform chain rt (.ok a) source now)).maxParentVersion =
        some ((chainHistory chain).maxParentVersion.elim a.parentVersion (max · a.parentVersion)) := by
  have noted : chainHistory (record platform chain rt (.ok a) source now) = (chainHistory chain).note _ :=
    chainHistory_applied (push_events ..) (by simp [isApplied, LocalChain.nextEvent])
  rw [noted]
  exact ⟨rfl, rfl⟩

end

/-! ### The system -/

inductive Stage (F : Type) where
  | down
  | prepared (p : Prepared F)
  | committed (p : Prepared F)
  | running (rt : OverlayRuntime F)

structure World (F : Type) where
  disk : Disk
  chain : LocalChain
  stage : Stage F

/-- One step of a run. `written` is how a write of the pin ends; `tamper` replaces any
files; a new boot ends whatever ran before it. -/
inductive Act (F : Type) where
  | prepare (paths : RuntimePaths)
  | prepareNested (contract : NestedPolicy F)
  | commit (written : Except String Unit)
  | intoRuntime (gate : GovernanceGate F) (now : Timestamp)
  | reload (written : Except String Unit) (now : Timestamp)
  | parentUpdate (policy : ParentPolicy F) (written : Except String Unit) (now : Timestamp)
  | stop
  | tamper (disk : Disk)
  | chain (operation : Operation) (other : writesApplied operation = false)

def Act.boots {F : Type} : Act F → Bool
  | .prepare _ | .prepareNested _ => true
  | _ => false

def bootStage {F : Type} : Except OverlayError (Option (Prepared F)) → Stage F
  | .ok (some p) => .prepared p
  | .ok none | .error _ => .down

theorem bootStage_cases {F : Type} (result : Except OverlayError (Option (Prepared F))) :
    bootStage result = .down ∨ ∃ p, result = .ok (some p) ∧ bootStage result = .prepared p := by
  rcases result with refusal | _ | p
  · exact .inl rfl
  · exact .inl rfl
  · exact .inr ⟨p, rfl, rfl⟩

section
variable {F : Type} [Scalar F] (platform : Platform F) {disk : Disk} {p : Prepared F} {rt : OverlayRuntime F}
  {w : World F}

def World.settle (outcome : OverlayRuntime F × Disk × LocalChain × Except OverlayError Applied) : World F :=
  ⟨outcome.2.1, outcome.2.2.1, .running outcome.1⟩

def World.step (w : World F) : Act F → World F
  | .prepare paths => { w with stage := bootStage (some <$> Runtime.prepare platform paths w.disk) }
  | .prepareNested contract =>
    { w with stage := bootStage (Runtime.prepareNested platform (some contract) w.disk) }
  | .commit written =>
    match w.stage with
    | .prepared p =>
      match p.commit platform w.chain w.disk written with
      | .ok disk => { w with disk := disk, stage := .committed p }
      | .error _ => { w with stage := .down }
    | _ => w
  | .intoRuntime gate now =>
    match w.stage with
    | .committed p =>
      { w with
        chain := (p.intoRuntime platform gate w.chain now).2
        stage := .running (p.intoRuntime platform gate w.chain now).1 }
    | _ => w
  | .reload written now =>
    match w.stage with
    | .running rt => World.settle (Runtime.reload platform rt w.disk w.chain written now)
    | _ => w
  | .parentUpdate policy written now =>
    match w.stage with
    | .running rt => World.settle (applyParentUpdate platform rt w.disk w.chain policy written now)
    | _ => w
  | .stop => { w with stage := .down }
  | .tamper disk => { w with disk := disk }
  | .chain operation _ => { w with chain := Weftos.Chain.Invariant.step platform.hashing w.chain operation }

def World.run (w : World F) (acts : List (Act F)) : World F := acts.foldl (World.step platform) w

def World.inForce (w : World F) : Option UInt64 :=
  match w.stage with
  | .running rt => some rt.state.parent.version
  | _ => none

def World.lastApplied (w : World F) : Option String := (chainHistory w.chain).lastOverlayHash

def emptyOverlayHash : String := (Overlay.empty (F := F) platform.canon).hash.hex

/-! ### What the stages guarantee -/

theorem merge_fields {e : Effective F} (accepted : merge host parent overlay = .ok e) :
    e.parentVersion = parent.version ∧ e.overlayHash = overlay.hash := by
  simp only [merge, bind_ok_iff, pure_ok_iff, mapError_ok_iff] at accepted
  obtain ⟨_, _, _, _, _, _, _, _, rfl⟩ := accepted
  exact ⟨rfl, rfl⟩

theorem prepare_merged (ok : Runtime.prepare platform paths disk = .ok p) :
    merge platform.canon p.parent p.overlay = .ok p.effective ∧
      p.overlayPresent = (paths.overlay.isSome && disk.overlay.exists) := by
  simp only [Runtime.prepare, bind_ok_iff] at ok
  obtain ⟨_, _, _, _, _, _, prepared⟩ := ok
  exact (prepareWith_carries platform prepared).imp_right And.right

theorem prepareNested_merged (ok : Runtime.prepareNested platform (some contract) disk = .ok (some p)) :
    merge platform.canon p.parent p.overlay = .ok p.effective ∧
      p.overlayPresent = (contract.paths.overlay.isSome && disk.overlay.exists) := by
  simp only [Runtime.prepareNested, bind_ok_iff] at ok
  obtain ⟨_, _, _, _, prepared⟩ := ok
  cases outcome : prepareWith platform disk true contract.paths contract.master true contract.policy with
  | error refusal =>
    rw [outcome] at prepared
    cases prepared
  | ok p' =>
    rw [outcome] at prepared
    cases prepared
    exact (prepareWith_carries platform outcome).imp_right And.right

theorem booted (w : World F) (boots : act.boots = true) :
    (w.step platform act).stage = .down ∨ ∃ p, (w.step platform act).stage = .prepared p ∧
      merge platform.canon p.parent p.overlay = .ok p.effective ∧
      (w.disk.overlay.exists = false → p.overlayPresent = false) := by
  have carried {p : Prepared F} {paths : RuntimePaths}
      (merged : merge platform.canon p.parent p.overlay = .ok p.effective ∧
        p.overlayPresent = (paths.overlay.isSome && w.disk.overlay.exists)) :
      merge platform.canon p.parent p.overlay = .ok p.effective ∧
        (w.disk.overlay.exists = false → p.overlayPresent = false) := by
    refine ⟨merged.1, fun absent => ?_⟩
    rw [merged.2, absent, Bool.and_false]
  cases act with
  | prepare paths =>
    rcases bootStage_cases (some <$> Runtime.prepare platform paths w.disk) with down | ⟨p, ok, stage⟩
    · exact .inl down
    · obtain ⟨p', prepared, same⟩ := map_ok_iff.mp ok
      cases same
      exact .inr ⟨p, stage, carried (prepare_merged platform prepared)⟩
  | prepareNested contract =>
    rcases bootStage_cases (Runtime.prepareNested platform (some contract) w.disk) with down | ⟨p, ok, stage⟩
    · exact .inl down
    · exact .inr ⟨p, stage, carried (prepareNested_merged platform ok)⟩
  | _ => cases boots

/-- A boot that passes its history checks is no older than any recorded version, and
found its overlay unless the last one applied was empty. -/
theorem commit_checked (ok : p.commit platform chain disk written = .ok after) :
    (∀ newest ∈ (chainHistory chain).maxParentVersion, newest ≤ p.parent.version) ∧
      ∀ last ∈ (chainHistory chain).lastOverlayHash, p.overlayPresent = true ∨
        last = emptyOverlayHash platform := by
  simp only [Prepared.commit, bind_ok_iff, ensure_ok_iff] at ok
  obtain ⟨_, _, _, floor, _, _, _, present, _⟩ := ok
  refine ⟨?_, present⟩
  intro newest recorded
  rw [Option.mem_def] at recorded
  rw [Prepared.checkFloor, recorded] at floor
  simp only [List.filterMap_cons, id_eq, List.forM_eq_forM, List.forM_cons, bind_ok_iff, ensure_ok_iff] at floor
  obtain ⟨_, fresh, _⟩ := floor
  exact fresh

/-- An attempt applies a plan no older than the running policy, or changes nothing but
the chain. -/
theorem attempt_cases (rt : OverlayRuntime F) (disk : Disk) (chain : LocalChain)
    (plan : Except OverlayError (ParentPolicy F × Overlay F)) (source : String) (written : Except String Unit)
    (now : Timestamp) :
    (∃ decided e after, plan = .ok decided ∧ rt.state.parent.version ≤ decided.1.version ∧
        merge platform.canon decided.1 decided.2 = .ok e ∧
        attempt platform rt disk chain plan source written now =
          ((rt.swap e).store decided e, after,
            record platform chain ((rt.swap e).store decided e) (.ok (Applied.of e rt.boot)) source now,
            .ok (Applied.of e rt.boot))) ∨
      ∃ refusal, attempt platform rt disk chain plan source written now =
        (rt, disk, record platform chain rt (.error refusal) source now, .error refusal) := by
  unfold attempt
  cases outcome : plan >>= fun decided => applyLocked platform rt disk decided written with
  | error refusal => exact .inr ⟨refusal, rfl⟩
  | ok applied =>
    left
    simp only [applyLocked, mergeLocked, checkVersion, bind_ok_iff, ensure_ok_iff, pure_ok_iff] at outcome
    obtain ⟨decided, planned, e, ⟨_, newer, merged⟩, after, _, rfl⟩ := outcome
    exact ⟨decided, e, after, planned, newer, merged, rfl⟩

/-! ### The invariant -/

/-- While a kernel runs, the newest recorded version is the one in force and the last recorded overlay is its own. -/
def Guarded (w : World F) : Prop :=
  match w.stage with
  | .down => True
  | .prepared p => merge platform.canon p.parent p.overlay = .ok p.effective
  | .committed p => merge platform.canon p.parent p.overlay = .ok p.effective ∧
      ∀ newest ∈ (chainHistory w.chain).maxParentVersion, newest ≤ p.parent.version
  | .running rt => (chainHistory w.chain).maxParentVersion = some rt.state.parent.version ∧
      (chainHistory w.chain).lastOverlayHash = some rt.state.overlay.hash.hex

def Raised (before after : Option UInt64) : Prop := ∀ version ∈ before, ∃ newer ∈ after, version ≤ newer

theorem Raised.refl (floor : Option UInt64) : Raised floor floor := fun version known =>
  ⟨version, known, UInt64.le_refl version⟩

theorem Raised.trans (one : Raised first second) (two : Raised second third) : Raised first third := by
  intro version known
  obtain ⟨newer, known', above⟩ := one version known
  obtain ⟨newest, known'', above'⟩ := two newer known'
  exact ⟨newest, known'', UInt64.le_trans above above'⟩

theorem elim_max_eq {floor : Option UInt64} (newer : ∀ newest ∈ floor, newest ≤ version) :
    floor.elim version (max · version) = version := by
  cases floor with
  | none => rfl
  | some newest => exact if_pos (newer newest rfl)

theorem recorded_guarded {e boot : Effective F}
    (merged : merge platform.canon rt.state.parent rt.state.overlay = .ok e)
    (newer : ∀ newest ∈ (chainHistory chain).maxParentVersion, newest ≤ rt.state.parent.version)
    (disk : Disk) :
    Guarded platform ⟨disk, record platform chain rt (.ok (Applied.of e boot)) source now, .running rt⟩ ∧
      Raised (chainHistory chain).maxParentVersion
        (chainHistory (record platform chain rt (.ok (Applied.of e boot)) source now)).maxParentVersion := by
  obtain ⟨version, overlay⟩ := merge_fields merged
  obtain ⟨last, floor⟩ := chainHistory_recorded platform chain rt (Applied.of e boot) source now
  have recorded : (Applied.of e boot).parentVersion = rt.state.parent.version := version
  rw [recorded, elim_max_eq newer] at floor
  refine ⟨⟨floor, ?_⟩, ?_⟩
  · rw [last, ← overlay]
    rfl
  · intro newest known
    exact ⟨_, floor, newer newest known⟩

theorem settle_guarded (running : w.stage = .running rt) (guarded : Guarded platform w)
    (plan : Except OverlayError (ParentPolicy F × Overlay F)) (source : String) (written : Except String Unit)
    (now : Timestamp) :
    let settled := World.settle (attempt platform rt w.disk w.chain plan source written now)
    Guarded platform settled ∧
      Raised (chainHistory w.chain).maxParentVersion (chainHistory settled.chain).maxParentVersion := by
  intro settled
  rw [Guarded, running] at guarded
  rcases attempt_cases platform rt w.disk w.chain plan source written now with
    ⟨decided, e, after, -, newer, merged, outcome⟩ | ⟨refusal, outcome⟩
  · simp only [settled, outcome, World.settle]
    apply recorded_guarded platform
    · exact merged
    · intro newest known
      rw [guarded.1] at known
      exact (Option.mem_some.mp known) ▸ newer
  · have left : settled = ⟨w.disk, record platform w.chain rt (.error refusal) source now, .running rt⟩ := by
      simp only [settled, outcome]
      rfl
    have same := chainHistory_rejected platform w.chain rt refusal source now
    rw [left]
    simp only [Guarded, same]
    exact ⟨guarded, Raised.refl _⟩

theorem booted_guarded (w : World F) (boots : act.boots = true) : Guarded platform (w.step platform act) := by
  rcases booted platform w boots with down | ⟨p, prepared, merged, _⟩
  · rw [Guarded, down]
    trivial
  · rw [Guarded, prepared]
    exact merged

section
variable (guarded : Guarded platform w)
include guarded

theorem step_guarded (act : Act F) :
    Guarded platform (w.step platform act) ∧
      Raised (chainHistory w.chain).maxParentVersion (chainHistory (w.step platform act).chain).maxParentVersion := by
  cases act with
  | prepare paths | prepareNested contract => exact ⟨booted_guarded platform w rfl, Raised.refl _⟩
  | commit written =>
    cases stage : w.stage with
    | prepared p =>
      rw [Guarded, stage] at guarded
      simp only [World.step, stage]
      cases outcome : p.commit platform w.chain w.disk written with
      | error refusal => exact ⟨trivial, Raised.refl _⟩
      | ok after => exact ⟨⟨guarded, (commit_checked platform outcome).1⟩, Raised.refl _⟩
    | _ =>
      simp only [World.step, stage]
      exact ⟨guarded, Raised.refl _⟩
  | intoRuntime gate now =>
    cases stage : w.stage with
    | committed p =>
      rw [Guarded, stage] at guarded
      simp only [World.step, stage, Prepared.intoRuntime]
      apply recorded_guarded platform
      · exact guarded.1
      · exact guarded.2
    | _ =>
      simp only [World.step, stage]
      exact ⟨guarded, Raised.refl _⟩
  | reload written now | parentUpdate =>
    cases stage : w.stage with
    | running rt =>
      simp only [World.step, stage]
      exact settle_guarded platform stage guarded _ _ _ _
    | _ =>
      simp only [World.step, stage]
      exact ⟨guarded, Raised.refl _⟩
  | stop => exact ⟨trivial, Raised.refl _⟩
  | tamper disk => exact ⟨guarded, Raised.refl _⟩
  | chain operation other =>
    have same := chainHistory_other platform.hashing w.chain other
    simp only [World.step, Guarded, same]
    exact ⟨guarded, Raised.refl _⟩

theorem run_guarded (acts : List (Act F)) :
    Guarded platform (w.run platform acts) ∧
      Raised (chainHistory w.chain).maxParentVersion (chainHistory (w.run platform acts).chain).maxParentVersion := by
  induction acts generalizing w with
  | nil => exact ⟨guarded, Raised.refl _⟩
  | cons act rest ih =>
    obtain ⟨next, raised⟩ := step_guarded platform guarded act
    obtain ⟨final, raised'⟩ := ih next
    exact ⟨final, raised.trans raised'⟩

theorem Guarded.inForce (running : w.inForce = some version) :
    (chainHistory w.chain).maxParentVersion = some version := by
  unfold World.inForce at running
  split at running
  · next rt stage =>
    cases running
    rw [Guarded, stage] at guarded
    exact guarded.1
  · cases running

end

/-! ### The overlay file -/

/-- What an adversary or another part of the system does between two calls. -/
def Act.interferes : Act F → Bool
  | .tamper _ | .chain .. => true
  | _ => false

theorem interference_keeps (w : World F) (all : ∀ act ∈ acts, act.interferes = true) :
    (w.run platform acts).stage = w.stage ∧ (w.run platform acts).lastApplied = w.lastApplied := by
  induction acts generalizing w with
  | nil => exact ⟨rfl, rfl⟩
  | cons act rest ih =>
    obtain ⟨stage, last⟩ := ih (w.step platform act) fun a listed => all a (List.mem_cons_of_mem act listed)
    have here := all act List.mem_cons_self
    cases act with
    | tamper disk => exact ⟨stage, last⟩
    | chain operation other =>
      refine ⟨stage, last.trans ?_⟩
      simp only [World.lastApplied, World.step, chainHistory_other platform.hashing w.chain other]
    | _ => cases here

theorem commit_absent_refused (w : World F) (written : Except String Unit)
    (stage : w.stage = .down ∨ ∃ p, w.stage = .prepared p ∧ p.overlayPresent = false)
    (recorded : w.lastApplied = some last) (applied : last ≠ emptyOverlayHash platform) :
    (w.step platform (.commit written)).stage = .down := by
  rcases stage with down | ⟨p, prepared, absent⟩
  · simp only [World.step, down]
  · simp only [World.step, prepared]
    cases outcome : p.commit platform w.chain w.disk written with
    | error refusal => rfl
    | ok after =>
      rcases (commit_checked platform outcome).2 last recorded with present | empty
      · rw [absent] at present
        cases present
      · exact absurd empty applied

theorem reload_absent_refused (guarded : Guarded platform w) (running : w.stage = .running rt)
    (absent : w.disk.overlay.exists = false) (recorded : w.lastApplied = some last)
    (applied : last ≠ emptyOverlayHash platform) (written : Except String Unit) (now : Timestamp) :
    ∃ refusal, (Runtime.reload platform rt w.disk w.chain written now).2.2.2 = .error refusal := by
  rw [Guarded, running] at guarded
  have inForce : last = rt.state.overlay.hash.hex := Option.some.inj (recorded.symm.trans guarded.2)
  have other : rt.state.overlay ≠ Overlay.empty platform.canon := by
    intro same
    rw [same] at inForce
    exact applied inForce
  have missing : reloadOverlay platform rt w.disk = .error .overlayMissing := by
    have noFile : (rt.paths.overlay.filter fun _ => w.disk.overlay.exists) = none := by
      rw [absent]
      cases rt.paths.overlay <;> rfl
    rw [reloadOverlay, noFile]
    exact if_pos other
  rcases attempt_cases platform rt w.disk w.chain (reloadPlan platform rt w.disk) "reload" written now with
    ⟨decided, _, _, planned, -⟩ | ⟨refusal, outcome⟩
  · simp only [reloadPlan, bind_ok_iff, missing] at planned
    obtain ⟨_, _, _, impossible, _⟩ := planned
    cases impossible
  · exact ⟨refusal, congrArg (fun result => result.2.2.2) outcome⟩

theorem run_append (w : World F) (first second : List (Act F)) :
    w.run platform (first ++ second) = (w.run platform first).run platform second :=
  List.foldl_append

/-- The version in force never decreases, restarts included; and once the last applied overlay is not empty,
neither a boot nor a reload goes through while the overlay file is absent. -/
theorem no_rollback (start : World F) (down : start.stage = .down) (before : List (Act F)) :
    (∀ after older newer, (start.run platform before).inForce = some older →
      (start.run platform (before ++ after)).inForce = some newer → older ≤ newer) ∧
    ∀ last, (start.run platform before).lastApplied = some last → last ≠ emptyOverlayHash platform →
      (start.run platform before).disk.overlay.exists = false →
      (∀ boot between written, boot.boots = true → (∀ act ∈ between, act.interferes = true) →
        (start.run platform (before ++ boot :: between ++ [.commit written])).stage = .down) ∧
      ∀ rt written now, (start.run platform before).stage = .running rt →
        ∃ refusal, (Runtime.reload platform rt (start.run platform before).disk (start.run platform before).chain
          written now).2.2.2 = .error refusal := by
  have fresh : Guarded platform start := by
    rw [Guarded, down]
    trivial
  obtain ⟨guarded, -⟩ := run_guarded platform fresh before
  refine ⟨?_, ?_⟩
  · intro after older newer first second
    rw [run_append] at second
    obtain ⟨guarded', raised⟩ := run_guarded platform guarded after
    obtain ⟨version, known, above⟩ := raised older (guarded.inForce platform first)
    rw [Option.mem_def, guarded'.inForce platform second] at known
    cases known
    exact above
  · intro last recorded applied absent
    refine ⟨?_, fun rt written now running =>
      reload_absent_refused platform guarded running absent recorded applied written now⟩
    intro boot between written boots interference
    have stage : ((start.run platform before).step platform boot).stage = .down ∨
        ∃ p, ((start.run platform before).step platform boot).stage = .prepared p ∧ p.overlayPresent = false :=
      (booted platform (start.run platform before) boots).imp_right
        fun ⟨p, prepared, _, found⟩ => ⟨p, prepared, found absent⟩
    have unread : ((start.run platform before).step platform boot).lastApplied = some last := by
      cases boot with
      | prepare paths | prepareNested contract => exact recorded
      | _ => cases boots
    obtain ⟨same, lastSame⟩ :=
      interference_keeps platform ((start.run platform before).step platform boot) interference
    rw [List.append_assoc, run_append]
    change (((start.run platform before).step platform boot).run platform (between ++ [.commit written])).stage = _
    rw [run_append]
    exact commit_absent_refused platform _ written (by rw [same]; exact stage) (lastSame.trans unread) applied

end

/-! ### A run with a rollback attempt -/

def sampleCanon : Weftos.Project.Canon.External :=
  { Weftos.Project.Canon.External.plain with
    sha256 := fun bytes =>
      ⟨leBytes 32 (bytes.foldl (fun total b => total * 257 + b.toNat) 1), leBytes_length 32 _⟩ }

def samplePolicy (version : UInt64) : ParentPolicy ℚ where
  schema := PARENT_SCHEMA
  userKeyId := hexEncode ((sampleCanon.sha256 Digest.zero.val).val.take 16)
  version := version
  issuedAt := "2026-01-01T00:00:00Z"
  rules := []
  limits := {}
  ruleHash := (parentRulesHash (F := ℚ) sampleCanon [] {}).hex
  sig := hexEncode (List.replicate 64 0)

/-- Policy files hold their version, the overlay file the action it denies. -/
def samplePlatform : Platform ℚ where
  canon := sampleCanon
  hashing := .sample
  parsePolicy text := (Weftos.Lib.Text.parseU64 text).elim (.error "not a version") fun v => .ok (samplePolicy v)
  parseOverlay text := .ok { deny := [⟨"no-" ++ text, [text], none⟩] }
  canonicalTime _ := true
  verifyStrict _ _ _ := some true

def samplePaths : RuntimePaths := ⟨some "P", "parent-policy.json", some "overlay.toml", some "parent-policy.version"⟩

def sampleFile (text : String) : FileEntry := .regular (utf8 text).length (.ok text)

def sampleDisk (policy overlay pin : FileEntry) : Disk :=
  ⟨.ok (Digest.zero, true), .error .notAChild, policy, overlay, pin⟩

def sampleStart : World ℚ :=
  ⟨sampleDisk (sampleFile "1") (sampleFile "ipc.send") .missing, ChainManager.new .sample 0 0 .epoch, .down⟩

def bootActs : List (Act ℚ) :=
  [.prepare samplePaths, .commit (.ok ()), .intoRuntime ⟨⟨[], 7 / 10, false, fun _ => true, none⟩, []⟩ .epoch]

def rolledBack : List (Act ℚ) :=
  [.tamper (sampleDisk (sampleFile "3") (sampleFile "ipc.send") (sampleFile "1")), .reload (.ok ()) .epoch,
    .tamper (sampleDisk (sampleFile "1") .missing (sampleFile "1"))]

theorem no_rollback_sample :
    (sampleStart.run samplePlatform bootActs).inForce = some 1 ∧
      (sampleStart.run samplePlatform (bootActs ++ rolledBack)).inForce = some 3 ∧ (1 : UInt64) ≤ 3 ∧
      (sampleStart.run samplePlatform (bootActs ++ rolledBack ++ .prepare samplePaths :: [] ++
        [.commit (.ok ())])).stage = .down := by
  have first : (sampleStart.run samplePlatform bootActs).inForce = some 1 := by decide +kernel
  have rolled : (sampleStart.run samplePlatform (bootActs ++ rolledBack)).inForce = some 3 ∧
      (∃ last ∈ (sampleStart.run samplePlatform (bootActs ++ rolledBack)).lastApplied, last ≠
        emptyOverlayHash samplePlatform) ∧
      (sampleStart.run samplePlatform (bootActs ++ rolledBack)).disk.overlay.exists = false := by
    decide +kernel
  obtain ⟨second, ⟨last, recorded, other⟩, absent⟩ := rolled
  refine ⟨first, second, (no_rollback samplePlatform sampleStart rfl bootActs).1 rolledBack 1 3 first second, ?_⟩
  exact ((no_rollback samplePlatform sampleStart rfl (bootActs ++ rolledBack)).2 last recorded
    other absent).1 (.prepare samplePaths) [] (.ok ()) rfl
    (fun act listed => absurd listed List.not_mem_nil)

end Weftos.Governance.Rollback
