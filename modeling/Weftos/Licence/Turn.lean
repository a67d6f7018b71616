import Weftos.Lib.Durable
import Weftos.Licence.Proxy

/-! What one act of a Seed can do to its tables and to what it released. -/

namespace Weftos.Licence.Turn
open Lib Lib.Bytes Lib.Outcome Wire Proxy List Table

section
variable {P : Type}

def table (s : Seed P) : Slots P := (s.inner.map (·.slots)).getD s.disk

theorem table_running {inner} (running : s.inner = some inner) : table s = inner.slots := by
  rw [table, running]
  rfl

theorem releaseAll_keys (slots : Slots P) : slots.releaseAll.slots.map (·.1) = slots.slots.map (·.1) := by
  rw [Slots.releaseAll, map_map]
  rfl

def Carries (slots : Slots P) (signed : SignedEnvelope P) : Prop :=
  ∃ entry ∈ slots.slots, entry.2.grant = some signed

variable [DecidableEq P] (o : Outside P) (cfg : Config)

inductive Signed (s : Seed P) (act : Act) (slots : Slots P) : List (SignedEnvelope P) → Slots P → Prop
  | checkout {inner : Inner P} (running : s.inner = some old)
      (read : (refreshBinding s.files bindWrite old s.disk).1 = inner) (bound : meshOf inner = some f.mesh)
      (asked : act = .finish i download clock cache bindWrite write) (flight : s.flights[i]? = some f)
      (looked : f.found = some found) (downloaded : checkDownload o cfg found download = .ok bytes)
      (grants : grantCheckout o cfg slots f found bytes now cache = .ok (signed, work)) :
        Signed s act slots [signed] work
  | renewal {inner : Inner P} (running : s.inner = some old)
      (read : (refreshBinding s.files bindWrite old s.disk).1 = inner) (bound : meshOf inner = some mesh)
        (key : inner.key = some secret)
      (renews : renewSlots o cfg secret mesh now names ents (renewKeys cfg slots mesh names) slots = .ok (out, work)) :
      Signed s act slots out work

inductive Turns (s : Seed P) (act : Act) (s' : Seed P) : Prop
  /-- The binding may have been read, and grants of the table may have been released. -/
  | shown (out : List (SignedEnvelope P)) (reread : Reread (table s) s.disk (table s') s'.disk)
      (released : s'.released = s.released ++ out) (carried : ∀ signed ∈ out, Carries (table s') signed)
      (issues : s'.issues = s.issues)
  | stopped (memory : table s' = s.disk) (disk : s'.disk = s.disk) (released : s'.released = s.released)
      (issues : s'.issues = s.issues)
  | signed (slots disk work : Slots P) (out : List (SignedEnvelope P)) (reread : Reread (table s) s.disk slots disk)
      (made : Signed o cfg s act slots out work) (issues : s'.issues = s.issues + out.length)
      (ended : table s' = work ∧ s'.disk = work ∧ s'.released = s.released ++ out ∨
        table s' = slots ∧ (s'.disk = disk ∨ s'.disk = work) ∧ s'.released = s.released)

/-- What an act does to the state. -/
inductive Does (s : Seed P) : Act → Seed P → Prop
  | idle (transfers : Nat) : Does s act { s with transfers := transfers }
  | replaced (files : Files) : Does s (.replaceFiles files) { s with files := files }
  | begun {inner} {f : Flight} (running : s.inner = some inner)
      (begins : beginCheckout cfg inner (s.flights.length + s.transfers) req now = .ok f) :
    Does s (.begin req now) { s with flights := s.flights ++ [f] }
  | onward {inner} {f : Flight} (running : s.inner = some inner) (flight : s.flights[i]? = some f)
      (looked : lookCheckout o cfg inner f ent entry cached = .ok (.onward found)) :
    Does s (.look i ent entry cached) { s with flights := s.flights.set i { f with found := some found } }
  | ended (i : Nat) (shows : released = s.released ++ out) (carried : ∀ signed ∈ out, Carries (table s) signed) :
    Does s act { s with flights := s.flights.eraseIdx i, released := released }
  | finished {inner} (running : s.inner = some inner) (flight : s.flights[i]? = some f) (looked : f.found = some found)
      (downloaded : checkDownload o cfg found download = .ok bytes) :
    Does s (.finish i download clock cache bindWrite write) ((s.land i).answer write
      (finishCheckout o cfg s.files bindWrite inner s.disk f found bytes (max clock f.now) cache))
  | renewed {inner} (running : s.inner = some inner) : Does s (.renew now release ents bindWrite write)
      (s.answer write (Proxy.renew o cfg s.files bindWrite inner s.disk now release ents))
  | read {inner} (running : s.inner = some inner) (bindWrite : WriteOutcome) (transfers : Nat)
      (shows : released = s.released ++ out)
      (carried : ∀ signed ∈ out, Carries (refreshBinding s.files bindWrite inner s.disk).1.slots signed) :
    Does s act { s.withState (refreshBinding s.files bindWrite inner s.disk) with
      transfers := transfers, released := released }
  | crashed : Does s .crash { s with inner := none, flights := [], transfers := 0 }
  | started {next} (down : s.inner = none) (opens : openService s.files bindWrite s.disk = some next) :
    Does s act (s.withState next)

variable {o cfg} {s s' : Seed P} {act : Act} {out : List (SignedEnvelope P)} {inner : Inner P}
  {bindWrite : WriteOutcome} {disk : Slots P}

omit [DecidableEq P] in
theorem Reread.rfl (slots disk : Slots P) : Reread slots disk slots disk := .inl ⟨Eq.refl _, Eq.refl _⟩

theorem Turns.idle (memory : table s' = table s) (disk : s'.disk = s.disk)
    (released : s'.released = s.released) (issues : s'.issues = s.issues) : Turns o cfg s act s' := by
  refine .shown [] ?_ (by rw [released, append_nil]) (by simp) issues
  rw [memory, disk]
  exact Reread.rfl _ _

theorem answer_turns (base : Seed P) (write : WriteOutcome)
    (running : table s = slots) (released : base.released = s.released) (issues : base.issues = s.issues)
    (reread : Reread slots s.disk attempt.2.1.slots attempt.2.2)
    (made : ∀ out work, attempt.1 = .ok (out, work) → Signed o cfg s act attempt.2.1.slots out work) :
    Turns o cfg s act (base.answer write attempt) := by
  subst running
  obtain ⟨result, inner, disk⟩ := attempt
  cases result with
  | error e =>
    refine .shown [] reread ?_ (by simp) issues
    change base.released ++ [] = s.released ++ []
    rw [released]
  | ok signed =>
    obtain ⟨out, work⟩ := signed
    have issues : (base.answer write (.ok (out, work), inner, disk)).issues = s.issues + out.length :=
      congrArg (· + out.length) issues
    refine .signed inner.slots disk work out reread (made out work rfl) issues ?_
    cases write with
    | done => exact .inl ⟨rfl, rfl, congrArg (· ++ out) released⟩
    | failed why =>
      refine .inr ⟨rfl, .inl rfl, ?_⟩
      change base.released ++ [] = s.released
      rw [released, append_nil]
    | failedLate why =>
      refine .inr ⟨rfl, .inr rfl, ?_⟩
      change base.released ++ [] = s.released
      rw [released, append_nil]

theorem finishCheckout_state (files : Files) (bindWrite : WriteOutcome) (inner : Inner P) (disk : Slots P) (f : Flight)
    (found : Found) (bytes : Octets) (now : Nat) (cache : Option CacheError) :
    (finishCheckout o cfg files bindWrite inner disk f found bytes now cache).2 =
      refreshBinding files bindWrite inner disk := by
  unfold finishCheckout
  dsimp only
  split <;> rfl

theorem finishCheckout_ok
    (signed : (finishCheckout o cfg files bindWrite inner disk f found bytes now cache).1 = .ok (out, work)) :
    meshOf (refreshBinding files bindWrite inner disk).1 = some f.mesh ∧ ∃ e, out = [e] ∧
      grantCheckout o cfg (refreshBinding files bindWrite inner disk).1.slots f found bytes now cache =
        .ok (e, work) := by
  unfold finishCheckout at signed
  dsimp only at signed
  split at signed
  · cases signed
  next unchanged =>
    obtain ⟨⟨e, table⟩, grants, same⟩ := map_ok_iff.mp signed
    cases same
    exact ⟨not_not.mp fun differ => unchanged (.inl differ), e, rfl, grants⟩

theorem renew_state (files : Files) (bindWrite : WriteOutcome) (inner : Inner P) (disk : Slots P) (now : Nat)
    (release : List (String × String)) (ents : String → Except LicenceCheckError Entitlement) :
    (Proxy.renew o cfg files bindWrite inner disk now release ents).2 = refreshBinding files bindWrite inner disk := by
  unfold Proxy.renew
  dsimp only
  split <;> rfl

variable {ents : String → Except LicenceCheckError Entitlement} {signed : SignedEnvelope P} {slot : Slot P}
  {key : String} {secret : Octets} {mesh : String}

theorem renew_ok (signed : (Proxy.renew o cfg files bindWrite inner disk now release ents).1 = .ok (out, work)) :
    ∃ secret mesh, meshOf (refreshBinding files bindWrite inner disk).1 = some mesh ∧
      (refreshBinding files bindWrite inner disk).1.key = some secret ∧
      renewSlots o cfg secret mesh now (release.map fun r => slotKey r.1 r.2) ents
        (renewKeys cfg (refreshBinding files bindWrite inner disk).1.slots mesh (release.map fun r => slotKey r.1 r.2))
        (refreshBinding files bindWrite inner disk).1.slots = .ok (out, work) := by
  unfold Proxy.renew at signed
  dsimp only at signed
  split at signed
  · cases signed
  · cases signed
  next mesh secret bound key => exact ⟨secret, mesh, bound, key, signed⟩

theorem validGrant_some {key : Octets}
    (valid : validGrant o slot now key mesh = some signed) : slot.grant = some signed := by
  unfold validGrant at valid
  split at valid
  · cases valid
  split at valid
  · cases valid
  next carried =>
    split at valid
    · cases valid
    split at valid
    · cases valid
      exact carried
    · cases valid

omit [DecidableEq P] in
theorem heldArch_some : heldArch slots key mesh arch = some (slot, art) ↔
      slots.slots.lookup key = some slot ∧ slot.meshId = mesh ∧ slot.arches.lookup arch = some art := by
  simp only [heldArch, Option.bind_eq_some_iff, Option.filter_eq_some_iff, Option.map_eq_some_iff, Prod.mk.injEq,
    decide_eq_true_eq]
  constructor
  · rintro ⟨_, ⟨found, own⟩, _, held, rfl, rfl⟩
    exact ⟨found, own, held⟩
  · rintro ⟨found, own, held⟩
    exact ⟨slot, ⟨found, own⟩, art, held, rfl, rfl⟩

theorem lookCheckout_ok (looked : lookCheckout o cfg inner f ent entry cached = .ok result) :
    (∃ signed, result = .answered signed ∧ Carries inner.slots signed) ∨ ∃ found, result = .onward found ∧
      ∀ slot art, heldArch inner.slots (slotKey found.entry.cogId found.entry.version) f.mesh f.req.arch =
        some (slot, art) → art.sha256 = found.art.sha256 := by
  simp only [lookCheckout, bind_ok_iff] at looked
  obtain ⟨ent, -, entry, -, listed, -, rest⟩ := looked
  split at rest
  next absent =>
    split at rest
    · cases rest
    · cases rest
      refine .inr ⟨_, rfl, fun slot art held => ?_⟩
      cases absent.symm.trans held
  next slot art present =>
    split at rest
    · cases rest
    next unchanged =>
      split at rest
      next signed live =>
        cases rest
        have carried := validGrant_some (Option.filter_eq_some_iff.mp live).1
        exact .inl ⟨signed, rfl, _, mem_of_lookup (heldArch_some.mp present).1, carried⟩
      · split at rest
        · cases rest
        · cases rest
          refine .inr ⟨_, rfl, fun slot art held => ?_⟩
          cases present.symm.trans held
          simpa using unchanged

omit [DecidableEq P] in
theorem grantsPage_carries (inner : Inner P) (since : Nat) :
    ∀ signed ∈ (grantsPage cfg inner since).grants, Carries inner.slots signed := by
  intro signed listed
  obtain ⟨row, kept, rfl⟩ := mem_map.mp listed
  have sorted := (perm_insertionSort _ _).mem_iff.mp (mem_of_mem_take kept)
  obtain ⟨entry, filtered, made⟩ := mem_filterMap.mp sorted
  obtain ⟨envelope, carried, rfl⟩ := Option.map_eq_some_iff.mp made
  exact ⟨entry, (mem_filter.mp filtered).1, carried⟩

theorem serve_does (running : s.inner = some inner) (act : Act) : Does o cfg s act (s.serve o cfg inner act) := by
  have still {act : Act} : Does o cfg s act s := .idle s.transfers
  have lands {act : Act} (i : Nat) : Does o cfg s act (s.land i) := .ended i (append_nil _).symm (by simp)
  cases act with
  | begin req now =>
    simp only [Seed.serve, Seed.begin]
    split
    next begins => exact .begun running begins
    · exact still
  | look i ent entry cached =>
    simp only [Seed.serve, Seed.look]
    split
    · exact still
    next f flight =>
      split
      · exact still
      split
      next found looked => exact .onward running flight looked
      next signed looked =>
        refine .ended i rfl fun other listed => ?_
        obtain ⟨_, same, carries⟩ | ⟨_, same, -⟩ := lookCheckout_ok looked
        · cases same
          rw [mem_singleton.mp listed, table_running running]
          exact carries
        · cases same
      · exact lands i
  | finish i download clock cache bindWrite write =>
    simp only [Seed.serve, Seed.finish]
    split
    · exact still
    next f flight =>
      split
      · exact still
      next found looked =>
        split
        · exact lands i
        next bytes downloaded => exact .finished running flight looked downloaded
  | renew => exact .renewed running
  | grants since bindWrite => exact .read running bindWrite _ rfl (grantsPage_carries _ since)
  | artifact serves bindWrite =>
    simp only [Seed.serve, Seed.artifact]
    split
    · exact .read running bindWrite _ (append_nil _).symm (by simp)
    · exact still
  | sent => exact .idle _
  | refresh bindWrite => exact .read running bindWrite _ (append_nil _).symm (by simp)
  | replaceFiles files => exact .replaced files
  | crash => exact .crashed
  | start => exact still

theorem step_does (s : Seed P) (act : Act) : Does o cfg s act (s.step o cfg act) := by
  unfold Seed.step
  split
  next inner running => exact serve_does running act
  next down =>
    cases act with
    | start bindWrite =>
      rw [Seed.dormant_start]
      cases opens : openService s.files bindWrite s.disk with
      | some next => exact .started down opens
      | none => exact .idle s.transfers
    | replaceFiles files => exact .replaced files
    | begin | look | finish | renew | grants | artifact | sent | refresh | crash => exact .idle s.transfers

theorem Does.turns (does : Does o cfg s act s') : Turns o cfg s act s' := by
  cases does with
  | idle | replaced | begun | onward => exact .idle rfl rfl rfl rfl
  | ended i shows carried => exact .shown _ (Reread.rfl _ _) shows carried rfl
  | finished running flight looked downloaded =>
    apply answer_turns (s.land _) _ (table_running running) rfl rfl
    · rw [finishCheckout_state]
      exact refreshBinding_reread _ _ _ _
    · intro out work signed
      obtain ⟨bound, e, rfl, grants⟩ := finishCheckout_ok signed
      rw [finishCheckout_state]
      exact .checkout running rfl bound rfl flight looked downloaded grants
  | renewed running =>
    apply answer_turns s _ (table_running running) rfl rfl
    · rw [renew_state]
      exact refreshBinding_reread _ _ _ _
    · intro out work signed
      obtain ⟨secret, mesh, bound, key, renews⟩ := renew_ok signed
      rw [renew_state]
      exact .renewal running rfl bound key renews
  | read running bindWrite transfers shows carried =>
    refine .shown _ ?_ shows carried rfl
    rw [table_running running]
    exact refreshBinding_reread _ _ _ _
  | crashed => exact .stopped rfl rfl rfl rfl
  | started down opens =>
    refine .shown [] ?_ (append_nil _).symm (by simp) rfl
    rw [table, down]
    exact openService_reread opens

theorem step_turns (s : Seed P) (act : Act) : Turns o cfg s act (s.step o cfg act) := (step_does s act).turns

theorem Turns.issues_le (turns : Turns o cfg s act s') : s.issues ≤ s'.issues := by
  cases turns with
  | shown out reread released carried issues | stopped memory disk released issues
  | signed => omega

/-! ### What signing keeps -/

omit [DecidableEq P] in
def filed (slots : Slots P) (slot : Slot P) (signed : SignedEnvelope P) : Slot P :=
  { slot with issueCtr := saturatingAdd slots.ctr 1, grant := some signed }

theorem grantCheckout_ok (grants : grantCheckout o cfg slots f found bytes now cache = .ok (signed, work)) :
    ∃ expiresAt, signSlot o cfg f.secret slots found.key (f.draft o slots found bytes now) f.mesh now expiresAt =
      .ok (signed, work) := by
  simp only [grantCheckout, bind_ok_iff, ensure_ok_iff] at grants
  obtain ⟨_, -, rest⟩ := grants
  split at rest
  · cases rest
  · exact ⟨_, rest⟩

section
variable {slots work : Slots P} {now expiresAt : Nat}
  (issued : signSlot o cfg secret slots key slot mesh now expiresAt = .ok (signed, work))
include issued

theorem signSlot_slots : work.slots = insert slots.slots key (filed slots slot signed) := by
  obtain ⟨-, -, -, rfl⟩ := signSlot_ok o cfg issued
  rfl

theorem signSlot_carries : Carries work signed := by
  refine ⟨(key, filed slots slot signed), ?_, rfl⟩
  rw [signSlot_slots issued]
  exact mem_of_lookup (lookup_insert_self _ _ _)

end

theorem renewSlots_nil {now : Nat} {release : List String} {keys : List String}
    (issued : renewSlots o cfg secret mesh now release ents keys slots = .ok ([], work)) : work = slots := by
  induction keys with
  | nil =>
    cases issued
    rfl
  | cons key keys ih =>
    obtain ⟨-, issued⟩ | ⟨_, _, _, _, _, _, -, -, -, -, same⟩ := renewSlots_cons o cfg issued
    · exact ih issued
    · cases same

omit [DecidableEq P] in
theorem renewKeys_nodup {slots : Slots P} (distinct : (slots.slots.map (·.1)).Nodup) (mesh : String)
    (release : List String) : (renewKeys cfg slots mesh release).Nodup := by
  have rows : ((slots.slots.filter fun entry =>
      entry.2.meshId = mesh ∧ (entry.2.status = .active ∨ entry.1 ∈ release)).map (·.1)).Nodup :=
    nodup_filter distinct _
  have sorted := perm_insertionSort rowLe ((slots.slots.filter fun entry =>
    entry.2.meshId = mesh ∧ (entry.2.status = .active ∨ entry.1 ∈ release)).map fun entry =>
      (entry.2.issueCtr, entry.1))
  unfold renewKeys
  rw [map_take]
  apply List.Nodup.sublist (take_sublist _ _)
  rw [(sorted.map _).nodup_iff, map_map]
  exact rows

theorem renewSlots_untouched {keys : List String}
    (issued : renewSlots o cfg secret mesh now release ents keys slots = .ok (out, work))
    (absent : key ∉ keys) : work.slots.lookup key = slots.slots.lookup key := by
  induction keys generalizing slots out with
  | nil =>
    cases issued
    rfl
  | cons first keys ih =>
    obtain ⟨differ, absent⟩ := not_or.mp (mem_cons.not.mp absent)
    obtain ⟨-, issued⟩ | ⟨slot, slot', expiresAt, signed, next, tail, -, -, signs, later, -⟩ :=
      renewSlots_cons o cfg issued
    · exact ih issued absent
    · rw [ih later absent, signSlot_slots signs, lookup_insert_other slots.slots _ differ]

section
variable {R : Slot P → Slot P → Prop} {Before After : String → Slot P → Prop}

theorem renewSlots_keeps [Std.Refl R] [IsTrans (Slot P) R] {secret : Octets} {mesh : String}
    {ents : String → Except LicenceCheckError Entitlement} {keys : List String}
    {out : List (SignedEnvelope P)}
    (issued : renewSlots o cfg secret mesh now release ents keys slots = .ok (out, work)) (distinct : keys.Nodup)
    (renews : ∀ {table next key slot slot' released ent expiresAt signed}, Before key slot →
      slot.renewal cfg released ent now = some (slot', expiresAt) →
      signSlot o cfg secret table key slot' mesh now expiresAt = .ok (signed, next) →
      After key (filed table slot' signed) ∧ R slot (filed table slot' signed))
    (sound : Durable.Sound After slots.slots)
    (waiting : ∀ key ∈ keys, ∀ slot, slots.slots.lookup key = some slot → Before key slot) :
    Durable.Sound After work.slots ∧ Durable.Advances R slots.slots work.slots ∧
      ∀ signed ∈ out, Carries work signed := by
  induction keys generalizing slots out with
  | nil =>
    cases issued
    exact ⟨sound, .refl _, by simp⟩
  | cons key keys ih =>
    obtain ⟨fresh, others⟩ := nodup_cons.mp distinct
    have rest : ∀ other ∈ keys, other ∈ key :: keys := fun other listed => mem_cons_of_mem key listed
    obtain ⟨-, issued⟩ | ⟨slot, slot', expiresAt, signed, signedWork, tail, found, renewal, signs, later, rfl⟩ :=
      renewSlots_cons o cfg issued
    · exact ih issued others sound fun other listed => waiting other (rest other listed)
    · obtain ⟨good, forward⟩ := renews (waiting key mem_cons_self slot found) renewal signs
      have made := signSlot_slots signs
      have soundNext : Durable.Sound After signedWork.slots := by
        rw [made]
        exact sound.insert good
      have advancesNext : Durable.Advances R slots.slots signedWork.slots := by
        rw [made]
        apply Durable.Advances.insert
        intro old here
        obtain rfl : slot = old := Option.some.inj (found.symm.trans here)
        exact forward
      have waitingNext : ∀ other ∈ keys, ∀ old, signedWork.slots.lookup other = some old → Before other old := by
        intro other listed old here
        have differ : other ≠ key := fun same => fresh (same ▸ listed)
        rw [made, lookup_insert_other slots.slots _ differ] at here
        exact waiting other (rest other listed) old here
      obtain ⟨sound', advances, carried⟩ := ih later others soundNext waitingNext
      refine ⟨sound', advancesNext.trans advances, ?_⟩
      intro other listed
      obtain rfl | listed := mem_cons.mp listed
      · have here : work.slots.lookup key = some (filed slots slot' other) := by
          rw [renewSlots_untouched later fresh, made, lookup_insert_self]
        exact ⟨_, mem_of_lookup here, rfl⟩
      · exact carried other listed

end

/-- The rule for one slot renewed and one slot checked out gives that for a request with `n` signatures. -/
theorem Signed.keeps {R : Slot P → Slot P → Prop} [Std.Refl R] [IsTrans (Slot P) R] {G : Nat → String → Slot P → Prop}
    {n : Nat} {slots work : Slots P} (made : Signed o cfg s act slots out work)
    (mono : ∀ {n m key slot}, n ≤ m → G n key slot → G m key slot)
    (renews : ∀ {old inner bindWrite secret mesh now table next key slot slot' released ent expiresAt signed},
      s.inner = some old → (refreshBinding s.files bindWrite old s.disk).1 = inner → meshOf inner = some mesh →
      inner.key = some secret → n + 1 ≤ U64_MAX → G n key slot →
      slot.renewal cfg released ent now = some (slot', expiresAt) →
      signSlot o cfg secret table key slot' mesh now expiresAt = .ok (signed, next) →
      G (n + 1) key (filed table slot' signed) ∧ R slot (filed table slot' signed))
    (checksOut : ∀ {i clock download cache bindWrite write f found bytes now expiresAt signed next},
      act = .finish i download clock cache bindWrite write → s.flights[i]? = some f → f.found = some found →
      checkDownload o cfg found download = .ok bytes → n + 1 ≤ U64_MAX →
      signSlot o cfg f.secret slots found.key (f.draft o slots found bytes now) f.mesh now expiresAt =
        .ok (signed, next) →
      G (n + 1) found.key (filed slots (f.draft o slots found bytes now) signed) ∧
        ∀ old, slots.slots.lookup found.key = some old → R old (filed slots (f.draft o slots found bytes now) signed))
    (sound : Durable.Sound (G n) slots.slots) (few : n + out.length ≤ U64_MAX) :
    Durable.Sound (G (n + out.length)) work.slots ∧ Durable.Advances R slots.slots work.slots ∧
      ∀ signed ∈ out, Carries work signed := by
  cases made with
  | checkout _ _ _ asked flight looked downloaded grants =>
    obtain ⟨expiresAt, signs⟩ := grantCheckout_ok grants
    obtain ⟨good, forward⟩ := checksOut asked flight looked downloaded few signs
    rw [signSlot_slots signs]
    refine ⟨(sound.imp fun _ _ => mono (Nat.le_succ n)).insert good, Durable.Advances.insert forward, ?_⟩
    intro other listed
    rw [mem_singleton.mp listed]
    exact signSlot_carries signs
  | renewal running read bound key issued =>
    cases out with
    | nil =>
      obtain rfl := renewSlots_nil issued
      exact ⟨sound, .refl _, by simp⟩
    | cons signed out =>
      rw [length_cons] at few ⊢
      have fits : n + 1 ≤ U64_MAX := by omega
      obtain ⟨sound', advances, carried⟩ := @renewSlots_keeps _ _ o cfg R (G n) (G (n + 1)) _ _ _ _ _ _ _ _ _ _ _
        issued (renewKeys_nodup sound.distinct _ _) (fun before => renews running read bound key fits before)
        (sound.imp fun _ _ => mono (Nat.le_succ n)) fun key _ => sound.good key
      exact ⟨sound'.imp fun _ _ => mono (by omega), advances, carried⟩

/-! ### What every act keeps -/

omit [DecidableEq P] in
theorem lookup_releaseAll (slots : Slots P) (key : String) :
    slots.releaseAll.slots.lookup key = (slots.slots.lookup key).map Slot.release :=
  lookup_mapValues slots.slots Slot.release key

omit [DecidableEq P] in
theorem release_eq (slot : Slot P) : ∃ status, slot.release = { slot with status := status } := by
  unfold Slot.release
  split
  · exact ⟨.released, rfl⟩
  · exact ⟨slot.status, rfl⟩

/-- Slots that move forward along `R` and stay `Good`, and the ones whose grants were released. -/
def Kept (R : Slot P → Slot P → Prop) (Good : String → Slot P → Prop) (s : Seed P) : Prop :=
  ∃ shown, Durable.Kept R Good (table s).slots s.disk.slots shown ∧ shown.map (·.2.grant) = s.released.map some

section
variable {R : Slot P → Slot P → Prop} {Good : String → Slot P → Prop} {out : List (SignedEnvelope P)}

omit [DecidableEq P] in
theorem kept_empty (files : Files) : Kept R Good ({ files := files } : Seed P) := ⟨[], .empty, rfl⟩

omit [DecidableEq P] in
theorem entries_of_carries (distinct : (slots.slots.map (·.1)).Nodup)
    (carried : ∀ signed ∈ out, Carries slots signed) : ∃ entries : List (String × Slot P),
      (∀ entry ∈ entries, slots.slots.lookup entry.1 = some entry.2) ∧ entries.map (·.2.grant) = out.map some := by
  induction out with
  | nil => exact ⟨[], by simp, rfl⟩
  | cons signed out ih =>
    obtain ⟨entry, listed, carries⟩ := carried signed mem_cons_self
    obtain ⟨entries, found, grants⟩ := ih fun other listed => carried other (mem_cons_of_mem _ listed)
    refine ⟨entry :: entries, ?_, ?_⟩
    · intro other there
      obtain rfl | later := mem_cons.mp there
      · exact lookup_of_mem distinct listed
      · exact found other later
    · rw [map_cons, map_cons, carries, grants]

omit [DecidableEq P] in
theorem Kept.show (kept : ∃ shown,
      Durable.Kept R Good (table s').slots s'.disk.slots shown ∧ shown.map (·.2.grant) = s.released.map some)
    [Std.Refl R] (released : s'.released = s.released ++ out) (carried : ∀ signed ∈ out, Carries (table s') signed) :
    Kept R Good s' := by
  obtain ⟨shown, kept, grants⟩ := kept
  obtain ⟨entries, found, new⟩ := entries_of_carries kept.inMemory.distinct carried
  refine ⟨shown ++ entries, kept.present found, ?_⟩
  rw [released, map_append, map_append, grants, new]

variable [Std.Refl R] [IsTrans (Slot P) R]

omit [DecidableEq P] in
theorem kept_reread
    (kept : Durable.Kept R Good slots.slots disk.slots shown) (reread : Reread slots disk slots' disk')
    (status : ∀ slot status, R slot { slot with status := status } ∧ R { slot with status := status } slot)
    (good : ∀ key slot status, Good key slot → Good key { slot with status := status }) :
    Durable.Kept R Good slots'.slots disk'.slots shown := by
  have forward : Durable.Advances R slots.slots slots.releaseAll.slots := by
    intro key slot found
    obtain ⟨ended, same⟩ := release_eq slot
    refine ⟨slot.release, by rw [lookup_releaseAll, found]; rfl, ?_⟩
    rw [same]
    exact (status slot ended).1
  have back : Durable.Advances R slots.releaseAll.slots slots.slots := by
    intro key slot found
    rw [lookup_releaseAll] at found
    obtain ⟨before, here, rfl⟩ := Option.map_eq_some_iff.mp found
    obtain ⟨ended, same⟩ := release_eq before
    refine ⟨before, here, ?_⟩
    rw [same]
    exact (status before ended).2
  have sound : Durable.Sound Good slots.releaseAll.slots := by
    constructor
    · rw [releaseAll_keys]
      exact kept.inMemory.distinct
    · intro key slot found
      rw [lookup_releaseAll] at found
      obtain ⟨before, here, rfl⟩ := Option.map_eq_some_iff.mp found
      obtain ⟨ended, same⟩ := release_eq before
      rw [same]
      exact good key before ended (kept.inMemory.good key before here)
  obtain ⟨rfl, rfl⟩ | ⟨rfl, rfl | rfl⟩ := reread
  · exact kept
  · exact kept.move sound forward (back.trans kept.ahead)
  · exact kept.write sound forward

theorem Turns.kept {Good' : String → Slot P → Prop} (turns : Turns o cfg s act s') (kept : Kept R Good s)
    (status : ∀ slot status, R slot { slot with status := status } ∧ R { slot with status := status } slot)
    (good : ∀ key slot status, Good key slot → Good key { slot with status := status })
    (weaker : ∀ key slot, Good key slot → Good' key slot)
    (signs : ∀ slots disk work out, Reread (table s) s.disk slots disk → Durable.Sound Good slots.slots →
      Signed o cfg s act slots out work → s'.issues = s.issues + out.length →
      Durable.Sound Good' work.slots ∧ Durable.Advances R slots.slots work.slots ∧
        ∀ signed ∈ out, Carries work signed) :
    Kept R Good' s' := by
  obtain ⟨shown, kept, grants⟩ := kept
  cases turns with
  | shown out reread released carried =>
    exact Kept.show ⟨shown, (kept_reread kept reread status good).imp weaker, grants⟩ released carried
  | stopped memory disk released =>
    refine ⟨shown, ?_, released ▸ grants⟩
    rw [memory, disk]
    exact kept.restart.imp weaker
  | signed slots disk work out reread made issues ended =>
    have read := kept_reread kept reread status good
    obtain ⟨sound, advances, carried⟩ := signs slots disk work out reread read.inMemory made issues
    obtain ⟨memory, written, released⟩ | ⟨memory, written, released⟩ := ended
    · refine Kept.show ⟨shown, ?_, grants⟩ released (memory ▸ carried)
      rw [memory, written]
      exact (read.imp weaker).write sound advances
    · refine ⟨shown, ?_, released ▸ grants⟩
      rw [memory]
      obtain same | late := written
      · rw [same]
        exact read.imp weaker
      · rw [late]
        exact (read.imp weaker).writeOnly sound advances

end

end

end Weftos.Licence.Turn
