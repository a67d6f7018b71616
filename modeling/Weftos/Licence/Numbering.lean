import Weftos.Licence.Member
import Weftos.Licence.Turn

/-! The numbers of a Seed's grants. No number is used for two texts, whatever write fails and wherever the
service stops. -/

namespace Weftos.Licence.Numbering
open Lib Lib.Bytes Wire Proxy Turn Member.Sample

variable {key : String}

section
variable {P : Type} {o : Outside P}

/-- A later state of a slot: a higher number, or the same one with the same grant. -/
def Follows (slot slot' : Slot P) : Prop := slot.seq < slot'.seq ∨ slot.seq = slot'.seq ∧ slot'.grant = slot.grant

instance : Std.Refl (Follows (P := P)) := ⟨fun _ => .inr ⟨rfl, rfl⟩⟩

instance : IsTrans (Slot P) Follows := by
  constructor
  intro a b c first second
  obtain higher | ⟨same, kept⟩ := first
  · left
    obtain higher' | ⟨same', -⟩ := second <;> omega
  · obtain higher' | ⟨same', kept'⟩ := second
    · left
      omega
    · exact .inr ⟨same.trans same', kept'.trans kept⟩

/-- A slot stands under its own name, its grant says its name and number, and the number is not
above the bound. -/
structure Numbered (o : Outside P) (bound : Nat) (key : String) (slot : Slot P) : Prop where
  named : key = slotKey slot.cogId slot.version
  grant : ∀ signed, slot.grant = some signed →
    ∃ g, signed.payload = o.grantText g ∧ (g.cogId = slot.cogId ∧ g.version = slot.version) ∧ g.seq = slot.seq
  bounded : slot.seq ≤ bound

theorem Numbered.mono (numbered : Numbered o n key slot) (le : n ≤ m) : Numbered o m key slot :=
  { numbered with bounded := numbered.bounded.trans le }

/-- Of two grants of one cog version the later one has the higher number, or is the same. -/
def Rises (o : Outside P) (signed signed' : SignedEnvelope P) : Prop :=
  ∀ g g', signed.payload = o.grantText g → signed'.payload = o.grantText g' → g.cogId = g'.cogId →
    g.version = g'.version → g.seq ≤ g'.seq ∧ (g.seq = g'.seq → signed.payload = signed'.payload)

theorem Rises.refl (signed : SignedEnvelope P) : Rises o signed signed := by
  intro g g' text text' _ _
  rw [Outside.grantText_inj (text.symm.trans text')]
  exact ⟨le_rfl, fun _ => rfl⟩

theorem rises_of_follows
    (numbered : Numbered o n key slot) (numbered' : Numbered o n key' slot') (carried : slot.grant = some signed)
    (carried' : slot'.grant = some signed') (follows : key = key' → Follows slot slot') : Rises o signed signed' := by
  obtain ⟨h, text, name, number⟩ := numbered.grant signed carried
  obtain ⟨h', text', name', number'⟩ := numbered'.grant signed' carried'
  intro g g' isFirst isSecond sameCog sameVersion
  obtain rfl : g = h := Outside.grantText_inj (isFirst.symm.trans text)
  obtain rfl : g' = h' := Outside.grantText_inj (isSecond.symm.trans text')
  have sameKey : key = key' := by
    rw [numbered.named, numbered'.named, ← name.1, ← name.2, ← name'.1, ← name'.2, sameCog, sameVersion]
  obtain higher | ⟨same, kept⟩ := follows sameKey
  · exact ⟨by omega, fun equal => by omega⟩
  · refine ⟨by omega, ?_⟩
    intro _
    rw [kept, carried] at carried'
    rw [Option.some.inj carried']

end

/-! ### Requests -/

section
variable {P : Type} [DecidableEq P] {o : Outside P} {cfg : Config}

variable {n expiresAt now : Nat} {secret : Octets} {mesh : String} {ent : Except LicenceCheckError Entitlement}

theorem numbered_filed (issued : signSlot o cfg secret slots key slot mesh now expiresAt = .ok (signed, work))
    (name : key = slotKey slot.cogId slot.version) (bounded : slot.seq ≤ n) :
    Numbered o n key (filed slots slot signed) := by
  obtain ⟨-, text, -, -⟩ := signSlot_ok o cfg issued
  refine ⟨name, ?_, bounded⟩
  intro other same
  obtain rfl : signed = other := Option.some.inj same
  exact ⟨_, text, ⟨rfl, rfl⟩, rfl⟩

omit [DecidableEq P] in
theorem slotFor_eq (slots : Slots P) (mesh : String) (found : Found) (now : Nat) :
    (∃ old, slots.slots.lookup found.key = some old ∧
      (slotFor slots mesh found now).cogId = old.cogId ∧ (slotFor slots mesh found now).version = old.version ∧
      (slotFor slots mesh found now).seq = old.seq) ∨
    slots.slots.lookup found.key = none ∧
      (slotFor slots mesh found now).cogId = found.entry.cogId ∧
      (slotFor slots mesh found now).version = found.entry.version ∧ (slotFor slots mesh found now).seq = 0 := by
  unfold slotFor
  split
  next old here =>
    left
    refine ⟨old, here, ?_⟩
    split <;> exact ⟨rfl, rfl, rfl⟩
  next absent => exact .inr ⟨absent, rfl, rfl, rfl⟩

theorem numbered_draft {f : Flight}
    (issued : signSlot o cfg secret slots found.key (f.draft o slots found bytes now) mesh now expiresAt =
      .ok (signed, work)) (sound : Durable.Sound (Numbered o n) slots.slots) (few : n + 1 ≤ U64_MAX) :
    Numbered o (n + 1) found.key (filed slots (f.draft o slots found bytes now) signed) ∧
      ∀ old, slots.slots.lookup found.key = some old →
        old.seq < (filed slots (f.draft o slots found bytes now) signed).seq := by
  unfold Flight.draft at issued ⊢
  have same := slotFor_eq slots f.mesh found now
  generalize slotFor slots f.mesh found now = slot at issued same ⊢
  have low : slot.seq ≤ n := by
    obtain ⟨old, here, -, -, number⟩ | ⟨-, -, -, number⟩ := same
    · rw [number]
      exact (sound.good _ old here).bounded
    · omega
  have next : (slot.checkedOut f.req.arch (artifactOf o f.req.arch bytes) found now).seq = slot.seq + 1 :=
    saturatingAdd_eq (by omega)
  constructor
  · apply numbered_filed issued
    · obtain ⟨old, here, cog, version, -⟩ | ⟨-, cog, version, -⟩ := same
      · change _ = slotKey slot.cogId slot.version
        rw [cog, version]
        exact (sound.good _ old here).named
      · change _ = slotKey slot.cogId slot.version
        rw [cog, version]
        rfl
    · omega
  · intro old here
    change old.seq < (slot.checkedOut f.req.arch (artifactOf o f.req.arch bytes) found now).seq
    obtain ⟨other, there, -, -, number⟩ | ⟨absent, -⟩ := same
    · obtain rfl : other = old := Option.some.inj (there.symm.trans here)
      omega
    · rw [absent] at here
      cases here

omit [DecidableEq P] in
theorem renewal_eq {slot slot' : Slot P} (renewed : slot.renewal cfg released ent now = some (slot', expiresAt)) :
    slot'.cogId = slot.cogId ∧ slot'.version = slot.version ∧ slot'.seq = saturatingAdd slot.seq 1 ∧
      slot'.meshId = slot.meshId ∧ slot'.arches = slot.arches := by
  have withdrawn : ∀ before : Slot P, ∃ status, { before.release with seq := saturatingAdd before.seq 1 } =
      { before with status := status, seq := saturatingAdd before.seq 1 } := by
    intro before
    obtain ⟨status, same⟩ := release_eq before
    rw [same]
    exact ⟨status, rfl⟩
  unfold Slot.renewal at renewed
  dsimp only at renewed
  split at renewed
  · obtain ⟨status, same⟩ := withdrawn slot
    rw [same] at renewed
    cases renewed
    exact ⟨rfl, rfl, rfl, rfl, rfl⟩
  · split at renewed
    · cases renewed
      exact ⟨rfl, rfl, rfl, rfl, rfl⟩
    · cases renewed
    · obtain ⟨status, same⟩ := withdrawn { slot with status := .lapsed }
      rw [same] at renewed
      cases renewed
      exact ⟨rfl, rfl, rfl, rfl, rfl⟩

theorem numbered_renewed {slots work : Slots P}
    (numbered : Numbered o n key slot) (renewed : slot.renewal cfg released ent now = some (slot', expiresAt))
    (issued : signSlot o cfg secret slots key slot' mesh now expiresAt = .ok (signed, work)) (few : n + 1 ≤ U64_MAX) :
    Numbered o (n + 1) key (filed slots slot' signed) ∧ slot.seq < (filed slots slot' signed).seq := by
  obtain ⟨cog, version, number, -, -⟩ := renewal_eq renewed
  have low := numbered.bounded
  have next : slot'.seq = slot.seq + 1 := number.trans (saturatingAdd_eq (by omega))
  constructor
  · apply numbered_filed issued
    · rw [cog, version]
      exact numbered.named
    · omega
  · change slot.seq < slot'.seq
    omega

theorem signed_numbers (made : Signed o cfg s act slots out work) (sound : Durable.Sound (Numbered o n) slots.slots)
    (few : n + out.length ≤ U64_MAX) : Durable.Sound (Numbered o (n + out.length)) work.slots ∧
      Durable.Advances Follows slots.slots work.slots ∧ ∀ signed ∈ out, Carries work signed := by
  apply Signed.keeps (R := Follows) (G := Numbered o) made
  · intro n m key slot le numbered
    exact numbered.mono le
  · intro _ _ _ _ _ _ _ _ _ _ _ _ _ _ _ _ _ _ _ fits numbered renewed issued
    obtain ⟨numbered', higher⟩ := numbered_renewed numbered renewed issued fits
    exact ⟨numbered', .inl higher⟩
  · intro _ _ _ _ _ _ _ _ _ _ _ _ _ _ _ _ _ fits issued
    obtain ⟨numbered', higher⟩ := numbered_draft issued sound fits
    exact ⟨numbered', fun old here => .inl (higher old here)⟩
  · exact sound
  · exact few

theorem step_kept (s : Seed P) (act : Act) (kept : Kept Follows (Numbered o s.issues) s)
    (few : (s.step o cfg act).issues < 2 ^ 64) :
    Kept Follows (Numbered o (s.step o cfg act).issues) (s.step o cfg act) := by
  have turns : Turns o cfg s act (s.step o cfg act) := step_turns s act
  have later : s.issues ≤ (s.step o cfg act).issues := turns.issues_le
  refine turns.kept kept (fun slot status => ⟨.inr ⟨rfl, rfl⟩, .inr ⟨rfl, rfl⟩⟩) ?_ ?_ ?_
  · intro key slot status numbered
    exact ⟨numbered.named, numbered.grant, numbered.bounded⟩
  · intro key slot numbered
    exact numbered.mono later
  · intro slots disk work out _ sound made issues
    rw [issues]
    exact signed_numbers made sound (Nat.le_sub_one_of_lt (issues ▸ few))

/-- Whatever happened to a Seed, its tables and the grants it released are in order. -/
theorem run_kept (acts : List Act) (files : Files)
    (few : (Run.run (Seed.step o cfg) { files := files } acts).issues < 2 ^ 64) :
    Kept Follows (Numbered o (Run.run (Seed.step o cfg) { files := files } acts).issues)
      (Run.run (Seed.step o cfg) { files := files } acts) := by
  refine @Run.run_always _ _ _ (fun s : Seed P => s.issues < 2 ^ 64 → Kept Follows (Numbered o s.issues) s) ?_ _ acts
    ?_ few
  · intro s act before few
    exact step_kept s act (before ((step_turns s act).issues_le.trans_lt few)) few
  · intro _
    exact kept_empty files

omit [DecidableEq P] in
theorem kept_rises (kept : Kept Follows (Numbered o n) s) :
    s.released.Pairwise (Rises o) ∧ ∀ signed ∈ s.released, ∃ g, signed.payload = o.grantText g := by
  obtain ⟨shown, kept, grants⟩ := kept
  have pairs : (shown.map (·.2.grant)).Pairwise fun first second =>
      ∀ signed signed', first = some signed → second = some signed' → Rises o signed signed' := by
    rw [List.pairwise_map]
    apply kept.rising.imp_of_mem
    intro item later listed listed' follows signed signed' carried carried'
    exact rises_of_follows (kept.shownGood item listed) (kept.shownGood later listed') carried carried' follows
  constructor
  · rw [grants, List.pairwise_map] at pairs
    exact pairs.imp fun rises => rises _ _ rfl rfl
  · intro signed listed
    have there : some signed ∈ shown.map (·.2.grant) := grants ▸ List.mem_map_of_mem listed
    obtain ⟨item, shownItem, carried⟩ := List.mem_map.mp there
    obtain ⟨g, text, -⟩ := (kept.shownGood item shownItem).grant signed carried
    exact ⟨g, text⟩

omit [DecidableEq P] in
theorem Rises.of_parsed (rises : Rises o signed signed')
    (text : ∃ h, signed.payload = o.grantText h) (text' : ∃ h, signed'.payload = o.grantText h)
    (parsed : o.parseGrant signed.payload = .ok g) (parsed' : o.parseGrant signed'.payload = .ok g')
    (sameCog : g.cogId = g'.cogId) (sameVersion : g.version = g'.version) :
    g.seq ≤ g'.seq ∧ (g.seq = g'.seq → signed.payload = signed'.payload) := by
  obtain ⟨h, text⟩ := text
  obtain ⟨h', text'⟩ := text'
  rw [text, o.parseGrant_grantText] at parsed
  rw [text', o.parseGrant_grantText] at parsed'
  cases parsed
  cases parsed'
  exact rises g g' text text' sameCog sameVersion

variable (o cfg) in
/-- Each released text is that of a grant, no two texts have the same mesh, cog version and number, and the
numbers of a cog version only rise in the order of the answers. -/
theorem seed_numbers_once (files : Files) (acts : List Act)
    (few : (Run.run (Seed.step o cfg) { files := files } acts).issues < 2 ^ 64) :
    let released := (Run.run (Seed.step o cfg) { files := files } acts).released
    (∀ signed ∈ released, ∃ g, o.parseGrant signed.payload = .ok g) ∧
      (∀ signed ∈ released, ∀ signed' ∈ released, ∀ g g', o.parseGrant signed.payload = .ok g →
        o.parseGrant signed'.payload = .ok g' → g.meshId = g'.meshId → g.cogId = g'.cogId → g.version = g'.version →
        g.seq = g'.seq → signed.payload = signed'.payload) ∧
      released.Pairwise fun signed signed' => ∀ g g', o.parseGrant signed.payload = .ok g →
        o.parseGrant signed'.payload = .ok g' → g.cogId = g'.cogId → g.version = g'.version → g.seq ≤ g'.seq := by
  obtain ⟨rising, text⟩ := kept_rises (run_kept acts files few)
  refine ⟨?_, ?_, ?_⟩
  · intro signed listed
    obtain ⟨g, text⟩ := text signed listed
    exact ⟨g, text ▸ o.parseGrant_grantText g⟩
  · intro signed listed signed' listed' g g' parsed parsed' _ sameCog sameVersion sameSeq
    obtain rises | rises := Durable.either_order Rises.refl rising listed listed'
    · exact (rises.of_parsed (text signed listed) (text signed' listed') parsed parsed' sameCog sameVersion).2 sameSeq
    · exact ((rises.of_parsed (text signed' listed') (text signed listed) parsed' parsed sameCog.symm
        sameVersion.symm).2 sameSeq.symm).symm
  · apply rising.imp_of_mem
    intro signed signed' listed listed' rises g g' parsed parsed' sameCog sameVersion
    exact (rises.of_parsed (text signed listed) (text signed' listed') parsed parsed' sameCog sameVersion).1

end

/-! ### A sample Seed -/

namespace Sample

def clock : Nat := 1800000000

def config (inFlight : Nat) : Config := { deviceId := "seed", limits := { inFlight := inFlight } }

def files : Files := { stamp := some 1, binding := .ok (some binding), key := .ok grantKey }

def request : CheckoutReq := ⟨"cog", "1", "aarch64"⟩

def entitlement : Entitlement := ⟨zeros, none⟩

def entry (sha256 : String) : CogEntry := ⟨"cog", "1", "registry", zeros, [⟨"aarch64", 1, sha256⟩]⟩

def checkout (now : Nat) (bytes : Octets) : List Act := [.begin request now,
  .look 0 (.ok entitlement) (.ok (entry (outside.sha256Hex bytes))) fun _ => true,
  .finish 0 (.ok bytes) now none .done .done]

def renewal (now : Nat) (release : List (String × String)) (write : WriteOutcome) : Act :=
  .renew now release (fun _ => .ok entitlement) .done write

end Sample
open Sample

/-- A renewal reaches the disk though its write fails, the service restarts, and the number is not
used for anything else. -/
theorem seed_numbers_once_afterCrash :
    let acts := .start .done :: checkout clock [1] ++
      [renewal (clock + 10) [] (.failedLate "sync"), .grants 0 .done, .crash, .start .done,
        .grants 0 .done, renewal (clock + 20) [("cog", "1")] .done]
    let released := (Run.run (Seed.step outside (config 1)) { files := files } acts).released
    released.map (fun signed => ((outside.parseGrant signed.payload).toOption.map (·.seq))) =
        [some 1, some 1, some 2, some 3] ∧
      ∀ signed ∈ released, ∀ signed' ∈ released, ∀ g g', outside.parseGrant signed.payload = .ok g →
        outside.parseGrant signed'.payload = .ok g' → g.meshId = g'.meshId → g.cogId = g'.cogId →
        g.version = g'.version → g.seq = g'.seq → signed.payload = signed'.payload := by
  refine ⟨by decide +kernel, ?_⟩
  exact (seed_numbers_once outside (config 1) files _ (by decide +kernel)).2.1

end Weftos.Licence.Numbering
