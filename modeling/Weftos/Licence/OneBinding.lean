import Weftos.Licence.Numbering

/-! A Seed with one binding and one key throughout, and at most one checkout in flight. -/

namespace Weftos.Licence.OneBinding
open Lib Lib.Bytes Lib.Outcome Wire Proxy Turn Licence.Numbering List Option Table

structure Bound (files : Files) (b : BindingRecord) (secret : Octets) : Prop where
  record : files.binding = .ok (some b)
  inForce : b.state = .bound
  key : files.key = .ok secret

section
variable {P : Type}

structure Steady (files : Files) (b : BindingRecord) (secret : Octets) (s : Seed P) : Prop where
  files_eq : s.files = files
  running : ∀ inner, s.inner = some inner → inner.binding = some b ∧ inner.key = some secret ∧ inner.stamp = files.stamp

variable {files : Files} {b : BindingRecord} {secret : Octets} {inner : Inner P} {mesh : String}

theorem Steady.refresh (steady : Steady files b secret s) (running : s.inner = some inner)
    (write : WriteOutcome) (disk : Slots P) : refreshBinding s.files write inner disk = (inner, disk) := by
  have same : s.files.stamp = inner.stamp := by
    rw [steady.files_eq]
    exact (steady.running inner running).2.2.symm
  unfold refreshBinding
  rw [if_pos same]

theorem openService_bound (bound : Bound files b secret) (write : WriteOutcome) (disk : Slots P) :
    openService files write disk = some (⟨disk, some b, some secret, files.stamp⟩, disk) := by
  have inForce : (some b).filter (fun b => b.state = .bound) = some b := by simp [bound.inForce]
  unfold openService
  rw [bound.record, bound.key]
  dsimp only
  rw [inForce]

theorem meshOf_eq (binding : inner.binding = some b) (found : meshOf inner = some mesh) :
    mesh = b.meshId := by
  unfold meshOf Inner.bound at found
  rw [binding] at found
  obtain ⟨record, kept, decoded⟩ := bind_eq_some_iff.mp found
  obtain rfl : b = record := some.inj (filter_eq_some_iff.mp kept).1
  obtain ⟨bytes, read, rfl⟩ := map_eq_some_iff.mp decoded
  exact hexEncode_of_hexDecodeExact read

theorem settle_inner (write : WriteOutcome) (attempt : Attempt P) :
    ∃ slots, (settle write attempt).2.1 = { attempt.2.1 with slots := slots } := by
  obtain ⟨result, inner, disk⟩ := attempt
  cases result with
  | error e => exact ⟨inner.slots, rfl⟩
  | ok signed =>
    cases write with
    | done => exact ⟨signed.2, rfl⟩
    | failed | failedLate => exact ⟨inner.slots, rfl⟩

variable [DecidableEq P] {o : Outside P} {cfg : Config} {act : Act}

omit [DecidableEq P] in
theorem Steady.answer (steady : Steady files b secret s) (base : Seed P) (same : base.files = s.files)
    (write : WriteOutcome) (running : s.inner = some inner) (state : attempt.2 = (inner, s.disk)) :
    Steady files b secret (base.answer write attempt) := by
  refine ⟨same.trans steady.files_eq, ?_⟩
  intro inner' here
  obtain ⟨slots, settled⟩ := settle_inner write attempt
  obtain rfl : (settle write attempt).2.1 = inner' := some.inj here
  rw [settled, state]
  exact steady.running inner running

theorem step_steady (bound : Bound files b secret) (steady : Steady files b secret s)
    (fixed : ∀ files, act ≠ .replaceFiles files) (does : Does o cfg s act s') : Steady files b secret s' := by
  cases does with
  | idle | begun | onward | ended => exact ⟨steady.files_eq, steady.running⟩
  | replaced files' => exact absurd rfl (fixed files')
  | finished running =>
    apply steady.answer (s.land _) rfl _ running
    rw [finishCheckout_state, steady.refresh running]
  | renewed running =>
    apply steady.answer s rfl _ running
    rw [renew_state, steady.refresh running]
  | read running =>
    rw [steady.refresh running]
    refine ⟨steady.files_eq, ?_⟩
    rintro _ ⟨⟩
    exact steady.running _ running
  | crashed => exact ⟨steady.files_eq, fun inner here => by cases here⟩
  | started down opens =>
    rw [steady.files_eq, openService_bound bound] at opens
    cases opens
    refine ⟨steady.files_eq, ?_⟩
    rintro _ ⟨⟩
    exact ⟨rfl, rfl, rfl⟩

/-! ### Slots keep their binaries -/

def Grows (slot slot' : Slot P) : Prop :=
  Follows slot slot' ∧ ∀ arch art, slot.arches.lookup arch = some art → slot'.arches.lookup arch = some art

omit [DecidableEq P] in
instance : Std.Refl (Grows (P := P)) := ⟨fun slot => ⟨Std.Refl.refl slot, fun _ _ here => here⟩⟩

omit [DecidableEq P] in
instance : IsTrans (Slot P) Grows := by
  constructor
  intro a b c first second
  refine ⟨IsTrans.trans _ _ _ first.1 second.1, ?_⟩
  intro arch art here
  exact second.2 arch art (first.2 arch art here)

/-- A slot of the bound mesh: its binaries are downloads, and its grant, signed with the key, lists
them. -/
structure Issued (o : Outside P) (b : BindingRecord) (secret : Octets) (Downloaded : Octets → Prop) (n : Nat)
    (key : String) (slot : Slot P) : Prop where
  numbered : Numbered o n key slot
  mesh : slot.meshId = b.meshId
  distinct : (slot.arches.map (·.1)).Nodup
  arches : ∀ arch art, slot.arches.lookup arch = some art → ∃ bytes, Downloaded bytes ∧ art = artifactOf o arch bytes
  grant : ∀ signed, slot.grant = some signed → ∃ g, verifyGrantSignature o signed (o.publicKey secret) = .ok g ∧
    g.meshId = b.meshId ∧ ∀ art, art ∈ g.artifacts ↔ slot.arches.lookup art.arch = some art

variable {Downloaded : Octets → Prop} {n : Nat} {signed : SignedEnvelope P} {key : String} {slot : Slot P}

theorem Issued.mono (issued : Issued o b secret Downloaded n key slot)
    (le : n ≤ m) : Issued o b secret Downloaded m key slot := { issued with numbered := issued.numbered.mono le }

theorem issued_filed (signs : signSlot o cfg secret slots key slot mesh now expiresAt = .ok (signed, work))
    (numbered : Numbered o n key (filed slots slot signed)) (here : mesh = b.meshId) (own : slot.meshId = b.meshId)
    (distinct : (slot.arches.map (·.1)).Nodup)
    (arches : ∀ arch art, slot.arches.lookup arch = some art → ∃ bytes, Downloaded bytes ∧
      art = artifactOf o arch bytes) :
    Issued o b secret Downloaded n key (filed slots slot signed) := by
  obtain ⟨-, -, verified, -⟩ := signSlot_ok o cfg signs
  refine ⟨numbered, own, distinct, arches, ?_⟩
  intro other same
  obtain rfl : signed = other := some.inj same
  refine ⟨_, verified, here, ?_⟩
  intro art
  -- the grant lists the binaries of the slot, sorted
  have listed : art ∈ (signedGrant o cfg secret slot mesh now expiresAt).artifacts ↔
    ∃ entry ∈ slot.arches, entry.2 = art :=
    (perm_insertionSort _ _).mem_iff.trans mem_map
  rw [listed]
  constructor
  · rintro ⟨entry, there, rfl⟩
    have found := lookup_of_mem distinct there
    obtain ⟨bytes, -, made⟩ := arches entry.1 entry.2 found
    have name : entry.2.arch = entry.1 := by rw [made]; rfl
    rw [name]
    exact found
  · intro found
    exact ⟨(art.arch, art), mem_of_lookup found, rfl⟩

/-! ### Checkouts in flight -/

/-- At most one checkout is in flight, under the binding; what it is about to fetch is what its slot
has, where it has a binary for the arch. -/
structure Checked (b : BindingRecord) (secret : Octets) (s : Seed P) : Prop where
  single : s.flights.length ≤ 1
  ours : ∀ f ∈ s.flights, f.mesh = b.meshId ∧ f.secret = secret
  looked : ∀ f ∈ s.flights, ∀ found, f.found = some found → ∀ slot art,
    (table s).slots.lookup (slotKey found.entry.cogId found.entry.version) = some slot →
      slot.arches.lookup f.req.arch = some art → art.sha256 = found.art.sha256

variable {s : Seed P}

omit [DecidableEq P] in
theorem Checked.of_empty (empty : s.flights = []) : Checked b secret s :=
  ⟨by simp [empty], by simp [empty], by simp [empty]⟩

omit [DecidableEq P] in
theorem Checked.of_sublist (checked : Checked b secret s) (fewer : s'.flights.Sublist s.flights)
    (back : ∀ key slot', (table s').slots.lookup key = some slot' → ∃ slot, (table s).slots.lookup key = some slot ∧
      slot'.arches = slot.arches) :
    Checked b secret s' where
  single := fewer.length_le.trans checked.single
  ours f listed := checked.ours f (fewer.subset listed)
  looked := by
    intro f listed found looked slot' art here held
    obtain ⟨slot, before, same⟩ := back _ slot' here
    exact checked.looked f (fewer.subset listed) found looked slot art before (same ▸ held)

theorem renewSlots_back {keys : List String}
    (issued : renewSlots o cfg secret mesh now release ents keys slots = .ok (out, work)) (key : String)
    (slot' : Slot P) (found : work.slots.lookup key = some slot') :
    ∃ slot, slots.slots.lookup key = some slot ∧ slot'.arches = slot.arches := by
  induction keys generalizing slots out with
  | nil =>
    cases issued
    exact ⟨slot', found, rfl⟩
  | cons first keys ih =>
    obtain ⟨-, issued⟩ | ⟨old, renewed, expiresAt, signed, next, tail, before, renewal, signs, later, rfl⟩ :=
      renewSlots_cons o cfg issued
    · exact ih issued
    · obtain ⟨slot, here, same⟩ := ih later
      rw [signSlot_slots signs] at here
      by_cases own : key = first
      · subst own
        rw [lookup_insert_self] at here
        refine ⟨old, before, same.trans ?_⟩
        rw [← some.inj here]
        exact (renewal_eq renewal).2.2.2.2
      · rw [lookup_insert_other slots.slots _ own] at here
        exact ⟨slot, here, same⟩

omit [DecidableEq P] in
theorem answer_table (s : Seed P) (write : WriteOutcome) (attempt : Attempt P) :
    table (s.answer write attempt) = attempt.2.1.slots ∨
      ∃ out, attempt.1 = .ok (out, table (s.answer write attempt)) := by
  obtain ⟨result, inner, disk⟩ := attempt
  cases result with
  | error e => exact .inl rfl
  | ok signed =>
    cases write with
    | done => exact .inr ⟨signed.1, rfl⟩
    | failed | failedLate => exact .inl rfl

theorem step_checked (bound : Bound files b secret) (one : cfg.limits.inFlight ≤ 1) (steady : Steady files b secret s)
    (checked : Checked b secret s) (sound : Durable.Sound (Issued o b secret Downloaded n) (table s).slots)
    (fixed : ∀ files, act ≠ .replaceFiles files) (does : Does o cfg s act s') : Checked b secret s' := by
  have same {s' : Seed P} (fewer : s'.flights.Sublist s.flights) (memory : table s' = table s) :
      Checked b secret s' := by
    refine checked.of_sublist fewer ?_
    intro key slot here
    exact ⟨slot, memory ▸ here, rfl⟩
  cases does with
  | idle => exact same (.refl _) rfl
  | replaced files' => exact absurd rfl (fixed files')
  | begun running begins =>
    simp only [beginCheckout, bind_ok_iff, ensure_ok_iff, require_ok_iff, pure_ok_iff] at begins
    obtain ⟨_, -, _, free, mesh, bound, key, held, rfl⟩ := begins
    have none : s.flights = [] := length_eq_zero_iff.mp (by omega)
    obtain ⟨binding, secretHeld, -⟩ := steady.running _ running
    constructor
    · simp [none]
    · intro f listed
      rw [none, nil_append, mem_singleton] at listed
      rw [listed]
      exact ⟨meshOf_eq binding bound, some.inj (held.symm.trans secretHeld)⟩
    · intro f listed found looked
      rw [none, nil_append, mem_singleton] at listed
      rw [listed] at looked
      cases looked
  | onward running flight onward =>
    have ours := checked.ours _ (mem_of_getElem? flight)
    constructor
    · rw [length_set]
      exact checked.single
    · intro g listed
      obtain before | rfl := mem_or_eq_of_mem_set listed
      · exact checked.ours g before
      · exact ours
    · intro g listed found' looked slot art here held
      obtain before | rfl := mem_or_eq_of_mem_set listed
      · exact checked.looked g before found' looked slot art here held
      · cases looked
        have good := sound.good _ slot here
        rw [table, running] at here
        have own := good.mesh.trans ours.1.symm
        obtain ⟨_, same, -⟩ | ⟨_, same, alike⟩ := lookCheckout_ok onward
        · cases same
        · cases same
          exact alike slot art (heldArch_some.mpr ⟨here, own, held⟩)
  | ended i => exact same (eraseIdx_sublist _ i) rfl
  | finished running flight =>
    have length := length_eraseIdx_of_lt (List.getElem?_eq_some_iff.mp flight).1
    have single := checked.single
    exact .of_empty (length_eq_zero_iff.mp (length.trans (by omega)))
  | renewed running =>
    refine checked.of_sublist (List.Sublist.refl s.flights) ?_
    intro key slot' here
    rw [table_running running]
    obtain unchanged | ⟨out, signed⟩ := answer_table s _ (Proxy.renew o cfg s.files _ _ s.disk _ _ _)
    · rw [renew_state, steady.refresh running] at unchanged
      exact ⟨slot', unchanged ▸ here, rfl⟩
    · obtain ⟨_, _, -, -, renews⟩ := renew_ok signed
      rw [steady.refresh running] at renews
      exact renewSlots_back renews key slot' here
  | read running =>
    rw [steady.refresh running]
    exact same (.refl _) (table_running running).symm
  | crashed => exact .of_empty rfl
  | started down opens =>
    rw [steady.files_eq, openService_bound bound] at opens
    cases opens
    refine same (.refl _) ?_
    rw [table, table, down]
    rfl

omit [DecidableEq P] in
theorem Reread.back (reread : Reread slots disk slots' disk') (found : slots'.slots.lookup key = some slot') :
    ∃ slot, slots.slots.lookup key = some slot ∧ slot'.arches = slot.arches := by
  obtain ⟨rfl, -⟩ | ⟨rfl, -⟩ := reread
  · exact ⟨slot', found, rfl⟩
  · rw [lookup_releaseAll] at found
    obtain ⟨slot, here, rfl⟩ := map_eq_some_iff.mp found
    obtain ⟨status, same⟩ := release_eq slot
    exact ⟨slot, here, by rw [same]⟩

omit [DecidableEq P] in
theorem checkDownload_ok (downloaded : checkDownload o cfg found download = .ok bytes) :
    download = .ok bytes ∧ o.sha256Hex bytes = found.art.sha256 := by
  simp only [checkDownload, bind_ok_iff, mapError_ok_iff, ensure_ok_iff, pure_ok_iff] at downloaded
  obtain ⟨_, fetched, _, -, _, digest, _, -, _, -, rfl⟩ := downloaded
  exact ⟨fetched, digest.1⟩

theorem grows_draft (checked : Checked b secret s) (flight : f ∈ s.flights) (looked : f.found = some found)
    (reread : Reread (table s) s.disk slots disk) (sound : Durable.Sound (Issued o b secret Downloaded n) slots.slots)
    (fetched : Downloaded bytes) (digest : o.sha256Hex bytes = found.art.sha256)
    (injective : ∀ x y, Downloaded x → Downloaded y → o.sha256Hex x = o.sha256Hex y → x = y) (few : n + 1 ≤ U64_MAX)
    (signs : signSlot o cfg f.secret slots found.key (f.draft o slots found bytes now) f.mesh now expiresAt =
      .ok (signed, work)) :
    Issued o b secret Downloaded (n + 1) found.key (filed slots (f.draft o slots found bytes now) signed) ∧
      ∀ old, slots.slots.lookup found.key = some old →
        Grows old (filed slots (f.draft o slots found bytes now) signed) := by
  obtain ⟨mesh, key⟩ := checked.ours f flight
  obtain ⟨numbered, higher⟩ := numbered_draft signs (sound.imp fun _ _ good => good.numbered) few
  rw [key] at signs
  unfold Flight.draft at signs numbered higher ⊢
  -- the slot is the one that is there, or a new one without binaries
  have slotHere : (slotFor slots f.mesh found now).meshId = b.meshId ∧
      ((∃ old, slots.slots.lookup found.key = some old ∧
        (slotFor slots f.mesh found now).arches = old.arches) ∨
      slots.slots.lookup found.key = none ∧
        (slotFor slots f.mesh found now).arches = []) := by
    unfold slotFor
    split
    next old here =>
      have own := (sound.good _ old here).mesh
      rw [if_neg (by simp [own, mesh])]
      exact ⟨own, .inl ⟨old, here, rfl⟩⟩
    next absent => exact ⟨mesh, .inr ⟨absent, rfl⟩⟩
  generalize slotFor slots f.mesh found now = slot at signs numbered higher slotHere ⊢
  obtain ⟨own, arches⟩ := slotHere
  have before : (slot.arches.map (·.1)).Nodup ∧ ∀ arch art, slot.arches.lookup arch = some art →
      ∃ bytes, Downloaded bytes ∧ art = artifactOf o arch bytes := by
    obtain ⟨old, here, same⟩ | ⟨-, none⟩ := arches
    · rw [same]
      exact ⟨(sound.good _ old here).distinct, (sound.good _ old here).arches⟩
    · rw [none]
      exact ⟨nodup_nil, by simp⟩
  constructor
  · refine issued_filed signs numbered mesh own (nodup_insert before.1 _ _) ?_
    intro arch art there
    change (insert slot.arches f.req.arch (artifactOf o f.req.arch bytes)).lookup arch = some art at there
    by_cases same : arch = f.req.arch
    · subst same
      rw [lookup_insert_self] at there
      exact ⟨bytes, fetched, (some.inj there).symm⟩
    · rw [lookup_insert_other slot.arches _ same] at there
      exact before.2 arch art there
  · intro old here
    refine ⟨.inl (higher old here), ?_⟩
    intro arch art held
    change (insert slot.arches f.req.arch (artifactOf o f.req.arch bytes)).lookup arch = some art
    by_cases same : arch = f.req.arch
    · -- the binary that is there has the digest that was fetched, so it is the same
      subst same
      obtain ⟨past, there, alike⟩ := Reread.back reread here
      have digestHeld := checked.looked f flight found looked past art there (alike ▸ held)
      obtain ⟨earlier, downloaded, rfl⟩ := (sound.good _ old here).arches _ art held
      rw [injective earlier bytes downloaded fetched (digestHeld.trans digest.symm), lookup_insert_self]
    · rw [lookup_insert_other slot.arches _ same]
      obtain ⟨other, there, alike⟩ | ⟨absent, -⟩ := arches
      · obtain rfl : other = old := some.inj (there.symm.trans here)
        exact alike ▸ held
      · rw [absent] at here
        cases here

structure Settled (o : Outside P) (files : Files) (b : BindingRecord) (secret : Octets) (Downloaded : Octets → Prop)
    (s : Seed P) : Prop where
  steady : Steady files b secret s
  checked : Checked b secret s
  kept : Kept Grows (Issued o b secret Downloaded s.issues) s

theorem step_settled (bound : Bound files b secret) (one : cfg.limits.inFlight ≤ 1)
    (injective : ∀ x y, Downloaded x → Downloaded y → o.sha256Hex x = o.sha256Hex y → x = y)
    (settled : Settled o files b secret Downloaded s) (fixed : ∀ files, act ≠ .replaceFiles files)
    (fetched : ∀ i bytes clock cache bindWrite write, act = .finish i (.ok bytes) clock cache bindWrite write →
      Downloaded bytes)
    (few : (s.step o cfg act).issues < 2 ^ 64) : Settled o files b secret Downloaded (s.step o cfg act) := by
  have turns : Turns o cfg s act (s.step o cfg act) := step_turns s act
  obtain ⟨shown, kept, -⟩ := settled.kept
  refine ⟨step_steady bound settled.steady fixed (step_does s act),
    step_checked bound one settled.steady settled.checked kept.inMemory fixed (step_does s act), ?_⟩
  refine turns.kept settled.kept (fun slot status => ⟨⟨.inr ⟨rfl, rfl⟩, fun _ _ here => here⟩,
    ⟨.inr ⟨rfl, rfl⟩, fun _ _ here => here⟩⟩) ?_ ?_ ?_
  · intro key slot status issued
    exact ⟨⟨issued.numbered.named, issued.numbered.grant, issued.numbered.bounded⟩, issued.mesh, issued.distinct,
      issued.arches, issued.grant⟩
  · intro key slot issued
    exact issued.mono turns.issues_le
  · intro slots disk work out reread sound made issues
    have fits : s.issues + out.length ≤ U64_MAX := Nat.le_sub_one_of_lt (issues ▸ few)
    rw [issues]
    apply Signed.keeps (R := Grows) (G := Issued o b secret Downloaded) made
    · intro n m key slot le issued
      exact issued.mono le
    · intro old inner _ secret' mesh _ _ _ key slot slot' _ _ _ _ running read meshRead keyRead fits issued renewed
        signs
      rw [settled.steady.refresh running] at read
      obtain ⟨binding, keyHeld, -⟩ := settled.steady.running old running
      obtain rfl : old = inner := read
      obtain rfl : secret = secret' := some.inj (keyHeld.symm.trans keyRead)
      obtain ⟨numbered, higher⟩ := numbered_renewed issued.numbered renewed signs fits
      obtain ⟨-, -, -, sameMesh, sameArches⟩ := renewal_eq renewed
      refine ⟨issued_filed signs numbered (meshOf_eq binding meshRead) (sameMesh.trans issued.mesh)
        (sameArches ▸ issued.distinct) (sameArches ▸ issued.arches), .inl higher, ?_⟩
      intro arch art held
      exact (congrArg (lookup arch) sameArches).trans held
    · intro i clock download cache bindWrite write f found bytes now expiresAt signed next asked flight looked
        downloaded
        fits signs
      obtain ⟨rfl, digest⟩ := checkDownload_ok downloaded
      exact grows_draft settled.checked (mem_of_getElem? flight) looked reread sound
        (fetched i bytes clock cache bindWrite write asked) digest injective fits signs
    · exact sound
    · exact fits

/-- The acts of a run with one binding: the files stay, and what is downloaded is known. -/
def Acts (Downloaded : Octets → Prop) (acts : List Act) : Prop :=
  (∀ act ∈ acts, ∀ files, act ≠ .replaceFiles files) ∧
    ∀ i bytes clock cache bindWrite write, Act.finish i (.ok bytes) clock cache bindWrite write ∈ acts →
      Downloaded bytes

theorem run_settled (bound : Bound files b secret) (one : cfg.limits.inFlight ≤ 1)
    (injective : ∀ x y, Downloaded x → Downloaded y → o.sha256Hex x = o.sha256Hex y → x = y)
    (allowed : Acts Downloaded acts) (few : (Run.run (Seed.step o cfg) { files := files } acts).issues < 2 ^ 64) :
    Settled o files b secret Downloaded (Run.run (Seed.step o cfg) ({ files := files } : Seed P) acts) := by
  refine @Run.run_keeps_mem _ _ _ (fun s : Seed P => s.issues < 2 ^ 64 → Settled o files b secret Downloaded s)
    (fun act => act ∈ acts) ?_ _ acts ?_ (fun _ listed => listed) few
  · intro s act before listed few
    refine step_settled bound one injective (before ((step_turns s act).issues_le.trans_lt few))
      (allowed.1 act listed) ?_
      few
    rintro i bytes clock cache bindWrite write rfl
    exact allowed.2 i bytes clock cache bindWrite write listed
  · intro _
    exact ⟨⟨rfl, fun inner here => by cases here⟩, .of_empty rfl, kept_empty files⟩

/-! ### The grants that were released -/

/-- Of two grants of one cog version the later one has the higher number and every artifact, or is the
same. -/
def Unites (o : Outside P) (key : Octets) (signed signed' : SignedEnvelope P) : Prop :=
  ∀ g g', verifyGrantSignature o signed key = .ok g → verifyGrantSignature o signed' key = .ok g' → g.key = g'.key →
    g.seq ≤ g'.seq ∧ (g.seq = g'.seq → signed.payload = signed'.payload) ∧ ∀ art ∈ g.artifacts, art ∈ g'.artifacts

theorem Unites.refl {key : Octets} (signed : SignedEnvelope P) : Unites o key signed signed := by
  intro g g' verified verified' _
  obtain rfl : g = g' := Except.ok.inj (verified.symm.trans verified')
  exact ⟨le_rfl, fun _ => rfl, fun _ listed => listed⟩

theorem unites_of_grows
    (issued : Issued o b secret Downloaded n key slot) (issued' : Issued o b secret Downloaded n key' slot')
    (carried : slot.grant = some signed) (carried' : slot'.grant = some signed')
    (grows : key = key' → Grows slot slot') :
    Unites o (o.publicKey secret) signed signed' := by
  obtain ⟨h, verified, -, listed⟩ := issued.grant signed carried
  obtain ⟨h', verified', -, listed'⟩ := issued'.grant signed' carried'
  intro g g' isFirst isSecond sameName
  obtain rfl : g = h := Except.ok.inj (isFirst.symm.trans verified)
  obtain rfl : g' = h' := Except.ok.inj (isSecond.symm.trans verified')
  have text := (verifyGrantSignature_ok o verified).1.symm
  have text' := (verifyGrantSignature_ok o verified').1.symm
  have cogs : g.cogId = g'.cogId := congrArg Prod.fst sameName
  have versions : g.version = g'.version := congrArg Prod.snd sameName
  have rises := rises_of_follows issued.numbered issued'.numbered carried carried' (fun same => (grows same).1)
    g g' text text' cogs versions
  refine ⟨rises.1, rises.2, ?_⟩
  intro art there
  -- the two grants name one slot
  obtain ⟨k, textK, nameK, -⟩ := issued.numbered.grant signed carried
  obtain ⟨k', textK', nameK', -⟩ := issued'.numbered.grant signed' carried'
  obtain rfl : g = k := Outside.grantText_inj (text.symm.trans textK)
  obtain rfl : g' = k' := Outside.grantText_inj (text'.symm.trans textK')
  have sameKey : key = key' := by
    rw [issued.numbered.named, issued'.numbered.named, ← nameK.1, ← nameK.2, ← nameK'.1, ← nameK'.2, cogs, versions]
  exact (listed' art).mpr ((grows sameKey).2 _ _ ((listed art).mp there))

theorem Settled.released (settled : Settled o files b secret Downloaded s) :
    (∀ signed ∈ s.released, ∃ g, verifyGrantSignature o signed (o.publicKey secret) = .ok g ∧ g.meshId = b.meshId) ∧
      ∀ signed ∈ s.released, ∀ signed' ∈ s.released,
        Unites o (o.publicKey secret) signed signed' ∨ Unites o (o.publicKey secret) signed' signed := by
  obtain ⟨shown, kept, grants⟩ := settled.kept
  have pairs : (shown.map (·.2.grant)).Pairwise fun first second => ∀ signed signed', first = some signed →
      second = some signed' → Unites o (o.publicKey secret) signed signed' := by
    rw [pairwise_map]
    apply kept.rising.imp_of_mem
    intro item later listed listed' grows signed signed' carried carried'
    exact unites_of_grows (kept.shownGood item listed) (kept.shownGood later listed') carried carried' grows
  constructor
  · intro signed listed
    have there : some signed ∈ shown.map (·.2.grant) := grants ▸ mem_map_of_mem listed
    obtain ⟨item, shownItem, carried⟩ := mem_map.mp there
    obtain ⟨g, verified, mesh, -⟩ := (kept.shownGood item shownItem).grant signed carried
    exact ⟨g, verified, mesh⟩
  · rw [grants, pairwise_map] at pairs
    intro signed listed signed' listed'
    exact Durable.either_order Unites.refl (pairs.imp fun unites => unites _ _ rfl rfl) listed listed'

end

end Weftos.Licence.OneBinding
