import Weftos.Licence.OneBinding

/-! The issue counter of a Seed: it rises with each issue and survives every restart. -/

namespace Weftos.Licence.Issues
open Lib Lib.Bytes Lib.Outcome Wire Proxy Turn Licence.Numbering OneBinding List

variable (slots : Slots P)

section
variable {P : Type} {key : String}

def SameIssue (slot slot' : Slot P) : Prop := ∃ status, slot' = { slot with status := status }

theorem SameIssue.refl (slot : Slot P) : SameIssue slot slot := ⟨slot.status, rfl⟩

theorem SameIssue.trans (first : SameIssue a b) (second : SameIssue b c) : SameIssue a c := by
  obtain ⟨_, rfl⟩ := first
  obtain ⟨status, rfl⟩ := second
  exact ⟨status, rfl⟩

theorem SameIssue.symm (same : SameIssue a b) : SameIssue b a := by
  obtain ⟨_, rfl⟩ := same
  exact ⟨a.status, rfl⟩

/-- A slot of the mesh, issued by the time the counter stood at `ctr`. -/
structure Issued (mesh : String) (ctr : Nat) (slot : Slot P) : Prop where
  mesh : slot.meshId = mesh
  granted : ∃ signed, slot.grant = some signed
  first : 0 < slot.seq
  number : slot.seq ≤ slot.issueCtr
  counter : slot.issueCtr ≤ ctr

structure Dated (mesh : String) (slots : Slots P) : Prop where
  distinct : (slots.slots.map (·.1)).Nodup
  each : ∀ {key slot}, slots.slots.lookup key = some slot → Issued mesh slots.ctr slot
  once : ∀ key key' slot slot', slots.slots.lookup key = some slot → slots.slots.lookup key' = some slot' →
    slot.issueCtr = slot'.issueCtr → key = key'

structure NewIssue (ctr : Nat) (slot slot' : Slot P) : Prop where
  counter : ctr < slot'.issueCtr
  number : slot.seq < slot'.seq
  name : slot'.cogId = slot.cogId ∧ slot'.version = slot.version

/-- A later table: up to the old counter it has the old issues, and every slot is still there, as it
was or issued again. -/
structure Reissues (slots slots' : Slots P) : Prop where
  later : slots.ctr ≤ slots'.ctr
  back : ∀ key slot', slots'.slots.lookup key = some slot' → slot'.issueCtr ≤ slots.ctr →
    ∃ slot, slots.slots.lookup key = some slot ∧ SameIssue slot slot'
  forward : ∀ key slot, slots.slots.lookup key = some slot → ∃ slot', slots'.slots.lookup key = some slot' ∧
    (SameIssue slot slot' ∨ NewIssue slots.ctr slot slot')

theorem Reissues.refl : Reissues slots slots where
  later := le_rfl
  back _ slot here _ := ⟨slot, here, .refl slot⟩
  forward _ slot here := ⟨slot, here, .inl (.refl slot)⟩

theorem Reissues.trans (first : Reissues a b) (second : Reissues b c) : Reissues a c where
  later := first.later.trans second.later
  back := by
    intro key slot'' here old
    obtain ⟨slot', there, same'⟩ := second.back key slot'' here (old.trans first.later)
    have counter : slot'.issueCtr ≤ a.ctr := by
      obtain ⟨_, rfl⟩ := same'
      exact old
    obtain ⟨slot, before, same⟩ := first.back key slot' there counter
    exact ⟨slot, before, same.trans same'⟩
  forward := by
    intro key slot here
    obtain ⟨slot', there, moved⟩ := first.forward key slot here
    obtain ⟨slot'', after, moved'⟩ := second.forward key slot' there
    refine ⟨slot'', after, ?_⟩
    have later := first.later
    obtain same | new := moved
    · obtain ⟨_, rfl⟩ := same
      obtain same' | new' := moved'
      · obtain ⟨status, rfl⟩ := same'
        exact .inl ⟨status, rfl⟩
      · exact .inr ⟨later.trans_lt new'.counter, new'.number, new'.name⟩
    · right
      obtain same' | new' := moved'
      · obtain ⟨_, rfl⟩ := same'
        exact ⟨new.counter, new.number, new.name⟩
      · exact ⟨later.trans_lt new'.counter, new.number.trans new'.number, new'.name.1.trans new.name.1,
          new'.name.2.trans new.name.2⟩

/-! ### Reading the binding -/

theorem releaseAll_back {slots : Slots P} (here : slots.releaseAll.slots.lookup key = some slot') :
    ∃ slot, slots.slots.lookup key = some slot ∧ SameIssue slot slot' := by
  rw [lookup_releaseAll] at here
  obtain ⟨slot, there, rfl⟩ := Option.map_eq_some_iff.mp here
  exact ⟨slot, there, release_eq slot⟩

theorem releaseAll_forward {slots : Slots P} (here : slots.slots.lookup key = some slot) :
    ∃ slot', slots.releaseAll.slots.lookup key = some slot' ∧ SameIssue slot slot' :=
  ⟨slot.release, by rw [lookup_releaseAll, here]; rfl, release_eq slot⟩

theorem Dated.releaseAll {mesh : String} {slots : Slots P} (dated : Dated mesh slots) :
    Dated mesh slots.releaseAll where
  distinct := by
    rw [releaseAll_keys]
    exact dated.distinct
  each here := by
    obtain ⟨slot, there, _, rfl⟩ := releaseAll_back here
    exact { dated.each there with }
  once key key' first second here here' same := by
    obtain ⟨slot, there, _, rfl⟩ := releaseAll_back here
    obtain ⟨slot', there', _, rfl⟩ := releaseAll_back here'
    exact dated.once key key' slot slot' there there' same

theorem reissues_releaseAll : Reissues slots slots.releaseAll where
  later := le_rfl
  back _ _ here _ := releaseAll_back here
  forward key slot here := by
    obtain ⟨slot', there, same⟩ := releaseAll_forward here
    exact ⟨slot', there, .inl same⟩

theorem releaseAll_reissues : Reissues slots.releaseAll slots where
  later := le_rfl
  back key slot here _ := by
    obtain ⟨slot', there, same⟩ := releaseAll_forward here
    exact ⟨slot', there, same.symm⟩
  forward key slot' here := by
    obtain ⟨slot, there, same⟩ := releaseAll_back here
    exact ⟨slot, there, .inl same.symm⟩

/-! ### Signing -/

variable [DecidableEq P] {o : Outside P} {cfg : Config} {mesh : String}

theorem signSlot_dated {slots work : Slots P}
    (issued : signSlot o cfg secret slots key slot mesh now expiresAt = .ok (signed, work))
    (dated : Dated mesh slots) (few : slots.ctr + 1 ≤ U64_MAX) (own : slot.meshId = mesh)
    (number : 0 < slot.seq ∧ slot.seq ≤ slots.ctr + 1)
    (next : ∀ old, slots.slots.lookup key = some old →
      old.seq < slot.seq ∧ slot.cogId = old.cogId ∧ slot.version = old.version) :
    Dated mesh work ∧ Reissues slots work ∧ work.ctr = slots.ctr + 1 := by
  have made := signSlot_slots issued
  have counter : work.ctr = slots.ctr + 1 := by
    obtain ⟨-, -, -, rfl⟩ := signSlot_ok o cfg issued
    exact saturatingAdd_eq few
  have fresh : (filed slots slot signed).issueCtr = slots.ctr + 1 := saturatingAdd_eq few
  -- every other slot is as it was
  have cases_ : ∀ other found, work.slots.lookup other = some found →
      other = key ∧ found = filed slots slot signed ∨ other ≠ key ∧ slots.slots.lookup other = some found := by
    intro other found here
    rw [made] at here
    by_cases same : other = key
    · subst same
      rw [Table.lookup_insert_self] at here
      exact .inl ⟨rfl, (Option.some.inj here).symm⟩
    · rw [Table.lookup_insert_other slots.slots _ same] at here
      exact .inr ⟨same, here⟩
  have below : ∀ other found, slots.slots.lookup other = some found →
    found.issueCtr ≠ (filed slots slot signed).issueCtr := by
    intro other found here
    have bound := (dated.each here).counter
    omega
  refine ⟨⟨?_, ?_, ?_⟩, ⟨?_, ?_, ?_⟩, counter⟩
  · rw [made]
    exact Table.nodup_insert dated.distinct _ _
  · intro other found here
    obtain ⟨-, rfl⟩ | ⟨-, before⟩ := cases_ other found here
    · exact ⟨own, ⟨signed, rfl⟩, number.1, fresh ▸ number.2, (fresh.trans counter.symm).le⟩
    · have issued := dated.each before
      exact { issued with counter := by have bound := issued.counter; omega }
  · intro first second found found' here here' same
    obtain ⟨rfl, rfl⟩ | ⟨-, before⟩ := cases_ first found here
    · obtain ⟨rfl, -⟩ | ⟨-, before'⟩ := cases_ second found' here'
      · rfl
      · exact absurd same.symm (below second found' before')
    · obtain ⟨rfl, rfl⟩ | ⟨-, before'⟩ := cases_ second found' here'
      · exact absurd same (below first found before)
      · exact dated.once first second found found' before before' same
  · omega
  · intro other found here old
    obtain ⟨-, rfl⟩ | ⟨-, before⟩ := cases_ other found here
    · omega
    · exact ⟨found, before, .refl found⟩
  · intro other found here
    rw [made]
    by_cases same : other = key
    · subst same
      obtain ⟨higher, cog, version⟩ := next found here
      exact ⟨_, Table.lookup_insert_self _ _ _, .inr ⟨by omega, higher, cog, version⟩⟩
    · exact ⟨found, Table.lookup_insert_of_ne _ here same, .inl (.refl found)⟩

theorem renewSlots_dated {keys : List String} {slots work : Slots P}
    (issued : renewSlots o cfg secret mesh now release ents keys slots = .ok (out, work))
    (dated : Dated mesh slots) (few : slots.ctr + out.length ≤ U64_MAX) :
    Dated mesh work ∧ Reissues slots work ∧ work.ctr = slots.ctr + out.length := by
  induction keys generalizing slots out with
  | nil =>
    cases issued
    exact ⟨dated, .refl _, rfl⟩
  | cons key keys ih =>
    obtain ⟨-, issued⟩ | ⟨slot, slot', expiresAt, signed, signedWork, tail, found, renewal, signs, later, rfl⟩ :=
      renewSlots_cons o cfg issued
    · exact ih issued dated few
    · obtain ⟨cog, version, number, own, -⟩ := renewal_eq renewal
      have issued := dated.each found
      have low := issued.number
      have bound := issued.counter
      dsimp only [length_cons] at few later ⊢
      have next : slot'.seq = slot.seq + 1 := number.trans (saturatingAdd_eq (by omega))
      obtain ⟨dated', reissues, counter⟩ := signSlot_dated signs dated (by omega)
        (own.trans issued.mesh) (by omega) (by
          intro old here
          obtain rfl : slot = old := Option.some.inj (found.symm.trans here)
          exact ⟨by omega, cog, version⟩)
      obtain ⟨dated'', reissues', counter'⟩ := ih later dated' (by omega)
      exact ⟨dated'', reissues.trans reissues', by omega⟩

omit [DecidableEq P] in
theorem slotFor_mesh (mesh : String) (found : Found) (now : Nat) :
    (slotFor slots mesh found now).meshId = mesh := by
  unfold slotFor
  split
  · split
    · rfl
    next own => exact not_not.mp own
  · rfl

theorem grantCheckout_dated {slots work : Slots P}
    (grants : grantCheckout o cfg slots f found bytes now cache = .ok (signed, work)) (own : f.mesh = mesh)
    (dated : Dated mesh slots) (few : slots.ctr + 1 ≤ U64_MAX) :
    Dated mesh work ∧ Reissues slots work ∧ work.ctr = slots.ctr + 1 := by
  subst own
  obtain ⟨expiresAt, signs⟩ := grantCheckout_ok grants
  unfold Flight.draft at signs
  have here := slotFor_mesh slots f.mesh found now
  have same := slotFor_eq slots f.mesh found now
  generalize slotFor slots f.mesh found now = slot at signs here same
  have low : slot.seq ≤ slots.ctr := by
    obtain ⟨old, there, -, -, number⟩ | ⟨-, -, -, number⟩ := same
    · have bound := (dated.each there).number
      have counter := (dated.each there).counter
      omega
    · omega
  have next : (slot.checkedOut f.req.arch (artifactOf o f.req.arch bytes) found now).seq = slot.seq + 1 :=
    saturatingAdd_eq (by omega)
  apply signSlot_dated signs dated few here (by omega)
  intro old there
  obtain ⟨other, elsewhere, cog, version, number⟩ | ⟨absent, -⟩ := same
  · obtain rfl : other = old := Option.some.inj (elsewhere.symm.trans there)
    exact ⟨by omega, cog, version⟩
  · rw [absent] at there
    cases there

end

section
variable {P : Type} [DecidableEq P] {o : Outside P} {cfg : Config} {files : Files} {b : BindingRecord} {secret : Octets}

omit [DecidableEq P] in
/-- Both tables are dated, the one on disk is a later one, and its counter counts signatures. -/
structure Orderly (mesh : String) (s : Seed P) : Prop where
  inMemory : Dated mesh (table s)
  onDisk : Dated mesh s.disk
  ahead : Reissues (table s) s.disk
  counted : s.disk.ctr ≤ s.issues

omit [DecidableEq P] in
theorem orderly_empty (mesh : String) (files : Files) : Orderly mesh ({ files := files } : Seed P) := by
  have empty : Dated mesh ({} : Slots P) := by
    constructor <;> simp
  exact ⟨empty, empty, .refl _, le_rfl⟩

theorem step_orderly (steady : Steady files b secret s) (orderly : Orderly b.meshId s) (act : Act)
    (few : (s.step o cfg act).issues < 2 ^ 64) :
    Orderly b.meshId (s.step o cfg act) ∧ Reissues (table s) (table (s.step o cfg act)) := by
  have turns : Turns o cfg s act (s.step o cfg act) := step_turns s act
  generalize s.step o cfg act = s' at few turns
  -- what reading the binding leaves
  have read : ∀ {slots disk}, Reread (table s) s.disk slots disk → Dated b.meshId slots ∧ Dated b.meshId disk ∧
      Reissues slots disk ∧ disk.ctr ≤ s.issues ∧ Reissues (table s) slots := by
    intro slots disk reread
    have counted := orderly.counted
    have later := orderly.ahead.later
    obtain ⟨rfl, rfl⟩ | ⟨rfl, rfl | rfl⟩ := reread
    · exact ⟨orderly.inMemory, orderly.onDisk, orderly.ahead, counted, .refl _⟩
    · exact ⟨orderly.inMemory.releaseAll, orderly.onDisk, (releaseAll_reissues _).trans orderly.ahead, counted,
        reissues_releaseAll _⟩
    · exact ⟨orderly.inMemory.releaseAll, orderly.inMemory.releaseAll, .refl _, later.trans counted,
        reissues_releaseAll _⟩
  cases turns with
  | shown out reread released carried issues =>
    obtain ⟨inMemory, onDisk, ahead, counted, reissues⟩ := read reread
    exact ⟨⟨inMemory, onDisk, ahead, issues ▸ counted⟩, reissues⟩
  | stopped memory disk released issues =>
    rw [memory]
    exact ⟨⟨memory ▸ orderly.onDisk, disk ▸ orderly.onDisk, memory ▸ disk ▸ .refl _, disk ▸ issues ▸ orderly.counted⟩,
      orderly.ahead⟩
  | signed slots disk work out reread made issues ended =>
    obtain ⟨inMemory, onDisk, ahead, counted, reissues⟩ := read reread
    have room : slots.ctr + out.length ≤ U64_MAX := by
      have later := ahead.later
      have bound : U64_MAX = 2 ^ 64 - 1 := rfl
      omega
    obtain ⟨dated, onward, counter⟩ : Dated b.meshId work ∧ Reissues slots work ∧
      work.ctr = slots.ctr + out.length := by
      have mesh : ∀ {old inner bindWrite mesh}, s.inner = some old →
          (refreshBinding s.files bindWrite old s.disk).1 = inner → meshOf inner = some mesh → mesh = b.meshId := by
        intro old inner bindWrite mesh running same bound
        rw [steady.refresh running] at same
        obtain rfl : old = inner := same
        exact meshOf_eq (steady.running old running).1 bound
      cases made with
      | checkout running same bound asked flight looked downloaded grants =>
        exact grantCheckout_dated grants (mesh running same bound) inMemory room
      | renewal running same bound key renews =>
        obtain rfl := mesh running same bound
        exact renewSlots_dated renews inMemory room
    have workCounted : work.ctr ≤ s'.issues := by
      have later := ahead.later
      omega
    obtain ⟨memory, written, -⟩ | ⟨memory, written, -⟩ := ended
    · rw [memory]
      exact ⟨⟨memory ▸ dated, written ▸ dated, memory ▸ written ▸ .refl _, written ▸ workCounted⟩,
        reissues.trans onward⟩
    · rw [memory]
      refine ⟨?_, reissues⟩
      obtain same | late := written
      · exact ⟨memory ▸ inMemory, same ▸ onDisk, memory ▸ same ▸ ahead, by rw [same]; omega⟩
      · exact ⟨memory ▸ inMemory, late ▸ dated, memory ▸ late ▸ onward, late ▸ workCounted⟩

omit [DecidableEq P] in
theorem mem_pageRows {inner : Inner P} (dated : Dated mesh inner.slots) {since : Nat}
    {row : Nat × SignedEnvelope P} : row ∈ pageRows inner since ↔ ∃ key slot, inner.slots.slots.lookup key = some slot ∧
      slot.meshId = (inner.bound.map (·.meshId)).getD "" ∧ since < slot.issueCtr ∧ slot.grant = some row.2 ∧
      row.1 = slot.issueCtr := by
  unfold pageRows
  rw [(perm_insertionSort _ _).mem_iff, mem_filterMap]
  constructor
  · rintro ⟨entry, listed, made⟩
    obtain ⟨there, kept⟩ := mem_filter.mp listed
    obtain ⟨own, after⟩ := of_decide_eq_true kept
    obtain ⟨signed, carried, rfl⟩ := Option.map_eq_some_iff.mp made
    exact ⟨entry.1, entry.2, Table.lookup_of_mem dated.distinct there, own, after, carried, rfl⟩
  · rintro ⟨key, slot, here, own, after, carried, counter⟩
    refine ⟨(key, slot), mem_filter.mpr ⟨Table.mem_of_lookup here, decide_eq_true ⟨own, after⟩⟩, ?_⟩
    rw [carried, Option.map_some, ← counter]

omit [DecidableEq P] in
theorem pageRows_sorted (inner : Inner P) (since : Nat) : (pageRows inner since).Pairwise fun a b => a.1 ≤ b.1 :=
  pairwise_insertionSort _ _

omit [DecidableEq P] in
/-- A page has every issue of the mesh between the cursor and its own end, and does not end past the
counter. -/
theorem grantsPage_complete {inner : Inner P} (dated : Dated mesh inner.slots)
    (bound : inner.bound.map (·.meshId) = some mesh) {since : Nat} :
    (∀ key slot signed, inner.slots.slots.lookup key = some slot → slot.grant = some signed → since < slot.issueCtr →
      slot.issueCtr ≤ (grantsPage cfg inner since).next → signed ∈ (grantsPage cfg inner since).grants) ∧
    (grantsPage cfg inner since).next ≤ max since inner.slots.ctr := by
  have sorted := pageRows_sorted inner since
  have rows := fun row => @mem_pageRows _ _ inner dated since row
  unfold grantsPage
  dsimp only
  generalize pageRows inner since = list at sorted rows
  constructor
  · intro key slot signed here carried after upTo
    have listed : (slot.issueCtr, signed) ∈ list :=
      (rows _).mpr ⟨key, slot, here, by rw [bound]; exact (dated.each here).mesh, after, carried, rfl⟩
    rw [← take_append_drop cfg.limits.renewBatch list] at listed sorted
    obtain kept | dropped := mem_append.mp listed
    · exact mem_map.mpr ⟨_, kept, rfl⟩
    · cases last : (list.take cfg.limits.renewBatch).getLast? with
      | none =>
        rw [last] at upTo
        exact absurd upTo (not_le.mpr after)
      | some row =>
        rw [last] at upTo
        have kept : row ∈ list.take cfg.limits.renewBatch := mem_of_getLast? last
        have before : row.1 ≤ slot.issueCtr := (pairwise_append.mp sorted).2.2 row kept _ dropped
        -- no two issues share a counter, so the last row kept is this one
        obtain ⟨key', slot', here', -, -, carried', counter⟩ := (rows row).mp (mem_of_mem_take kept)
        have equal : slot.issueCtr = slot'.issueCtr := counter ▸ Nat.le_antisymm upTo before
        obtain rfl : key = key' := dated.once key key' slot slot' here here' equal
        obtain rfl : slot = slot' := Option.some.inj (here.symm.trans here')
        exact mem_map.mpr ⟨row, kept, Option.some.inj (carried'.symm.trans carried)⟩
  · cases last : (list.take cfg.limits.renewBatch).getLast? with
    | none => exact le_max_left _ _
    | some row =>
      obtain ⟨key, slot, here, -, -, -, counter⟩ := (rows row).mp (mem_of_mem_take (mem_of_getLast? last))
      have bound := (dated.each here).counter
      apply le_max_of_le_right
      change row.1 ≤ _
      omega

/-- No room on the page from `since`: as many issues as a page holds come first. -/
def NoRoom (cfg : Config) (slots : Slots P) (since : Nat) (slot : Slot P) : Prop :=
  cfg.limits.renewBatch ≤
    slots.slots.countP fun entry => since < entry.2.issueCtr ∧ entry.2.issueCtr < slot.issueCtr

instance (slots : Slots P) (since : Nat) (slot : Slot P) : Decidable (NoRoom cfg slots since slot) :=
  inferInstanceAs (Decidable (_ ≤ _))

omit [DecidableEq P] in
theorem countP_pageRows_le (inner : Inner P) (since bound : Nat) :
    (pageRows inner since).countP (fun row => row.1 < bound) ≤
      inner.slots.slots.countP fun entry => since < entry.2.issueCtr ∧ entry.2.issueCtr < bound := by
  unfold pageRows
  rw [(perm_insertionSort _ _).countP_eq, countP_filterMap, countP_filter]
  apply countP_mono_left
  intro entry _ counted
  cases carried : entry.2.grant <;> simp_all

omit [DecidableEq P] in
theorem le_last {rows : List (Nat × SignedEnvelope P)} (sorted : rows.Pairwise fun a b => a.1 ≤ b.1)
    (last : rows.getLast? = some final) : ∀ row ∈ rows, row.1 ≤ final.1 := by
  obtain ⟨front, rfl⟩ := getLast?_eq_some_iff.mp last
  intro row listed
  obtain before | same := mem_append.mp listed
  · exact (pairwise_append.mp sorted).2.2 row before final mem_cons_self
  · rw [mem_singleton.mp same]

omit [DecidableEq P] in
/-- An issue that a page leaves out had no room on it. -/
theorem noRoom_of_left {inner : Inner P} (dated : Dated mesh inner.slots)
    (bound : inner.bound.map (·.meshId) = some mesh) {since : Nat} (here : inner.slots.slots.lookup key = some slot)
    (after : since < slot.issueCtr) (left : (grantsPage cfg inner since).next < slot.issueCtr) :
    NoRoom cfg inner.slots since slot := by
  obtain ⟨signed, carried⟩ := (dated.each here).granted
  have listed : (slot.issueCtr, signed) ∈ pageRows inner since :=
    (mem_pageRows dated).mpr ⟨key, slot, here, by rw [bound]; exact (dated.each here).mesh, after, carried, rfl⟩
  have sorted := pageRows_sorted inner since
  refine le_trans ?_ (countP_pageRows_le inner since slot.issueCtr)
  unfold grantsPage at left
  dsimp only at left
  generalize pageRows inner since = rows at listed sorted left ⊢
  generalize cfg.limits.renewBatch = batch at left ⊢
  have low : ∀ row ∈ rows.take batch, row.1 < slot.issueCtr := by
    intro row kept
    cases last : (rows.take batch).getLast? with
    | none =>
      rw [getLast?_eq_none_iff.mp last] at kept
      cases kept
    | some final =>
      rw [last] at left
      exact (le_last (sorted.sublist (take_sublist batch rows)) last row kept).trans_lt left
  have full : (rows.take batch).length = batch := by
    rw [← take_append_drop batch rows] at listed
    obtain kept | dropped := mem_append.mp listed
    · exact absurd (low _ kept) (lt_irrefl _)
    · have more := length_pos_of_mem dropped
      rw [length_drop] at more
      rw [length_take]
      omega
  calc batch = (rows.take batch).length := full.symm
    _ = (rows.take batch).countP (fun row => row.1 < slot.issueCtr) :=
      (countP_eq_length.mpr fun row kept => decide_eq_true (low row kept)).symm
    _ ≤ rows.countP fun row => row.1 < slot.issueCtr := (take_sublist batch rows).countP_le

end

end Weftos.Licence.Issues
