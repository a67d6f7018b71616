import Weftos.Blob.Entry

/-! What a handle promises: until its expiry, whoever put the bytes reads them back. -/

namespace Weftos.Blob.Handle
open Lib Lib.Bytes Lib.Outcome Bus.Types Content Entry

variable (env : Env) (cfg : BlobConfig) {s : Store}

def Backed (env : Env) (s : Store) : Prop :=
  ∀ h m, s.blobs.lookup h = some m →
    ∃ bytes, s.files.lookup h = some bytes ∧ env.hash bytes = h ∧ bytes.length = m.size

theorem step_backed (act : Act) (distinct : Distinct s) (backed : Backed env s) :
    Backed env (step env cfg s act) := by
  intro h m' found'
  cases step_fate env cfg distinct act h with
  | kept blob file =>
    rw [blob] at found'
    rw [file]
    exact backed h m' found'
  | dropped found time expired blob => simp [blob] at found'
  | passed found grants listed holds blob file | putAgain found puts here live blob file =>
    rw [blob] at found'
    rw [file]
    obtain rfl := Option.some.inj found'
    have before := backed h _ found
    exact before
  | @stored now u gone puts here blob file =>
    rw [blob] at found'
    obtain rfl := Option.some.inj found'
    obtain ⟨_, _, _, _, -, -, whole⟩ := completes_eq puts
    exact ⟨u.received, file, here, whole⟩

theorem backed_after (acts : List Act) : Backed env (after env cfg acts) := by
  have keeps : ∀ s act, Distinct s ∧ Backed env s → Distinct (step env cfg s act) ∧ Backed env (step env cfg s act) :=
    fun s act inv => ⟨step_distinct env cfg s act inv.1, step_backed env cfg act inv.1 inv.2⟩
  have empty : Distinct Store.empty ∧ Backed env Store.empty := ⟨List.nodup_nil, by simp [Backed, Store.empty]⟩
  exact (Run.run_always keeps acts empty).2

/-- The blob holds `bytes` until `time` at least, and `who` may read it. -/
structure Good (s : Store) (h : String) (bytes : Octets) (who : Principal) (time : Nat) (m : Meta) : Prop where
  found : s.blobs.lookup h = some m
  file : s.files.lookup h = some bytes
  size : m.size = bytes.length
  lasts : time ≤ m.expiresMs
  reads : m.ownedBy who = true ∨ who ∈ m.readers

theorem Meta.putAgain_expires (m : Meta) (me : Principal) (expires : Nat) :
    m.expiresMs ≤ (m.putAgain me expires).expiresMs := by
  unfold Meta.putAgain
  split
  · exact Nat.le_max_left _ _
  · exact le_rfl

variable {h : String} {who : Principal} {time : Nat} {m : Meta} {bytes : Octets}

/-- An operation before the expiry leaves the blob good, with no earlier expiry. -/
theorem step_good (distinct : Distinct s) (good : Good s h bytes who time m) (early : act.before time = true) :
    ∃ m', Good (step env cfg s act) h bytes who time m' ∧ m.expiresMs ≤ m'.expiresMs := by
  cases step_fate env cfg distinct act h with
  | kept blob file =>
    exact ⟨m, ⟨blob.trans good.found, file.trans good.file, good.size, good.lasts, good.reads⟩, le_rfl⟩
  | @dropped old now found at_ expired blob =>
    obtain rfl := Option.some.inj (good.found.symm.trans found)
    have before : now < time := by simpa [Act.before, at_] using early
    have lasts := good.lasts
    omega
  | @passed old giver receiver hashes found grants listed holds blob file =>
    obtain rfl := Option.some.inj (good.found.symm.trans found)
    exact ⟨_, ⟨blob, file.trans good.file, good.size, good.lasts, good.reads.imp id List.mem_insert_of_mem⟩, le_rfl⟩
  | @putAgain old now u found puts here live blob file =>
    obtain rfl := Option.some.inj (good.found.symm.trans found)
    have later := Meta.putAgain_expires m u.principal (u.expires now)
    exact ⟨_, ⟨blob, file.trans good.file, good.size, good.lasts.trans later,
      good.reads.imp id List.mem_insert_of_mem⟩, later⟩
  | @stored now u gone puts here blob file =>
    obtain ⟨_, _, _, _, rfl, -, -⟩ := completes_eq puts
    have expired := gone m good.found
    have before : now < time := by simpa [Act.before, Act.now] using early
    have lasts := good.lasts
    omega

theorem run_good (distinct : Distinct s) (acts : List Act) (good : Good s h bytes who time m)
    (early : ∀ act ∈ acts, act.before time = true) :
    ∃ m', Good (Run.run (step env cfg) s acts) h bytes who time m' ∧ m.expiresMs ≤ m'.expiresMs := by
  induction acts generalizing s m with
  | nil => exact ⟨m, good, le_rfl⟩
  | cons act acts ih =>
    obtain ⟨m₁, good₁, later₁⟩ := step_good env cfg distinct good (early act List.mem_cons_self)
    obtain ⟨m₂, good₂, later₂⟩ := ih (step_distinct env cfg s act distinct) good₁
      fun a listed => early a (List.mem_cons_of_mem _ listed)
    exact ⟨m₂, good₂, later₁.trans later₂⟩

theorem find_good (good : Good s h bytes who time m) (early : now < time) :
    find now who h s = (.ok m, s) := by
  have live : ¬ m.expiresMs ≤ now := by
    have lasts := good.lasts
    omega
  have may : m.mayRead who = true := by
    rcases good.reads with own | reader
    · simp [Meta.mayRead, own]
    · simp [Meta.mayRead, reader]
  simp [find, good.found, live, may]

theorem readSlice_good (file : files.lookup h = some bytes) (size : m.size = bytes.length) (offset len : Nat) :
    ∃ eof, readSlice m h offset len files = .ok (m.handle h, (bytes.drop offset).take (min len CHUNK), eof) ∧
      (eof = true ↔ offset + ((bytes.drop offset).take (min len CHUNK)).length ≥ bytes.length) := by
  let take := min (min len CHUNK) (bytes.length - offset)
  have taken : ((bytes.drop offset).take (min len CHUNK)).length = take := by simp [take]
  have whole : (bytes.drop offset).take (min len CHUNK) = slice bytes offset (offset + take) := by
    rw [slice, Nat.add_sub_cancel_left, List.take_eq_take_iff, List.length_drop]
    omega
  refine ⟨decide (offset + take ≥ bytes.length), ?_, by rw [taken, decide_eq_true_iff]⟩
  rw [whole]
  by_cases nothing : take = 0
  · have empty : slice bytes offset (offset + take) = [] := by
      rw [nothing, slice, Nat.add_zero, Nat.sub_self, List.take_zero]
    rw [empty]
    simp only [readSlice, size, take, if_pos nothing, pure_bind]
    rfl
  · have inside : offset + take ≤ bytes.length := by omega
    simp only [readSlice, size, take, if_neg nothing, bind_ok_iff, require_ok_iff, ensure_ok_iff, pure_ok_iff]
    exact ⟨bytes, file, (), inside, _, rfl, rfl⟩

theorem put_good {env : Env} (free : Function.Injective env.hash) (backed : Backed env s) {last : Bool}
    (put : (chunk env now owner upload offset data last s).1 = .ok (some handle)) :
    ∃ u m, completes s (.chunk now owner upload offset data last) = some (now, u) ∧
      handle = m.handle (env.hash u.received) ∧
      Good (chunk env now owner upload offset data last s).2 (env.hash u.received) u.received u.principal
        handle.expiresMs m := by
  obtain ⟨u, puts, uploads, same⟩ | ⟨-, never⟩ := chunk_cases env now owner upload offset data last s
  · rw [same] at put ⊢
    have returned := Option.some.inj (Except.ok.inj put)
    obtain ⟨_, _, _, _, -, -, whole⟩ := completes_eq puts
    obtain ⟨m, found, -, named, blob, file⟩ | ⟨-, named, blob, file⟩ :=
      commit_here env now upload u { s with uploads := uploads } rfl
    · -- merged: the bytes of the blob that was there are the bytes put
      obtain ⟨bytes, stored, hashed, sized⟩ := backed _ m found
      obtain rfl := free hashed
      rw [named] at returned
      exact ⟨u, _, puts, returned.symm, blob, file.trans stored, sized.symm, returned ▸ le_rfl,
        .inr List.mem_insert_self⟩
    · rw [named] at returned
      exact ⟨u, _, puts, returned.symm, blob, file, whole.symm, returned ▸ le_rfl,
        .inl (by simp [Meta.ownedBy, Upload.stored, Upload.principal])⟩
  · exact absurd put (never handle)

/-- A handle that `chunk` returned stays good: before its expiry the blob is there and a read of any range by
the principal that put the bytes returns them, also when more operations fall between the decision of `get` and
its read of the file. -/
theorem handle_stays_good {env : Env} (free : Function.Injective env.hash) (cfg : BlobConfig) (earlier : List Act)
    {now : Nat} {owner : String} {upload offset : Nat} {data : Octets} {last : Bool} {handle : BlobHandle}
    (put : (chunk env now owner upload offset data last (after env cfg earlier)).1 = .ok (some handle)) :
    ∃ u, completes (after env cfg earlier) (.chunk now owner upload offset data last) = some (now, u) ∧
      u.owner = owner ∧ handle.hash = env.hash u.received ∧ handle.size = u.received.length ∧
      ∀ later, (∀ act ∈ later, act.before handle.expiresMs = true) →
        ∃ s m, s = after env cfg (earlier ++ .chunk now owner upload offset data last :: later) ∧
          s.blobs.lookup handle.hash = some m ∧ handle.expiresMs ≤ m.expiresMs ∧
          (∀ more, (∀ act ∈ more, act.before m.expiresMs = true) →
            ∃ m', (Run.run (step env cfg) s more).blobs.lookup handle.hash = some m' ∧ m.expiresMs ≤ m'.expiresMs) ∧
          ∀ time < handle.expiresMs, find time (u.projectId, owner) handle.hash s = (.ok m, s) ∧
            ∀ meanwhile, (∀ act ∈ meanwhile, act.before handle.expiresMs = true) → ∀ start len,
              ∃ eof, readSlice m handle.hash start len (Run.run (step env cfg) s meanwhile).files =
                  .ok (m.handle handle.hash, (u.received.drop start).take (min len CHUNK), eof) ∧
                (eof = true ↔ start + ((u.received.drop start).take (min len CHUNK)).length ≥ u.received.length) := by
  obtain ⟨u, m, puts, rfl, good⟩ := put_good free (backed_after env cfg earlier) put
  obtain ⟨_, _, _, _, same, own, -⟩ := completes_eq puts
  obtain rfl : owner = u.owner := by
    rw [own]
    injection same
  refine ⟨u, puts, rfl, rfl, good.size, fun later early => ?_⟩
  have distinct := distinct_after env cfg (earlier ++ .chunk now u.owner upload offset data last :: later)
  have joined : after env cfg (earlier ++ .chunk now u.owner upload offset data last :: later) =
      Run.run (step env cfg) (chunk env now u.owner upload offset data last (after env cfg earlier)).2 later := by
    rw [after, Run.run_append, Run.run_cons]
    rfl
  have first := distinct_after env cfg (earlier ++ [.chunk now u.owner upload offset data last])
  rw [after, Run.run_append] at first
  obtain ⟨m', good', -⟩ := run_good env cfg first later good early
  refine ⟨_, m', joined.symm, good'.found, good'.lasts, fun more unexpired => ?_, fun time unexpired => ?_⟩
  · rw [joined] at distinct
    obtain ⟨m'', good'', later⟩ := run_good env cfg distinct more
      ⟨good'.found, good'.file, good'.size, le_rfl, good'.reads⟩ unexpired
    exact ⟨m'', good''.found, later⟩
  · refine ⟨find_good good' unexpired, fun meanwhile between start len => ?_⟩
    rw [joined] at distinct
    obtain ⟨_, good'', -⟩ := run_good env cfg distinct meanwhile good' between
    exact readSlice_good good''.file good'.size start len

def shared : List Act :=
  [.begin 0 "a" (some "p") "text/plain" 2 none, .chunk 1 "a" 1 0 [7, 8] true, .begin 5 "b" none "image/png" 2 none]

/-- The second one's handle has the first one's expiry, and what it promises is kept. -/
theorem handle_stays_good_shared :
    (chunk .written 6 "b" 2 0 [7, 8] true (after .written .default shared)).1 =
      .ok (some ⟨"0708", 2, "text/plain", 600001⟩) ∧
      ∃ s m, s = after .written .default (shared ++ [.chunk 6 "b" 2 0 [7, 8] true, .sweep 600000]) ∧
        find 600000 (none, "b") "0708" s = (.ok m, s) ∧
        ∃ eof, readSlice m "0708" 0 100 s.files = .ok (m.handle "0708", [7, 8], eof) := by
  have put : (chunk .written 6 "b" 2 0 [7, 8] true (after .written .default shared)).1 =
      .ok (some ⟨"0708", 2, "text/plain", 600001⟩) := by rfl
  obtain ⟨u, puts, -, -, -, promised⟩ := handle_stays_good hexEncode_injective .default shared put
  obtain ⟨s, m, rfl, -, -, -, reads⟩ := promised [.sweep 600000] (by decide)
  obtain rfl : u = ⟨"b", none, "image/png", 2, 600000, [7, 8], 6⟩ := by
    have known : completes (after .written .default shared) (.chunk 6 "b" 2 0 [7, 8] true) =
        some (6, ⟨"b", none, "image/png", 2, 600000, [7, 8], 6⟩) := by rfl
    exact (Prod.mk.inj (Option.some.inj (puts.symm.trans known))).2
  obtain ⟨decided, slices⟩ := reads 600000 (by decide)
  obtain ⟨eof, slice, -⟩ := slices [] (by simp) 0 100
  exact ⟨put, _, m, rfl, decided, eof, slice⟩

end Weftos.Blob.Handle
