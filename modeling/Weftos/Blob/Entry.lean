import Weftos.Blob.Content

/-! What an operation can do to the blob of one hash: leave it, drop it when it has expired,
let one more principal read it, merge a put of the same bytes into it, or store it anew. -/

namespace Weftos.Blob.Entry
open Lib Lib.Bytes Content Table

variable (hashes : List String) {s : Store} {u : Upload} {hash h : String}

def completes (s : Store) : Act → Option (Nat × Upload)
  | .chunk now owner upload offset data last =>
    match continues owner upload offset data last s with
    | .error _ => none
    | .ok u =>
      if last = true ∧ (u.append now data).received.length = u.size then some (now, u.append now data) else none
  | _ => none

theorem completes_eq (puts : completes s act = some (now, u)) :
    ∃ owner upload offset data, act = .chunk now owner upload offset data true ∧ u.owner = owner ∧
      u.received.length = u.size := by
  cases act with
  | chunk at_ owner upload offset data last =>
    cases accepted : continues owner upload offset data last s with
    | error refusal => simp [completes, accepted] at puts
    | ok v =>
      simp only [completes, accepted] at puts
      split at puts
      · next complete =>
        obtain ⟨rfl, whole⟩ := complete
        obtain ⟨rfl, rfl⟩ := Prod.mk.inj (Option.some.inj puts)
        obtain ⟨-, -, ⟨-, own⟩, -⟩ := continues_ok_iff.mp accepted
        exact ⟨owner, upload, offset, data, rfl, own, whole⟩
      · cases puts
  | begin | get | grant | sweep | dropUploads => simp [completes] at puts

def Distinct (s : Store) : Prop := (s.blobs.map (·.1)).Nodup

inductive Fate (env : Env) (s : Store) (act : Act) (h : String) (s' : Store) : Prop where
  | kept (blob : s'.blobs.lookup h = s.blobs.lookup h) (file : s'.files.lookup h = s.files.lookup h)
  | dropped (found : s.blobs.lookup h = some m) (time : act.now = some now)
      (expired : m.expiresMs ≤ now) (blob : s'.blobs.lookup h = none)
  | passed {hashes : List String} (found : s.blobs.lookup h = some m)
      (grants : act = .grant hashes giver receiver) (listed : h ∈ hashes)
      (holds : m.ownedBy giver = true ∨ giver ∈ m.readers)
      (blob : s'.blobs.lookup h = some { m with readers := m.readers.insert receiver })
      (file : s'.files.lookup h = s.files.lookup h)
  | putAgain {u : Upload} (found : s.blobs.lookup h = some m)
      (puts : completes s act = some (now, u)) (here : env.hash u.received = h) (live : now < m.expiresMs)
      (blob : s'.blobs.lookup h = some (m.putAgain u.principal (u.expires now)))
      (file : s'.files.lookup h = s.files.lookup h)
  | stored {u : Upload} (gone : ∀ m, s.blobs.lookup h = some m → m.expiresMs ≤ now)
      (puts : completes s act = some (now, u)) (here : env.hash u.received = h)
      (blob : s'.blobs.lookup h = some (u.stored now)) (file : s'.files.lookup h = some u.received)

/-! ### Dropping -/

theorem dropBlob_self (s : Store) (hash : String) : (dropBlob s hash).blobs.lookup hash = none := by
  unfold dropBlob
  split
  · exact lookup_remove_self s.blobs hash
  · next absent => exact Option.not_isSome_iff_eq_none.mp absent

theorem dropBlob_other (s : Store) (differ : h ≠ hash) :
    (dropBlob s hash).blobs.lookup h = s.blobs.lookup h ∧ (dropBlob s hash).files.lookup h = s.files.lookup h := by
  unfold dropBlob
  split
  · exact ⟨lookup_remove_of_ne _ differ, lookup_remove_of_ne _ differ⟩
  · exact ⟨rfl, rfl⟩

theorem dropBlobs_unlisted {hashes : List String} (s : Store) (unlisted : h ∉ hashes) :
    (hashes.foldl dropBlob s).blobs.lookup h = s.blobs.lookup h ∧
      (hashes.foldl dropBlob s).files.lookup h = s.files.lookup h := by
  induction hashes generalizing s with
  | nil => exact ⟨rfl, rfl⟩
  | cons hash hashes ih =>
    obtain ⟨differ, rest⟩ := List.ne_and_not_mem_of_not_mem_cons unlisted
    obtain ⟨blob, file⟩ := ih (dropBlob s hash) rest
    obtain ⟨blob', file'⟩ := dropBlob_other s differ
    exact ⟨blob.trans blob', file.trans file'⟩

theorem dropBlobs_listed {hashes : List String} (s : Store) (listed : h ∈ hashes) :
    (hashes.foldl dropBlob s).blobs.lookup h = none := by
  induction hashes generalizing s with
  | nil => exact absurd listed List.not_mem_nil
  | cons hash hashes ih =>
    by_cases again : h ∈ hashes
    · exact ih (dropBlob s hash) again
    · obtain rfl : h = hash := (List.mem_cons.mp listed).resolve_right again
      exact (dropBlobs_unlisted (dropBlob s h) again).1.trans (dropBlob_self s h)

theorem trims_distinct (trims : Trims s t) (distinct : Distinct s) : Distinct t := by
  induction trims with
  | refl => exact distinct
  | uploads _ _ ih => exact ih
  | drop hash _ ih =>
    unfold dropBlob
    split
    · exact nodup_filter ih _
    · exact ih
  | alter _ _ _ _ _ ih => exact nodup_insert ih _ _

section
variable {env : Env} {act : Act} {m : Meta} {giver : Principal}

theorem Fate.uploads (fate : Fate env s act h s') (uploads : List (Nat × Upload)) (next : Nat) :
    Fate env s act h { s' with uploads := uploads, next := next } := by
  cases fate with
  | kept blob file => exact .kept blob file
  | dropped found time expired blob => exact .dropped found time expired blob
  | passed found grants listed holds blob file => exact .passed found grants listed holds blob file
  | putAgain found puts here live blob file => exact .putAgain found puts here live blob file
  | stored gone puts here blob file => exact .stored gone puts here blob file

theorem dropExpired_fate (cfg : BlobConfig) (distinct : Distinct s) (time : act.now = some now) :
    Fate env s act h (dropExpired cfg now s) := by
  refine Fate.uploads ?_ _ _
  by_cases listed : h ∈ dead s now
  · obtain ⟨⟨_, m⟩, expired, rfl⟩ := List.mem_map.mp listed
    rw [List.mem_filter] at expired
    have found := lookup_of_mem distinct expired.1
    exact .dropped found time (by simpa using expired.2) (dropBlobs_listed s listed)
  · obtain ⟨blob, file⟩ := dropBlobs_unlisted s listed
    exact .kept blob file

theorem find_fate (reader : Principal) (hash : String) (time : act.now = some now) :
    Fate env s act h (find now reader hash s).2 := by
  unfold find
  split
  · exact .kept rfl rfl
  · next m found =>
    split
    · next expired =>
      by_cases same : h = hash
      · subst same
        exact .dropped found time expired (dropBlob_self s h)
      · obtain ⟨blob, file⟩ := dropBlob_other s same
        exact .kept blob file
    · split <;> exact .kept rfl rfl

/-! ### Putting -/

theorem dropIfExpired_other (now : Nat) (differ : h ≠ hash) :
    (dropIfExpired now hash s).blobs.lookup h = s.blobs.lookup h ∧
      (dropIfExpired now hash s).files.lookup h = s.files.lookup h := by
  unfold dropIfExpired
  split
  · exact dropBlob_other s differ
  · exact ⟨rfl, rfl⟩

theorem dropIfExpired_live (found : s.blobs.lookup h = some m) (live : now < m.expiresMs) :
    dropIfExpired now h s = s := by
  simp [dropIfExpired, found, live]

theorem dropIfExpired_gone (gone : ∀ m, s.blobs.lookup h = some m → m.expiresMs ≤ now) :
    (dropIfExpired now h s).blobs.lookup h = none := by
  unfold dropIfExpired
  split
  · exact dropBlob_self s h
  · next fresh =>
    cases found : s.blobs.lookup h with
    | none => rfl
    | some m => simp [found, gone m found] at fresh

theorem deposit_other (now : Nat) (u : Upload) (differ : h ≠ hash) :
    (deposit now hash u s).2.blobs.lookup h = s.blobs.lookup h ∧
      (deposit now hash u s).2.files.lookup h = s.files.lookup h := by
  unfold deposit
  split
  · exact ⟨lookup_insert_other _ _ differ, rfl⟩
  · exact ⟨lookup_insert_other _ _ differ, lookup_insert_other _ _ differ⟩

theorem commit_here (env : Env) (now upload : Nat) (u : Upload) (s : Store) (here : env.hash u.received = h) :
    (∃ m, s.blobs.lookup h = some m ∧ now < m.expiresMs ∧
      (commit env now upload u s).1 = (m.putAgain u.principal (u.expires now)).handle h ∧
      (commit env now upload u s).2.blobs.lookup h = some (m.putAgain u.principal (u.expires now)) ∧
      (commit env now upload u s).2.files.lookup h = s.files.lookup h) ∨
    ((∀ m, s.blobs.lookup h = some m → m.expiresMs ≤ now) ∧
      (commit env now upload u s).1 = (u.stored now).handle h ∧
      (commit env now upload u s).2.blobs.lookup h = some (u.stored now) ∧
      (commit env now upload u s).2.files.lookup h = some u.received) := by
  let closed : Store := { s with uploads := remove s.uploads upload }
  have unfolded : commit env now upload u s = deposit now h u (dropIfExpired now h closed) := by
    rw [← here]
    rfl
  rw [unfolded]
  by_cases live : ∃ m, s.blobs.lookup h = some m ∧ now < m.expiresMs
  · obtain ⟨m, found, live⟩ := live
    left
    rw [dropIfExpired_live (s := closed) found live]
    exact ⟨m, found, live, by simp [deposit, closed, found]⟩
  · have gone : ∀ m, s.blobs.lookup h = some m → m.expiresMs ≤ now := by
      intro m found
      by_contra later
      exact live ⟨m, found, Nat.lt_of_not_le later⟩
    right
    exact ⟨gone, by simp [deposit, dropIfExpired_gone (s := closed) gone]⟩

theorem commit_other (now upload : Nat) (u : Upload) (differ : h ≠ env.hash u.received) :
    (commit env now upload u s).2.blobs.lookup h = s.blobs.lookup h ∧
      (commit env now upload u s).2.files.lookup h = s.files.lookup h := by
  obtain ⟨blob, file⟩ := dropIfExpired_other (s := { s with uploads := remove s.uploads upload }) now differ
  obtain ⟨blob', file'⟩ := deposit_other (s := dropIfExpired now (env.hash u.received)
    { s with uploads := remove s.uploads upload }) now u differ
  exact ⟨blob'.trans blob, file'.trans file⟩

theorem chunk_cases (env : Env) (now : Nat) (owner : String) (upload offset : Nat) (data : Octets) (last : Bool)
    (s : Store) :
    (∃ u, completes s (.chunk now owner upload offset data last) = some (now, u) ∧
      ∃ uploads, chunk env now owner upload offset data last s =
        (.ok (some (commit env now upload u { s with uploads := uploads }).1),
          (commit env now upload u { s with uploads := uploads }).2)) ∨
    (∃ uploads, (chunk env now owner upload offset data last s).2 = { s with uploads := uploads }) ∧
      ∀ handle, (chunk env now owner upload offset data last s).1 ≠ .ok (some handle) := by
  cases accepted : continues owner upload offset data last s with
  | error refusal =>
    right
    exact ⟨⟨s.uploads, by simp [chunk, accepted]⟩, by simp [chunk, accepted]⟩
  | ok u =>
    let appended := insert s.uploads upload (u.append now data)
    by_cases complete : last = true ∧ (u.append now data).received.length = u.size
    · left
      refine ⟨u.append now data, by simp only [completes, accepted, if_pos complete], appended, ?_⟩
      obtain ⟨rfl, whole⟩ := complete
      have whole : ¬ (u.append now data).received.length ≠ (u.append now data).size := not_not_intro whole
      simp only [chunk, accepted, Bool.true_eq_false, if_false, if_neg whole, appended]
    · right
      have pending : (chunk env now owner upload offset data last s).2 = { s with uploads := appended } ∧
          ∀ handle, (chunk env now owner upload offset data last s).1 ≠ .ok (some handle) := by
        cases last with
        | true =>
          have short : (u.append now data).received.length ≠ (u.append now data).size :=
            fun whole => complete ⟨rfl, whole⟩
          simp [chunk, accepted, short, appended]
        | false => simp [chunk, accepted, appended]
      exact ⟨⟨appended, pending.1⟩, pending.2⟩

theorem chunk_fate (env : Env) (now : Nat) (owner : String) (upload offset : Nat) (data : Octets) (last : Bool) :
    Fate env s (.chunk now owner upload offset data last) h (chunk env now owner upload offset data last s).2 := by
  obtain ⟨u, puts, uploads, same⟩ | ⟨⟨uploads, same⟩, -⟩ := chunk_cases env now owner upload offset data last s
  · rw [same]
    by_cases here : env.hash u.received = h
    · obtain ⟨m, found, live, -, blob, file⟩ | ⟨gone, -, blob, file⟩ :=
        commit_here env now upload u { s with uploads := uploads } here
      · exact .putAgain found puts here live blob file
      · exact .stored gone puts here blob file
    · obtain ⟨blob, file⟩ := commit_other (s := { s with uploads := uploads }) now upload u (Ne.symm here)
      exact .kept blob file
  · rw [same]
    exact .kept rfl rfl

/-! ### Passing on -/

theorem passOn_other (giver receiver : Principal) (s : Store) (differ : h ≠ hash) :
    (passOn giver receiver s hash).blobs.lookup h = s.blobs.lookup h := by
  unfold passOn
  split
  · rfl
  · split
    · exact lookup_insert_other _ _ differ
    · rfl

theorem passOn_files (giver receiver : Principal) (s : Store) (hash : String) :
    (passOn giver receiver s hash).files = s.files := by
  unfold passOn
  split
  · rfl
  · split <;> rfl

theorem passOn_here (found : s.blobs.lookup h = some m) : (passOn giver receiver s h).blobs.lookup h =
      some (if m.ownedBy giver = true ∨ giver ∈ m.readers then { m with readers := m.readers.insert receiver }
        else m) := by
  by_cases holds : m.ownedBy giver = true ∨ giver ∈ m.readers
  · simp [passOn, found, holds]
  · simp [passOn, found, holds]

theorem grant_files (giver receiver : Principal) (s : Store) :
    (grant hashes giver receiver s).files = s.files := by
  unfold grant
  induction hashes generalizing s with
  | nil => rfl
  | cons hash hashes ih => exact (ih (passOn giver receiver s hash)).trans (passOn_files giver receiver s hash)

theorem grant_here (receiver : Principal) (hashes : List String) (found : s.blobs.lookup h = some m)
    (holds : m.ownedBy giver = true ∨ giver ∈ m.readers) :
    (grant hashes giver receiver s).blobs.lookup h =
      some (if h ∈ hashes then { m with readers := m.readers.insert receiver } else m) := by
  unfold grant
  induction hashes generalizing s m with
  | nil => simpa using found
  | cons hash hashes ih =>
    by_cases same : h = hash
    · subst same
      have passed : (passOn giver receiver s h).blobs.lookup h =
        some { m with readers := m.readers.insert receiver } := by
        rw [passOn_here found, if_pos holds]
      have still : ({ m with readers := m.readers.insert receiver } : Meta).ownedBy giver = true ∨
          giver ∈ m.readers.insert receiver := holds.imp id List.mem_insert_of_mem
      rw [List.foldl_cons, ih passed still]
      simp
    · rw [List.foldl_cons, ih ((passOn_other giver receiver s same).trans found) holds]
      simp [same]

theorem grant_withheld (withheld : ∀ m, s.blobs.lookup h = some m → ¬ (m.ownedBy giver = true ∨ giver ∈ m.readers)) :
    (grant hashes giver receiver s).blobs.lookup h = s.blobs.lookup h := by
  unfold grant
  induction hashes generalizing s with
  | nil => rfl
  | cons hash hashes ih =>
    have untouched : (passOn giver receiver s hash).blobs.lookup h = s.blobs.lookup h := by
      by_cases same : h = hash
      · subst same
        cases found : s.blobs.lookup h with
        | none => simp [passOn, found]
        | some m => rw [passOn_here found, if_neg (withheld m found)]
      · exact passOn_other giver receiver s same
    exact (ih (untouched.symm ▸ withheld)).trans untouched

theorem grant_fate (giver receiver : Principal) :
    Fate env s (.grant hashes giver receiver) h (grant hashes giver receiver s) := by
  have file : (grant hashes giver receiver s).files.lookup h = s.files.lookup h := by rw [grant_files]
  by_cases holds : ∃ m, s.blobs.lookup h = some m ∧ (m.ownedBy giver = true ∨ giver ∈ m.readers)
  · obtain ⟨m, found, holds⟩ := holds
    have blob := grant_here receiver hashes found holds
    by_cases listed : h ∈ hashes
    · rw [if_pos listed] at blob
      exact .passed found rfl listed holds blob file
    · rw [if_neg listed] at blob
      exact .kept (blob.trans found.symm) file
  · push Not at holds
    exact .kept (grant_withheld hashes fun m found either => either.elim (holds m found).1 (holds m found).2) file

end

/-! ### Every operation -/

theorem find_get (now : Nat) (reader : Principal) (hash : String) (offset len : Nat) (s : Store) :
    (Content.get now reader hash offset len s).2 = (find now reader hash s).2 := by
  unfold Content.get
  split
  · next here => rw [here]
  · next here => rw [here]

theorem begin_fate (env : Env) (cfg : BlobConfig) (distinct : Distinct s) (h : String) (now : Nat) (owner : String)
    (project : Option String) (mediaType : String) (size : Nat) (ttlMs : Option Nat) :
    Fate env s (.begin now owner project mediaType size ttlMs) h
      (begin env cfg now owner project mediaType size ttlMs s).2 := by
  unfold begin
  split
  · exact .kept rfl rfl
  · have swept : Fate env s (.begin now owner project mediaType size ttlMs) h (dropExpired cfg now s) :=
      dropExpired_fate cfg distinct rfl
    dsimp only
    split
    · exact swept
    · exact swept.uploads _ _

theorem step_fate (env : Env) (cfg : BlobConfig) (distinct : Distinct s) (act : Act) (h : String) :
    Fate env s act h (step env cfg s act) := by
  cases act with
  | begin now owner project mediaType size ttlMs =>
    exact begin_fate env cfg distinct h now owner project mediaType size ttlMs
  | chunk now owner upload offset data last => exact chunk_fate env now owner upload offset data last
  | get now reader hash =>
    simp only [step, find_get]
    exact find_fate reader hash rfl
  | grant hashes giver receiver => exact grant_fate hashes giver receiver
  | sweep now => exact dropExpired_fate cfg distinct rfl
  | dropUploads owner => exact .kept rfl rfl

theorem commit_distinct (distinct : Distinct s) : Distinct (commit env now upload u s).2 := by
  have cleared := trims_distinct (dropIfExpired_trims now (env.hash u.received) (.uploads (·.1 != upload) .refl))
    distinct
  unfold commit deposit
  dsimp only
  split
  · exact nodup_insert cleared _ _
  · exact nodup_insert cleared _ _

theorem step_distinct (env : Env) (cfg : BlobConfig) (s : Store) (act : Act) (distinct : Distinct s) :
    Distinct (step env cfg s act) := by
  cases act with
  | begin now =>
    have swept := trims_distinct (dropExpired_trims cfg now s) distinct
    simp only [step, begin]
    split
    · exact distinct
    · split
      · exact swept
      · exact swept
  | chunk now owner upload offset data last =>
    obtain ⟨u, -, uploads, same⟩ | ⟨⟨uploads, same⟩, -⟩ := chunk_cases env now owner upload offset data last s
    · simp only [step, same]
      exact commit_distinct distinct
    · simp only [step, same]
      exact distinct
  | get => exact trims_distinct (get_trims ..) distinct
  | grant => exact trims_distinct (grant_trims ..) distinct
  | sweep => exact trims_distinct (dropExpired_trims ..) distinct
  | dropUploads => exact distinct

theorem distinct_after (env : Env) (cfg : BlobConfig) (acts : List Act) : Distinct (after env cfg acts) :=
  Run.run_always (step_distinct env cfg) acts List.nodup_nil

end Weftos.Blob.Entry
