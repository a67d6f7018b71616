import Weftos.Blob.Content

/-! The quotas of the content store. An accepted `begin`, which checks every quota, is the only operation that
raises a sum. The sums of the source are `u64`s; they are exact as long as the node's quota and the largest blob
together stay below `2 ^ 64`, as the default ones do. -/

namespace Weftos.Blob.Quota
open Lib Lib.Bytes Lib.Outcome Content Table

variable (counts : String → Option String → Bool) (env : Env) (cfg : BlobConfig) (now : Nat) (hash : String)
  {s : Store} {upload : Nat} {u : Upload}

structure Shrinks (s s' : Store) : Prop where
  bytes : ∀ counts, held counts s' ≤ held counts s
  uploads : ∀ owner, openUploads owner s' ≤ openUploads owner s

theorem Shrinks.refl (s : Store) : Shrinks s s := ⟨fun _ => le_rfl, fun _ => le_rfl⟩

theorem Shrinks.trans {t u : Store} (first : Shrinks s t) (second : Shrinks t u) : Shrinks s u where
  bytes counts := (second.bytes counts).trans (first.bytes counts)
  uploads owner := (second.uploads owner).trans (first.uploads owner)

theorem openUploads_eq_tally (owner : String) (s : Store) :
    openUploads owner s = tally (fun u : Upload => u.owner == owner) (fun _ => 1) s.uploads := by
  simp [openUploads, tally]

theorem Shrinks.of_blobs (same : s'.uploads = s.uploads)
    (fewer : ∀ counts, stored counts s' ≤ stored counts s) : Shrinks s s' where
  bytes counts := by
    have alike : reserved counts s' = reserved counts s := by rw [reserved, same, reserved]
    have less := fewer counts
    rw [held, held, alike]
    omega
  uploads owner := by rw [openUploads, openUploads, same]

theorem filtered_uploads_shrinks (s : Store) (keep : Nat × Upload → Bool) :
    Shrinks s { s with uploads := s.uploads.filter keep } where
  bytes counts := Nat.add_le_add_left (tally_filter_le s.uploads keep) _
  uploads owner := by
    rw [openUploads_eq_tally, openUploads_eq_tally]
    exact tally_filter_le s.uploads keep

theorem stored_dropBlob_le (s : Store) (hash : String) :
    stored counts (dropBlob s hash) ≤ stored counts s := by
  unfold dropBlob
  split
  · exact tally_filter_le s.blobs _
  · exact le_rfl

theorem shrinks_of_trims (trims : Trims s t) : Shrinks s t := by
  induction trims with
  | refl => exact .refl s
  | uploads keep _ ih => exact ih.trans (filtered_uploads_shrinks _ keep)
  | @drop t hash _ ih =>
    exact ih.trans (.of_blobs (dropBlob_uploads t hash) fun counts => stored_dropBlob_le counts t hash)
  | @alter t _ _ m' found size owner project _ ih =>
    exact ih.trans (.of_blobs rfl fun _ => tally_replace_le m' found (by rw [owner, project]) size)

theorem appended_shrinks (data : Octets) (found : s.uploads.lookup upload = some u) :
    Shrinks s { s with uploads := insert s.uploads upload (u.append now data) } where
  bytes _ := Nat.add_le_add_left (tally_replace_le (u.append now data) found rfl rfl) _
  uploads owner := by
    rw [openUploads_eq_tally, openUploads_eq_tally]
    exact tally_replace_le (u.append now data) found rfl rfl

def weight (counts : String → Option String → Bool) (u : Upload) : Nat :=
  if counts u.owner u.projectId then u.size else 0

theorem held_deposit_le (u : Upload) (s : Store) :
    held counts (deposit now hash u s).2 ≤ held counts s + weight counts u := by
  unfold deposit
  split
  · next m there =>
    have merged : Trims s { s with blobs := insert s.blobs hash (m.putAgain u.principal (u.expires now)) } :=
      .alter there rfl rfl rfl .refl
    exact ((shrinks_of_trims merged).bytes counts).trans (Nat.le_add_right _ _)
  · have added : stored counts { s with blobs := insert s.blobs hash (u.stored now) } ≤
        stored counts s + weight counts u := tally_insert_le s.blobs hash (u.stored now)
    calc held counts { s with blobs := insert s.blobs hash (u.stored now) }
        ≤ stored counts s + weight counts u + reserved counts s := Nat.add_le_add_right added _
      _ = held counts s + weight counts u := Nat.add_right_comm _ _ _

theorem commit_shrinks (found : s.uploads.lookup upload = some u) :
    Shrinks s (commit env now upload u s).2 := by
  let closed : Store := { s with uploads := remove s.uploads upload }
  have drops : Trims closed (dropIfExpired now (env.hash u.received) closed) := dropIfExpired_trims _ _ .refl
  have closes := filtered_uploads_shrinks s (·.1 != upload)
  constructor
  · intro counts
    have freed : held counts closed + weight counts u ≤ held counts s := by
      rw [held, Nat.add_assoc]
      exact Nat.add_le_add_left (tally_remove_found found) (stored counts s)
    calc held counts (commit env now upload u s).2
        ≤ held counts (dropIfExpired now (env.hash u.received) closed) + weight counts u := held_deposit_le ..
      _ ≤ held counts closed + weight counts u := Nat.add_le_add_right ((shrinks_of_trims drops).bytes counts) _
      _ ≤ held counts s := freed
  · intro owner
    rw [openUploads, commit, deposit_uploads]
    exact (closes.trans (shrinks_of_trims drops)).uploads owner

theorem chunk_shrinks (owner : String) (upload offset : Nat) (data : Octets) (last : Bool) (s : Store) :
    Shrinks s (chunk env now owner upload offset data last s).2 := by
  unfold chunk
  split
  · exact .refl s
  · next u accepted =>
    have appended := appended_shrinks now data ((continues_ok_iff.mp accepted).2.2.1.1)
    dsimp only
    split
    · exact appended
    · split
      · exact appended
      · exact appended.trans (commit_shrinks env now (lookup_insert_self ..))

/-! ### The quotas -/

structure Quotas (cfg : BlobConfig) (s : Store) : Prop where
  node : held node s ≤ cfg.quotaBytes
  perInstance : ∀ owner, held (ofInstance owner) s ≤ cfg.perInstanceBytes
  perProject : ∀ project, held (ofProject project) s ≤ cfg.perProjectBytes
  uploads : ∀ owner, openUploads owner s ≤ cfg.maxUploadsPerInstance

theorem quotas_empty : Quotas cfg Store.empty where
  node := Nat.zero_le _
  perInstance _ := Nat.zero_le _
  perProject _ := Nat.zero_le _
  uploads _ := Nat.zero_le _

theorem Quotas.shrinks {cfg : BlobConfig} {s' : Store} (quotas : Quotas cfg s) (fewer : Shrinks s s') :
    Quotas cfg s' where
  node := (fewer.bytes _).trans quotas.node
  perInstance owner := (fewer.bytes _).trans (quotas.perInstance owner)
  perProject project := (fewer.bytes _).trans (quotas.perProject project)
  uploads owner := (fewer.uploads owner).trans (quotas.uploads owner)

def reserve (s : Store) (u : Upload) : Store :=
  { s with next := s.next + 1, uploads := insert s.uploads (s.next + 1) u }

theorem held_reserve_le {counts : String → Option String → Bool} (within : held counts s ≤ limit)
    (room : counts u.owner u.projectId = true → held counts s + u.size ≤ limit) :
    held counts (reserve s u) ≤ limit := by
  have raised : held counts (reserve s u) ≤ held counts s + weight counts u := by
    rw [held, held, Nat.add_assoc]
    exact Nat.add_le_add_left (tally_insert_le s.uploads (s.next + 1) u) _
  by_cases counted : counts u.owner u.projectId = true
  · have whole : weight counts u = u.size := if_pos counted
    exact raised.trans (whole ▸ room counted)
  · have nothing : weight counts u = 0 := if_neg counted
    exact raised.trans (nothing ▸ within)

theorem openUploads_reserve_le (within : openUploads owner s ≤ limit)
    (room : u.owner = owner → openUploads owner s < limit) : openUploads owner (reserve s u) ≤ limit := by
  have raised : openUploads owner (reserve s u) ≤ openUploads owner s + if u.owner == owner then 1 else 0 := by
    rw [openUploads_eq_tally, openUploads_eq_tally]
    exact tally_insert_le s.uploads (s.next + 1) u
  by_cases own : u.owner = owner
  · have free := room own
    simp only [own, beq_self_eq_true, if_true] at raised
    omega
  · have other : (u.owner == owner) = false := by simpa using own
    simp only [other, Bool.false_eq_true, if_false] at raised
    omega

theorem begin_quotas {cfg : BlobConfig} (owner : String) (project : Option String) (mediaType : String) (size : Nat)
    (ttlMs : Option Nat) (quotas : Quotas cfg s) :
    Quotas cfg (begin env cfg now owner project mediaType size ttlMs s).2 := by
  unfold begin
  split
  · exact quotas
  · next ttl _ =>
    have swept : Quotas cfg (dropExpired cfg now s) := quotas.shrinks (shrinks_of_trims (dropExpired_trims cfg now s))
    dsimp only
    split
    · exact swept
    · next admitted =>
      generalize dropExpired cfg now s = s at swept admitted
      simp only [fits, bind_ok_iff, ensure_ok_iff] at admitted
      obtain ⟨-, room, -, inNode, -, inInstance, inProject⟩ := admitted
      let u : Upload := ⟨owner, project, mediaType, size, ttl, [], now⟩
      constructor
      · exact held_reserve_le swept.node fun _ => inNode
      · intro other
        refine held_reserve_le (swept.perInstance other) fun counted => ?_
        obtain rfl : owner = other := by simpa [ofInstance] using counted
        exact inInstance
      · intro other
        refine held_reserve_le (swept.perProject other) fun counted => ?_
        obtain rfl : project = other := by simpa [ofProject] using counted
        exact inProject
      · intro other
        exact openUploads_reserve_le (swept.uploads other) fun own => own ▸ room

theorem step_quotas (s : Store) (act : Act) (quotas : Quotas cfg s) :
    Quotas cfg (step env cfg s act) := by
  cases act with
  | begin now owner project mediaType size ttlMs => exact begin_quotas env now owner project mediaType size ttlMs quotas
  | chunk => exact quotas.shrinks (chunk_shrinks ..)
  | get => exact quotas.shrinks (shrinks_of_trims (get_trims ..))
  | grant => exact quotas.shrinks (shrinks_of_trims (grant_trims ..))
  | sweep => exact quotas.shrinks (shrinks_of_trims (dropExpired_trims ..))
  | dropUploads owner => exact quotas.shrinks (filtered_uploads_shrinks s _)

theorem held_le_node (s : Store) : held counts s ≤ held node s :=
  Nat.add_le_add (tally_le_all s.blobs) (tally_le_all s.uploads)

/-- No sum that `begin` makes of what is held and what is asked for leaves the range of a `u64`. -/
theorem sums_in_range (bounded : cfg.quotaBytes + cfg.maxBlobBytes < 2 ^ 64) (acts : List Act)
    (asked : size ≤ cfg.maxBlobBytes) : held counts (after env cfg acts) + size < 2 ^ 64 := by
  have quotas : Quotas cfg (after env cfg acts) := Run.run_always (step_quotas env cfg) acts (quotas_empty cfg)
  have counted := (held_le_node counts (after env cfg acts)).trans quotas.node
  omega

example : BlobConfig.default.quotaBytes + BlobConfig.default.maxBlobBytes < 2 ^ 64 := by decide

/-- Whatever operations came, with whatever clock values, every quota holds. -/
theorem quotas_hold (env : Env) (cfg : BlobConfig) (acts : List Act) :
    held node (after env cfg acts) ≤ cfg.quotaBytes ∧
      (∀ owner, held (ofInstance owner) (after env cfg acts) ≤ cfg.perInstanceBytes) ∧
      (∀ project, held (ofProject project) (after env cfg acts) ≤ cfg.perProjectBytes) ∧
      ∀ owner, openUploads owner (after env cfg acts) ≤ cfg.maxUploadsPerInstance := by
  have quotas : Quotas cfg (after env cfg acts) := Run.run_always (step_quotas env cfg) acts (quotas_empty cfg)
  exact ⟨quotas.node, quotas.perInstance, quotas.perProject, quotas.uploads⟩

end Weftos.Blob.Quota
