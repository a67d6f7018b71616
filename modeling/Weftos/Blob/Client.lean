import Weftos.Blob.Gated
import Weftos.Blob.Handle

/-! A client puts bytes chunk by chunk and reads them back slice by slice (`get_blob` of
`weftos-cogbus/src/client.rs`), through the broker and its gate. -/

namespace Weftos.Blob.Client
open Lib Lib.Bytes Bus.Types Content Entry Handle Table
open Function (update update_self update_of_ne)

section
variable (env : Env) (cfg : BlobConfig) {s t : Store} {chunks : Nat → List Octets}

/-! ### What an upload has received -/

/-- The chunks that the store takes in for each upload since it was begun. -/
def noted (s : Store) (chunks : Nat → List Octets) : Act → Nat → List Octets
  | .begin now owner project mediaType size ttlMs =>
    match (begin env cfg now owner project mediaType size ttlMs s).1 with
    | .ok id => update chunks id []
    | .error _ => chunks
  | .chunk _ owner upload offset data last =>
    match continues owner upload offset data last s with
    | .ok _ => update chunks upload (chunks upload ++ [data])
    | .error _ => chunks
  | _ => chunks

def taken : Store → (Nat → List Octets) → List Act → Nat → List Octets
  | _, chunks, [] => chunks
  | s, chunks, act :: acts => taken (step env cfg s act) (noted env cfg s chunks act) acts

def Filled (s : Store) (chunks : Nat → List Octets) : Prop := ∀ e ∈ s.uploads, e.2.received = (chunks e.1).flatten

theorem Filled.trims (filled : Filled s chunks) (trims : Trims s t) : Filled t chunks := by
  induction trims with
  | refl => exact filled
  | uploads _ _ ih => exact fun e listed => ih e (List.mem_filter.mp listed).1
  | drop hash _ ih => exact fun e listed => ih e (dropBlob_uploads _ hash ▸ listed)
  | alter _ _ _ _ _ ih => exact ih

theorem Filled.insert {upload : Nat} {u : Upload} {bytes : List Octets} (filled : Filled s chunks)
    (same : u.received = bytes.flatten) (listed : e ∈ Table.insert s.uploads upload u) :
    e.2.received = (update chunks upload bytes e.1).flatten := by
  obtain old | new := List.mem_append.mp listed
  · obtain ⟨there, other⟩ := List.mem_filter.mp old
    rw [update_of_ne (by simpa using other)]
    exact filled e there
  · obtain rfl := List.mem_singleton.mp new
    rw [update_self]
    exact same

theorem step_filled (filled : Filled s chunks) (act : Act) :
    Filled (step env cfg s act) (noted env cfg s chunks act) := by
  cases act with
  | begin now owner project mediaType size ttlMs =>
    have swept := filled.trims (dropExpired_trims cfg now s)
    cases admitted : admissible env cfg mediaType size ttlMs with
    | error refusal =>
      simp only [step, noted, begin, admitted]
      exact filled
    | ok ttl =>
      cases room : fits cfg owner project size (dropExpired cfg now s) with
      | error refusal =>
        simp only [step, noted, begin, admitted, room]
        exact swept
      | ok _ =>
        simp only [step, noted, begin, admitted, room]
        exact fun e listed => swept.insert rfl listed
  | chunk now owner upload offset data last =>
    cases accepted : continues owner upload offset data last s with
    | error refusal =>
      simp only [step, noted, chunk, accepted]
      exact filled
    | ok u =>
      have appended : Filled { s with uploads := Table.insert s.uploads upload (u.append now data) }
          (update chunks upload (chunks upload ++ [data])) := by
        refine fun e listed => filled.insert ?_ listed
        rw [List.flatten_append, ← filled _ (mem_of_lookup (continues_ok_iff.mp accepted).2.2.1.1),
          List.flatten_singleton]
        rfl
      simp only [step, noted, chunk, accepted]
      split_ifs
      · exact appended
      · exact appended
      · intro e listed
        rw [commit, deposit_uploads] at listed
        exact appended.trims (dropIfExpired_trims _ _ (.uploads (·.1 != upload) .refl)) e listed
  | get => exact filled.trims (get_trims ..)
  | grant => exact filled.trims (grant_trims ..)
  | sweep => exact filled.trims (dropExpired_trims ..)
  | dropUploads => exact filled.trims (.uploads _ .refl)

theorem run_filled (filled : Filled s chunks) (acts : List Act) :
    Filled (Run.run (step env cfg) s acts) (taken env cfg s chunks acts) := by
  induction acts generalizing s chunks with
  | nil => exact filled
  | cons act acts ih => exact ih (step_filled env cfg filled act)

/-- The bytes of a completed put are the chunks that the store took in for its upload, one after the other. -/
theorem completes_taken {earlier : List Act} {now : Nat} {owner : String} {upload offset : Nat} {data : Octets}
    {last : Bool} {u : Upload}
    (puts : completes (after env cfg earlier) (.chunk now owner upload offset data last) = some (time, u)) :
    ∃ v, (after env cfg earlier).uploads.lookup upload = some v ∧ u.principal = v.principal ∧ v.owner = owner ∧
      u.received = (taken env cfg .empty (fun _ => []) earlier upload ++ [data]).flatten := by
  cases accepted : continues owner upload offset data last (after env cfg earlier) with
  | error refusal => simp [completes, accepted] at puts
  | ok v =>
    obtain ⟨-, -, ⟨found, own⟩, -⟩ := continues_ok_iff.mp accepted
    simp only [completes, accepted] at puts
    split at puts
    · obtain ⟨-, rfl⟩ := Prod.mk.inj (Option.some.inj puts)
      have start : Filled .empty fun _ => [] := List.forall_mem_nil _
      refine ⟨v, found, rfl, own, ?_⟩
      rw [List.flatten_append, ← run_filled env cfg start earlier _ (mem_of_lookup found), List.flatten_singleton]
      rfl
    · cases puts

/-! ### Reading a whole blob -/

/-- A request of `get_blob` as the broker finds it: what others asked of the store before it, the gate and the cog of
the instance then, the time, and what the mesh says of a blob that is not here. -/
structure Turn where
  others : List Act
  policy : BusPolicy
  spec : Except BusError String
  now : Nat
  miss : Option BusError

/-- What `blob_get` asks before the first slice. -/
def Turn.asks (t : Turn) (who : Principal) (h : String) : Except BusError Unit := do
  let cog ← t.spec
  t.policy.gate ⟨.blobGet, who.2, cog, who.1, Bus.Source.blobTopic h, "blob.v1", none⟩

/-- The loop of `get_blob`. There is no answer when the requests run out. -/
def getBlob (who : Principal) (h : String) : Gated.State → Octets → List Turn → Option (Except BusError Octets)
  | _, _, [] => none
  | s, out, t :: turns =>
    let found : Gated.State := { s with store := Run.run (step env cfg) s.store t.others }
    match found.blobGet t.policy t.spec t.now who h out.length none t.miss with
    | (.error e, _) => some (.error e)
    | (.ok (_, bytes, eof), s) =>
      if eof || bytes.isEmpty then some (.ok (out ++ bytes)) else getBlob who h s (out ++ bytes) turns

variable {h : String} {who : Principal} {time : Nat} {m : Meta} {out rest : Octets} {b : Gated.State} {t : Turn}

/-- Past what the broker asks first, the first request is a read. -/
theorem blobGet_first (who : Principal) (h : String) (b : Gated.State) (t : Turn) :
    (∃ refusal b', t.asks who h = .error refusal ∧
      b.blobGet t.policy t.spec t.now who h 0 none t.miss = (.error refusal, b')) ∨
    t.asks who h = .ok () ∧ b.blobGet t.policy t.spec t.now who h 0 none t.miss =
      (b.note (.asked (.session who) h true)).read t.now who h 0 none t.miss := by
  unfold Turn.asks Gated.State.blobGet
  rw [if_pos rfl]
  cases t.spec with
  | error e => exact .inl ⟨e, b, rfl, rfl⟩
  | ok cog =>
    dsimp only [bind, Except.bind]
    cases t.policy.gate ⟨.blobGet, who.2, cog, who.1, Bus.Source.blobTopic h, "blob.v1", none⟩ with
    | error e => exact .inl ⟨e, _, rfl, rfl⟩
    | ok _ => exact .inr ⟨rfl, rfl⟩

theorem getBlob_refused (turns : List Turn) (refused : t.asks who h = .error refusal) :
    getBlob env cfg who h b [] (t :: turns) = some (.error refusal) := by
  obtain ⟨_, b', asked, answered⟩ | ⟨asked, -⟩ :=
    blobGet_first who h { b with store := Run.run (step env cfg) b.store t.others } t
  · cases refused.symm.trans asked
    simp only [getBlob, List.length_nil, answered]
  · cases refused.symm.trans asked

/-- Past the gate, a request reads the next chunk of a good blob and leaves the store as it is. -/
theorem blobGet_good (good : Good b.store h (out ++ rest) who time m) (early : t.now < time)
    (passes : out = [] → t.asks who h = .ok ()) :
    ∃ b' eof, b.blobGet t.policy t.spec t.now who h out.length none t.miss =
        (.ok (m.handle h, rest.take CHUNK, eof), b') ∧ b'.store = b.store ∧ (eof = true ↔ rest.length ≤ CHUNK) := by
  obtain ⟨eof, slice, ends⟩ := readSlice_good (m := m) good.file good.size out.length CHUNK
  rw [List.drop_left, Nat.min_self] at slice ends
  have read (b' : Gated.State) (same : b'.store = b.store) :
      ∃ after, b'.read t.now who h out.length none t.miss = (.ok (m.handle h, rest.take CHUNK, eof), after) ∧
        after.store = b.store ∧ (eof = true ↔ rest.length ≤ CHUNK) := by
    simp [Gated.State.read, Content.get, same, find_good good early, slice, Gated.State.note, ends]
  by_cases first : out = []
  · obtain ⟨_, _, asked, -⟩ | ⟨-, answered⟩ := blobGet_first who h b t
    · cases asked.symm.trans (passes first)
    · subst first
      obtain ⟨after, found, kept⟩ := read (b.note (.asked (.session who) h true)) rfl
      exact ⟨after, eof, answered.trans found, kept⟩
  · obtain ⟨after, found, kept⟩ := read b rfl
    unfold Gated.State.blobGet
    rw [if_neg (mt List.length_eq_zero_iff.mp first)]
    exact ⟨after, eof, found, kept⟩

theorem getBlob_good (turns : List Turn) (distinct : Distinct b.store)
    (good : Good b.store h (out ++ rest) who time m)
    (early : ∀ turn ∈ turns, turn.now < time ∧ ∀ act ∈ turn.others, act.before time = true)
    (passes : out = [] → ∀ turn ∈ turns.head?, turn.asks who h = .ok ()) (some_ : 0 < turns.length)
    (enough : rest.length ≤ turns.length * CHUNK) : getBlob env cfg who h b out turns = some (.ok (out ++ rest)) := by
  induction turns generalizing b m out rest with
  | nil => simp at some_
  | cons turn turns ih =>
    obtain ⟨before, fine⟩ := early _ List.mem_cons_self
    obtain ⟨m', good', -⟩ := run_good env cfg distinct turn.others good fine
    obtain ⟨b', eof, answered, same, done⟩ := blobGet_good
      (b := { b with store := Run.run (step env cfg) b.store turn.others }) good' before
      fun start => passes start turn rfl
    simp only [getBlob, answered]
    by_cases all : rest.length ≤ CHUNK
    · simp [done.mpr all, List.take_of_length_le all]
    · have size : (rest.take CHUNK).length = CHUNK := List.length_take_of_le (Nat.le_of_not_le all)
      have bytes : rest.take CHUNK ≠ [] := List.ne_nil_of_length_pos (by rw [size]; decide)
      have more : (eof || (rest.take CHUNK).isEmpty) = false := by
        rw [Bool.or_eq_false_iff, Bool.eq_false_iff, List.isEmpty_eq_false_iff]
        exact ⟨fun eof => all (done.mp eof), bytes⟩
      have left : (rest.drop CHUNK).length ≤ turns.length * CHUNK := by
        rw [List.length_cons, Nat.succ_mul] at enough
        rw [List.length_drop]
        omega
      rw [more, if_neg (by simp)]
      rw [← List.take_append_drop CHUNK rest, ← List.append_assoc] at good' ⊢
      rw [List.take_append_drop]
      change b'.store = Run.run (step env cfg) b.store turn.others at same
      rw [← same] at good'
      refine ih ?_ good' (fun t listed => early t (List.mem_cons_of_mem _ listed)) ?_ ?_ left
      · rw [same]
        exact Run.run_always (fun s act inv => step_distinct env cfg s act inv) turn.others distinct
      · exact fun start => absurd (List.append_eq_nil_iff.mp start).2 bytes
      · by_contra none_
        rw [Nat.eq_zero_of_not_pos none_, Nat.zero_mul, List.length_drop] at left
        omega

end

/-- Whoever completed a put reads back exactly the chunks that the store took in for it, whatever others do between
the requests, as long as the handle has not expired and unless the broker refuses the first request. It takes one
request for each chunk's length of them. -/
theorem getBlob_returns {env : Env} (free : Function.Injective env.hash) (cfg : BlobConfig) (earlier : List Act)
    {now : Nat} {owner : String} {upload offset : Nat} {data : Octets} {last : Bool} {handle : BlobHandle}
    (put : (chunk env now owner upload offset data last (after env cfg earlier)).1 = .ok (some handle)) :
    let acts := earlier ++ [.chunk now owner upload offset data last]
    let bytes := (taken env cfg .empty (fun _ => []) earlier upload ++ [data]).flatten
    ∃ u, (after env cfg earlier).uploads.lookup upload = some u ∧ u.owner = owner ∧
      ∀ broker : Gated.State, broker.store = after env cfg acts → ∀ first rest,
        (∀ turn ∈ first :: rest,
          turn.now < handle.expiresMs ∧ ∀ act ∈ turn.others, act.before handle.expiresMs = true) →
        bytes.length ≤ (first :: rest).length * CHUNK →
        getBlob env cfg u.principal handle.hash broker [] (first :: rest) =
          some ((first.asks u.principal handle.hash).map fun _ => bytes) := by
  intro acts bytes
  obtain ⟨v, m, puts, rfl, good⟩ := put_good free (backed_after env cfg earlier) put
  obtain ⟨u, found, principal, own, received⟩ := completes_taken env cfg puts
  refine ⟨u, found, own, fun broker holds first rest early enough => ?_⟩
  have last : after env cfg acts = (chunk env now owner upload offset data last (after env cfg earlier)).2 :=
    Run.run_append ..
  rw [← last, ← holds, principal] at good
  change v.received = bytes at received
  change getBlob env cfg u.principal (env.hash v.received) broker [] (first :: rest) =
    some ((first.asks u.principal (env.hash v.received)).map _)
  cases asked : first.asks u.principal (env.hash v.received) with
  | error refusal => exact getBlob_refused env cfg rest asked
  | ok _ =>
    have distinct : Distinct broker.store := holds ▸ distinct_after env cfg acts
    rw [← received] at enough ⊢
    exact getBlob_good env cfg (first :: rest) distinct good early
      (fun _ turn same => Option.some.inj same ▸ asked) (Nat.succ_pos _) enough

def read (policy : BusPolicy) : Turn := ⟨[.sweep 8], policy, .ok "cog", 9, none⟩

/-- A second instance puts bytes that are there and reads them back; a gate that denies is what the client hears. -/
theorem getBlob_returns_shared :
    let put : Act := .chunk 6 "b" 2 0 [7, 8] true
    getBlob .written .default (none, "b") "0708" { store := after .written .default (shared ++ [put]) } []
        [read AllowAll] = some (.ok [7, 8]) ∧
      ∃ refusal, getBlob .written .default (none, "b") "0708" { store := after .written .default (shared ++ [put]) } []
        [read Gated.DenyAll] = some (.error refusal) := by
  intro put
  obtain ⟨u, found, -, returns⟩ := getBlob_returns hexEncode_injective .default shared
    (rfl : (chunk .written 6 "b" 2 0 [7, 8] true (after .written .default shared)).1 =
      .ok (some ⟨"0708", 2, "text/plain", 600001⟩))
  have known : (after .written .default shared).uploads.lookup 2 =
      some ⟨"b", none, "image/png", 2, 600000, [], 5⟩ := rfl
  obtain rfl := Option.some.inj (found.symm.trans known)
  have early policy : ∀ turn ∈ [read policy], turn.now < 600001 ∧ ∀ act ∈ turn.others, act.before 600001 = true := by
    simp [read, Act.before, Act.now]
  exact ⟨returns _ rfl (read AllowAll) [] (early _) (by decide), _,
    returns _ rfl (read Gated.DenyAll) [] (early _) (by decide)⟩

end Weftos.Blob.Client
