import Weftos.Blob.Content
import Weftos.Bus.Source

/-! Blob reads of sessions and peers (`weftos-cogbus/src/blobops.rs`, `mesh/fetch.rs`). The governance gate is
asked about the slice at offset 0 only. -/

namespace Weftos.Blob.Gated
open Lib Lib.Bytes Lib.Outcome Bus.Types Bus.Source Content

/-- Whom the gate is asked about: an instance with its project, or a peer. -/
inductive Reader where
  | session (who : Principal)
  | peer (node : String)
  deriving DecidableEq

inductive Event where
  | asked (who : Reader) (hash : String) (permit : Bool)
  | returned (who : Reader) (hash : String) (slice : BlobHandle × Octets × Bool)

/-- The broker's store, what the hub handed to peers and queued for them, and the events, newest first. -/
structure State where
  store : Store := .empty
  handed : List ((String × String) × Handed) := []
  queue : List Queued := []
  events : List Event := []

def State.note (s : State) (e : Event) : State := { s with events := e :: s.events }

/-! ### Requests -/

def busError : BlobError → BusError
  | .badRequest m => bad .badRequest m
  | .quota m => bad .quotaExceeded m
  | .tooLarge m => bad .tooLarge m
  | .notFound m => bad .notFound m
  | .denied m => bad .crossProject m
  | .io m => bad .unavailable s!"content store: {m}"

section
variable (s : State)

/-- The store's part of `blob_get`. A blob that is not here may be one of another node. -/
def State.read (now : Nat) (me : Principal) (hash : String) (offset : Nat) (len : Option Nat)
    (miss : Option BusError) : Except BusError (BlobHandle × Octets × Bool) × State :=
  let no := refuse me.2 "blob.get" (blobTopic hash)
  match get now me hash offset (len.getD CHUNK) s.store with
  | (.ok got, store) => (.ok got, { s with store := store }.note (.returned (.session me) hash got))
  | (.error (.notFound m), store) => (.error (miss.getD (no (bad .notFound m))), { s with store := store })
  | (.error e, store) => (.error (no (busError e)), { s with store := store })

/-- `spec` is the cog of the instance, or why it has none. -/
def State.blobGet (policy : BusPolicy) (spec : Except BusError String) (now : Nat) (me : Principal)
    (hash : String) (offset : Nat) (len : Option Nat) (miss : Option BusError) :
    Except BusError (BlobHandle × Octets × Bool) × State :=
  if offset = 0 then
    match spec with
    | .error e => (.error e, s)
    | .ok cog =>
      match policy.gate ⟨.blobGet, me.2, cog, me.1, blobTopic hash, "blob.v1", none⟩ with
      | .error e => (.error e, s.note (.asked (.session me) hash false))
      | .ok () => (s.note (.asked (.session me) hash true)).read now me hash offset len miss
  else s.read now me hash offset len miss

/-- The gate comes last among the checks of a fetch, so it is asked where the others pass. -/
def State.askFetch (registry : Registry) (policy : BusPolicy) (q : Queued) (handed : Option Handed) : State :=
  if q.offset = 0 ∧ (checkFetch registry AllowAll q handed).isOk then
    s.note (.asked (.peer q.peer) q.hash (checkFetch registry policy q handed).isOk)
  else s

/-- `on_fetch` up to the queue. -/
def State.onFetch (registry : Registry) (policy : BusPolicy) (now : Nat) (q : Queued) : State :=
  let handed := (s.handed.lookup (q.peer, q.hash)).filter (now < ·.expiresMs)
  let asked := s.askFetch registry policy q handed
  if (checkFetch registry policy q handed).isOk then { asked with queue := asked.queue ++ [q] } else asked

/-- One round of `serve_fetches`: the slice at `i` is served where its budget allows it, and waits otherwise. -/
def State.serveFetch (i now : Nat) (budget : Bool) : State :=
  match s.queue[i]? with
  | none => s
  | some q =>
    match s.handed.lookup (q.peer, q.hash) with
    | none => { s with queue := s.queue.eraseIdx i }
    | some h =>
      if budget then
        match get now (h.project, h.owner) q.hash q.offset (h.want q) s.store with
        | (.ok got, store) =>
          { s with queue := s.queue.eraseIdx i, store := store }.note (.returned (.peer q.peer) q.hash got)
        | (.error _, store) => { s with queue := s.queue.eraseIdx i, store := store }
      else s

end

inductive Act where
  | get (policy : BusPolicy) (spec : Except BusError String) (now : Nat) (me : Principal) (hash : String)
      (offset : Nat) (len : Option Nat) (miss : Option BusError)
  | fetch (registry : Registry) (policy : BusPolicy) (now : Nat) (q : Queued)
  | serve (i now : Nat) (budget : Bool)
  | hand (peer hash : String) (h : Handed)
  /-- Any other call of the store. -/
  | store (act : Content.Act)

def step (env : Env) (cfg : BlobConfig) (s : State) : Act → State
  | .get policy spec now me hash offset len miss => (s.blobGet policy spec now me hash offset len miss).2
  | .fetch registry policy now q => s.onFetch registry policy now q
  | .serve i now budget => s.serveFetch i now budget
  | .hand peer hash h => { s with handed := Table.insert s.handed (peer, hash) h }
  | .store act => { s with store := Content.step env cfg s.store act }

/-! ### What the gate said -/

def Event.answer (who : Reader) (hash : String) : Event → Option Bool
  | .asked other h permit => if other = who ∧ h = hash then some permit else none
  | .returned .. => none

def lastAnswer (events : List Event) (who : Reader) (hash : String) : Option Bool :=
  events.findSome? (·.answer who hash)

def EachPermitted : List Event → Prop
  | [] => True
  | .returned who hash _ :: before => lastAnswer before who hash = some true ∧ EachPermitted before
  | .asked .. :: before => EachPermitted before

/-- A slice past the first is asked for only after the first was permitted, and the gate does not take back what
it permitted. -/
def inOrder (s : State) : Act → Prop
  | .get policy spec _ me hash offset _ _ =>
    if offset = 0 then ∀ cog, spec = .ok cog → lastAnswer s.events (.session me) hash = some true →
      (policy.gate ⟨.blobGet, me.2, cog, me.1, blobTopic hash, "blob.v1", none⟩).isOk = true
    else lastAnswer s.events (.session me) hash = some true
  | .fetch registry policy now q =>
    let handed := (s.handed.lookup (q.peer, q.hash)).filter (now < ·.expiresMs)
    if q.offset = 0 then lastAnswer s.events (.peer q.peer) q.hash = some true →
      (checkFetch registry AllowAll q handed).isOk = true → (checkFetch registry policy q handed).isOk = true
    else lastAnswer s.events (.peer q.peer) q.hash = some true
  | _ => True

structure Inv (s : State) : Prop where
  each : EachPermitted s.events
  queue : ∀ q ∈ s.queue, lastAnswer s.events (.peer q.peer) q.hash = some true

variable {s t : State} {who : Reader} {hash : String} {permit : Bool} {registry : Registry} {policy : BusPolicy}

theorem lastAnswer_asked (events : List Event) (other : Reader) (h : String) :
    lastAnswer (.asked who hash permit :: events) other h =
      if who = other ∧ hash = h then some permit else lastAnswer events other h := by
  rw [lastAnswer, List.findSome?_cons, Event.answer]
  split_ifs <;> rfl

theorem Inv.of_same (inv : Inv s) (events : t.events = s.events) (queue : ∀ q ∈ t.queue, q ∈ s.queue) : Inv t := by
  constructor
  · rw [events]
    exact inv.each
  · intro q listed
    rw [events]
    exact inv.queue q (queue q listed)

theorem Inv.asked (inv : Inv s) (kept : lastAnswer s.events who hash = some true → permit = true) :
    Inv (s.note (.asked who hash permit)) := by
  refine ⟨inv.each, ?_⟩
  intro q listed
  have before := inv.queue q listed
  show lastAnswer (.asked who hash permit :: s.events) _ _ = _
  rw [lastAnswer_asked]
  split_ifs with same
  · rw [kept (by rw [same.1, same.2]; exact before)]
  · exact before

theorem Inv.returned (inv : Inv s) (last : lastAnswer s.events who hash = some true)
    (slice : BlobHandle × Octets × Bool) : Inv (s.note (.returned who hash slice)) :=
  ⟨⟨last, inv.each⟩, inv.queue⟩

theorem Inv.read (inv : Inv s) (last : lastAnswer s.events (.session me) hash = some true)
    (now offset : Nat) (len : Option Nat) (miss : Option BusError) : Inv (s.read now me hash offset len miss).2 := by
  unfold State.read
  dsimp only
  split
  next got store _ =>
    have same : Inv { s with store := store } := inv.of_same rfl fun _ => id
    exact same.returned last got
  · exact inv.of_same rfl fun _ => id
  · exact inv.of_same rfl fun _ => id

theorem checkFetch_others
    (passed : (checkFetch registry policy q handed).isOk = true) :
    (checkFetch registry AllowAll q handed).isOk = true := by
  cases checked : checkFetch registry policy q handed with
  | error e =>
    rw [checked] at passed
    cases passed
  | ok _ =>
    simp only [checkFetch, bind_ok_iff] at checked
    obtain ⟨h, given, v, serves, u, raw, -⟩ := checked
    have all : checkFetch registry AllowAll q handed = .ok () := by
      simp only [checkFetch, bind_ok_iff]
      refine ⟨h, given, v, serves, u, raw, ?_⟩
      split_ifs <;> rfl
    rw [all]
    rfl

theorem Inv.askFetch (inv : Inv s) (fine : inOrder s (.fetch registry policy now q)) :
    let handed := (s.handed.lookup (q.peer, q.hash)).filter (now < ·.expiresMs)
    Inv (s.askFetch registry policy q handed) ∧ ((checkFetch registry policy q handed).isOk = true →
      lastAnswer (s.askFetch registry policy q handed).events (.peer q.peer) q.hash = some true) := by
  intro handed
  unfold State.askFetch
  simp only [inOrder] at fine
  by_cases first : q.offset = 0
  · rw [if_pos first] at fine
    by_cases others : (checkFetch registry AllowAll q handed).isOk = true
    · rw [if_pos ⟨first, others⟩]
      refine ⟨inv.asked fun last => fine last others, ?_⟩
      intro passed
      show lastAnswer (.asked _ _ _ :: s.events) _ _ = _
      rw [lastAnswer_asked, if_pos ⟨rfl, rfl⟩, passed]
    · rw [if_neg fun both => others both.2]
      exact ⟨inv, fun passed => (others (checkFetch_others passed)).elim⟩
  · rw [if_neg first] at fine
    rw [if_neg fun both => first both.1]
    exact ⟨inv, fun _ => fine⟩

theorem Inv.onFetch (inv : Inv s)
    (fine : inOrder s (.fetch registry policy now q)) : Inv (s.onFetch registry policy now q) := by
  obtain ⟨asked, permitted⟩ := inv.askFetch fine
  unfold State.onFetch
  dsimp only
  split_ifs with passed
  · refine ⟨asked.each, ?_⟩
    intro other listed
    obtain old | new := List.mem_append.mp listed
    · exact asked.queue other old
    · rw [List.mem_singleton.mp new]
      exact permitted passed
  · exact asked

theorem Inv.serveFetch (inv : Inv s) (i now : Nat) (budget : Bool) : Inv (s.serveFetch i now budget) := by
  unfold State.serveFetch
  split
  · exact inv
  next q found =>
    have fewer : ∀ other ∈ s.queue.eraseIdx i, other ∈ s.queue := fun _ => List.mem_of_mem_eraseIdx
    split
    · exact inv.of_same rfl fewer
    next h _ =>
      split_ifs
      · split
        next got store _ =>
          have rest : Inv { s with queue := s.queue.eraseIdx i, store := store } := inv.of_same rfl fewer
          exact rest.returned (inv.queue q (List.mem_of_getElem? found)) got
        · exact inv.of_same rfl fewer
      · exact inv

theorem Inv.step (env : Env) (cfg : BlobConfig) (inv : Inv s) (fine : inOrder s act) : Inv (step env cfg s act) := by
  cases act with
  | get policy spec now me hash offset len miss =>
    simp only [Gated.step, State.blobGet, inOrder] at fine ⊢
    split_ifs at fine ⊢ with first
    · cases spec with
      | error e => exact inv
      | ok cog =>
        dsimp only
        split
        next e denied =>
          refine inv.asked fun last => ?_
          have permits := fine cog rfl last
          rw [denied] at permits
          cases permits
        next permitted =>
          have asked : Inv (s.note (.asked (.session me) hash true)) := inv.asked fun _ => rfl
          apply asked.read
          show lastAnswer (.asked _ _ _ :: s.events) _ _ = _
          rw [lastAnswer_asked, if_pos ⟨rfl, rfl⟩]
    · exact inv.read fine now offset len miss
  | fetch => exact inv.onFetch fine
  | serve i now budget => exact inv.serveFetch i now budget
  | hand => exact inv.of_same rfl fun _ => id
  | store act => exact inv.of_same rfl fun _ => id

/-- Where slices past the first are asked for after the first was permitted and the gate takes nothing back, every
blob read was permitted by the gate's last answer. -/
theorem each_read_permitted (env : Env) (cfg : BlobConfig) {acts : List Act}
    (fine : Run.Along (step env cfg) inOrder {} acts) : EachPermitted (Run.run (step env cfg) {} acts).events := by
  have start : Inv {} := ⟨trivial, List.forall_mem_nil _⟩
  have keeps : ∀ s act, Inv s → inOrder s act → Inv (step env cfg s act) := fun _ _ inv fine => inv.step env cfg fine
  exact (Run.run_keeps keeps start fine).each

/-! ### Reads that were never permitted -/

def cog : Principal := (some "p", "cog")

def puts : List Act := [.store (.begin 0 "cog" (some "p") "text/plain" 2 none), .store (.chunk 0 "cog" 1 0 [1, 2] true)]

def gets (policy : BusPolicy) (offset : Nat) : Act := .get policy (.ok "cog") 1 cog "0102" offset none none

theorem each_read_permitted_slices :
    EachPermitted (Run.run (step .written .default) {} (puts ++ [gets AllowAll 0, gets AllowAll 1])).events :=
  each_read_permitted .written .default ⟨trivial, trivial, fun _ _ _ => rfl, rfl, trivial⟩

def DenyAll : BusPolicy := ⟨fun _ => some "no", fun _ => []⟩

/-- The gate denies every read. The first slice is refused, the second is returned; asked for alone it is returned
without a question. -/
theorem unpermitted_reads :
    (∃ got, (Run.run (step .written .default) {} (puts ++ [gets DenyAll 1])).events =
      [.returned (.session cog) "0102" got] ∧ got.2.1 = [2]) ∧
    ∃ got, (Run.run (step .written .default) {} (puts ++ [gets DenyAll 0, gets DenyAll 1])).events =
      [.returned (.session cog) "0102" got, .asked (.session cog) "0102" false] ∧ got.2.1 = [2] :=
  ⟨⟨_, rfl, rfl⟩, _, rfl, rfl⟩

end Weftos.Blob.Gated
