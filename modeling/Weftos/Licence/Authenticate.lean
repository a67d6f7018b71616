import Mathlib.Data.List.DropRight
import Weftos.Lib.Replay
import Weftos.Licence.Numbering

/-! Steward requests at a Seed (`weft-licence`, `request.rs` and `Service::authenticate`). A thread reads the
clock when its request is in and then waits for the lock. -/

namespace Weftos.Licence.Authenticate
open Lib Lib.Bytes Lib.Outcome Lib.Replay Lib.Text Wire
open Proxy List Numbering.Sample

def saturatingMul (a b : Nat) : Nat := min (a * b) U64_MAX

/-! ### Signed requests -/

def REQUEST_DOMAIN : String := "weft-licence-v1/request"

def MAX_TS_MS : Nat := 4102444800000

def MAX_NONCES : Nat := 4096

structure Request where
  method : String
  target : String
  headers : List (String × String)
  body : Octets
  deriving DecidableEq

def Request.path (req : Request) : String := String.ofList (req.target.toList.takeWhile (· ≠ '?'))

inductive AuthError where
  | malformed
  | wrongNode
  | stale
  | badSignature

/-- What a verified request proves: its nonce and its signed time, in milliseconds. -/
structure Verified where
  nonce : String
  ts : Nat

def validNonce (n : String) : Bool :=
  decide (16 ≤ (utf8 n).length ∧ (utf8 n).length ≤ 64) && n.toList.all isAsciiAlphanumeric

def validTs (ts : Nat) : Bool := ts ≤ MAX_TS_MS

def withinWindow (ts nowMs windowMs : Nat) : Bool := max ts nowMs - min ts nowMs ≤ windowMs

section
variable {P : Type} (o : Outside P)
  /- `VerifyingKey::verify_strict` over a text; false where the key is not a point. -/
  (verifies : (key : Octets) → (text : String) → (signature : Octets) → Bool)
  (cfg : Config)

def signingString (method target node audience : String) (ts : Nat) (nonce : String) (body : Octets) : String :=
  String.intercalate "\n" [REQUEST_DOMAIN, method, target, node, audience, toString ts, nonce, o.sha256Hex body]

def verifySignature (stewardKey : Octets) (node audience : String) (req : Request) (ts : Nat) (nonce sig : String) :
    Bool :=
  match hexDecodeExact 64 sig with
  | none => false
  | some sig => verifies stewardKey (signingString o req.method req.target node audience ts nonce req.body) sig

def verify (req : Request) (stewardKey : Octets) (stewardNode audience : String) (nowMs windowMs : Nat) :
    Except AuthError Verified := do
  let header (name : String) := require (req.headers.lookup name) AuthError.malformed
  let node ← header "x-licence-node"
  let tsRaw ← header "x-licence-ts"
  ensure (tsRaw ≠ "" ∧ (utf8 tsRaw).length ≤ 16 ∧ tsRaw.toList.all Char.isDigit) .malformed
  let ts ← require ((parseU64 tsRaw).map UInt64.toNat) .malformed
  ensure (validTs ts) .malformed
  let nonce ← header "x-licence-nonce"
  let sig ← header "x-licence-sig"
  ensure ((hexDecodeExact 64 sig).isSome ∧ validNonce nonce) .malformed
  ensure (node = stewardNode) .wrongNode
  ensure (withinWindow ts nowMs windowMs) .stale
  ensure (verifySignature o verifies stewardKey node audience req ts nonce sig) .badSignature
  pure ⟨nonce, ts⟩

theorem verify_ok (passed : verify o verifies req stewardKey stewardNode audience nowMs windowMs = .ok verified) :
    withinWindow verified.ts nowMs windowMs = true := by
  simp only [verify, bind_ok_iff, ensure_ok_iff, pure_ok_iff] at passed
  obtain ⟨_, _, _, _, _, _, ts, _, _, _, nonce, _, _, _, _, _, _, _, _, recent, _, _, rfl⟩ := passed
  exact recent

/-- Remembers a nonce among those seen, with their times, after dropping what has aged out. False for
a nonce seen before, or where the list is full. -/
def rememberNonce (seen : List (String × Nat)) (nonce : String) (ts nowMs windowMs : Nat) :
    Bool × List (String × Nat) :=
  let seen := seen.filter fun entry => nowMs ≤ saturatingAdd entry.2 windowMs
  if seen.any (·.1 = nonce) ∨ MAX_NONCES ≤ seen.length then (false, seen) else (true, seen ++ [(nonce, ts)])

/-- One event in a sliding window of a minute, if fewer than `most` are in it. -/
def tryAcquire (events : List Nat) (now most : Nat) : Bool × List Nat :=
  let recent := (events.dropWhile fun t => saturatingAdd t 60 ≤ now).rdropWhile fun t => saturatingAdd now 60 < t
  if most ≤ recent.length then (false, recent) else (true, recent ++ [now])

/-! ### Authentication -/

structure Desk where
  nonces : List (String × Nat) := []
  nonceFile : List (String × Nat) := []
  stewardRate : List Nat := []
  unsignedRate : List Nat := []

structure Steward where
  keyId : String

abbrev Answer := Except ApiError (Steward × Verified) × Desk

def chargeUnsigned (desk : Desk) (now : Nat) : Except ApiError Unit × Desk :=
  match tryAcquire desk.unsignedRate now cfg.limits.unsignedPerMin with
  | (true, events) => (.ok (), { desk with unsignedRate := events })
  | (false, events) =>
    (.error ⟨429, "rate_limited_unsigned", "too many unsigned or refused requests"⟩,
      { desk with unsignedRate := events })

/-- A refusal costs the unsigned budget, never the steward's. -/
def refuse (desk : Desk) (now : Nat) (e : ApiError) : Answer :=
  match chargeUnsigned cfg desk now with
  | (.ok (), desk) => (.error e, desk)
  | (.error pool, desk) => (.error pool, desk)

def authError (e : AuthError) : ApiError :=
  match e with
  | .malformed => ⟨400, "malformed_auth", "request signature refused"⟩
  | .wrongNode => ⟨401, "wrong_node", "request signature refused"⟩
  | .stale => ⟨401, "stale_request", "request signature refused"⟩
  | .badSignature => ⟨401, "bad_signature", "request signature refused"⟩

def clockOk (inner : Inner P) (now : Nat) : Prop := cfg.clockFloor ≤ now ∧ inner.slots.lastIssuedAt ≤ now

instance (inner : Inner P) (now : Nat) : Decidable (clockOk cfg inner now) := inferInstanceAs (Decidable (_ ∧ _))

def persistNonces (write : WriteOutcome) (desk : Desk) : Except ApiError Unit × Desk :=
  match write with
  | .done => (.ok (), { desk with nonceFile := desk.nonces })
  | .failed _ => (.error ⟨503, "persist_failed", "could not record the nonce"⟩, desk)
  | .failedLate _ =>
    (.error ⟨503, "persist_failed", "could not record the nonce"⟩, { desk with nonceFile := desk.nonces })

def stewardKey (b : BindingRecord) : Octets := (hexDecodeExact 32 b.stewardPubkey).getD (replicate 32 0)

def nowMs (now : Nat) : Nat := saturatingMul now 1000

def windowMs : Nat := saturatingMul cfg.requestWindowSecs 1000

/-- A verified request is counted and recorded: its nonce first, then the budget, then the file. -/
def admitVerified (desk : Desk) (now : Nat) (write : WriteOutcome) (key : Octets) (verified : Verified) : Answer :=
  match rememberNonce desk.nonces verified.nonce verified.ts (nowMs now) (windowMs cfg) with
  | (false, nonces) => refuse cfg { desk with nonces := nonces } now ⟨401, "replayed", "nonce already used"⟩
  | (true, nonces) =>
    match tryAcquire desk.stewardRate now cfg.limits.requestsPerMin with
    | (false, events) =>
      (.error ⟨429, "rate_limited", "steward request budget used up"⟩,
        { desk with nonces := nonces, stewardRate := events })
    | (true, events) =>
      match persistNonces write { desk with nonces := nonces, stewardRate := events } with
      | (.error e, desk) => (.error e, desk)
      | (.ok (), desk) => (.ok (⟨keyId o key⟩, verified), desk)

/-- `Service::authenticate`, once the binding has been read again. -/
def authenticate (inner : Inner P) (desk : Desk) (req : Request) (now : Nat) (write : WriteOutcome) : Answer :=
  if ¬ clockOk cfg inner now then
    refuse cfg desk now ⟨503, "clock_not_set", "the Seed clock is below its floor"⟩
  else
    match inner.bound with
    | none => refuse cfg desk now ⟨409, "seed_not_bound", "no mesh binding"⟩
    | some b =>
      match verify o verifies req (stewardKey b) b.stewardNodeId cfg.deviceId (nowMs now) (windowMs cfg) with
      | .error e => refuse cfg desk now (authError e)
      | .ok verified => admitVerified o cfg desk now write (stewardKey b) verified

/-- A signed time is still of use at `now`: a request that carries it can pass the window, and its
nonce is remembered. -/
def Live (ts now : Nat) : Prop := nowMs now ≤ saturatingAdd ts (windowMs cfg)

instance (ts now : Nat) : Decidable (Live cfg ts now) := inferInstanceAs (Decidable (_ ≤ _))

theorem live_antitone (ts : Nat) : Antitone (Live cfg ts) := by
  intro now later le live
  have earlier : nowMs now ≤ nowMs later := by
    apply min_le_min _ le_rfl
    exact Nat.mul_le_mul_right 1000 le
  exact earlier.trans live

theorem live_of_withinWindow (recent : withinWindow ts (nowMs now) (windowMs cfg) = true) : Live cfg ts now := by
  have distance : max ts (nowMs now) - min ts (nowMs now) ≤ windowMs cfg := of_decide_eq_true recent
  apply le_saturatingAdd
  · omega
  · exact min_le_right _ _

/-- What an authentication at `now` does with the nonces, and which request it lets through. -/
inductive Nonces (now : Nat) (desk : Desk) : Answer → Prop
  | untouched {e desk'} (memory : desk'.nonces = desk.nonces) (file : desk'.nonceFile = desk.nonceFile) :
    Nonces now desk (.error e, desk')
  | forgot {e desk'} (memory : desk'.nonces = desk.nonces.filter fun item => Live cfg item.2 now)
      (file : desk'.nonceFile = desk.nonceFile) : Nonces now desk (.error e, desk')
  | refused {e desk'} (item : String × Nat)
      (memory : desk'.nonces = (desk.nonces.filter fun item => Live cfg item.2 now) ++ [item])
      (file : desk'.nonceFile = desk.nonceFile ∨ desk'.nonceFile = desk'.nonces) : Nonces now desk (.error e, desk')
  | passed {steward verified desk'} (live : Live cfg verified.ts now)
      (unseen : ∀ old ∈ desk.nonces.filter fun item => Live cfg item.2 now, old.1 ≠ verified.nonce)
      (memory : desk'.nonces = (desk.nonces.filter fun item => Live cfg item.2 now) ++ [(verified.nonce, verified.ts)])
      (file : desk'.nonceFile = desk'.nonces) : Nonces now desk (.ok (steward, verified), desk')

theorem refuse_nonces (desk : Desk) (now : Nat) (e : ApiError) :
    ∃ e' desk', refuse cfg desk now e = (.error e', desk') ∧ desk'.nonces = desk.nonces ∧
      desk'.nonceFile = desk.nonceFile := by
  unfold refuse chargeUnsigned
  cases tryAcquire desk.unsignedRate now cfg.limits.unsignedPerMin with
  | mk granted events =>
    cases granted with
    | false | true => exact ⟨_, _, rfl, rfl, rfl⟩

theorem refuse_untouched (now : Nat) (desk : Desk) (e : ApiError) : Nonces cfg now desk (refuse cfg desk now e) := by
  obtain ⟨e', desk', refused, memory, file⟩ := refuse_nonces cfg desk now e
  rw [refused]
  exact .untouched memory file

theorem admitVerified_nonces (desk : Desk) (now : Nat) (write : WriteOutcome) (key : Octets)
    (live : Live cfg verified.ts now) : Nonces cfg now desk (admitVerified o cfg desk now write key verified) := by
  unfold admitVerified rememberNonce
  dsimp only
  split
  next nonces seen =>
    split at seen
    · cases seen
      obtain ⟨e', desk', refused, memory, file⟩ := refuse_nonces cfg
        { desk with nonces := desk.nonces.filter fun item => Live cfg item.2 now } now
          ⟨401, "replayed", "nonce already used"⟩
      exact refused ▸ .forgot memory file
    · cases seen
  next nonces seen =>
    split at seen
    · cases seen
    next fresh =>
      cases seen
      split
      · exact .refused (verified.nonce, verified.ts) rfl (.inl rfl)
      · cases write with
        | done =>
          apply Nonces.passed live _ rfl rfl
          intro old listed same
          apply fresh
          exact .inl (any_eq_true.mpr ⟨old, listed, decide_eq_true same⟩)
        | failed => exact .refused (verified.nonce, verified.ts) rfl (.inl rfl)
        | failedLate => exact .refused (verified.nonce, verified.ts) rfl (.inr rfl)

theorem authenticate_nonces (inner : Inner P) (desk : Desk) (req : Request) (now : Nat) (write : WriteOutcome) :
    Nonces cfg now desk (authenticate o verifies cfg inner desk req now write) := by
  unfold authenticate
  split
  · exact refuse_untouched cfg now desk _
  split
  · exact refuse_untouched cfg now desk _
  split
  · exact refuse_untouched cfg now desk _
  next b _ verified checked =>
    apply admitVerified_nonces
    exact live_of_withinWindow cfg (verify_ok o verifies checked)

/-! ### The service with its waiting requests -/

structure Dispatch where
  req : Request
  verified : Verified

def Dispatch.item (d : Dispatch) : String × Nat := (d.verified.nonce, d.verified.ts)

def Dispatch.signed (d : Dispatch) : String × Nat × String × Octets :=
  (d.req.target, d.verified.ts, d.verified.nonce, d.req.body)

/-- The service, the requests that have read the clock and wait for the lock, and the dispatches so
far. The clock outlives the service. -/
structure Front (P : Type) where
  seed : Seed P
  desk : Desk := {}
  clock : Nat := 0
  waiting : List (Request × Nat) := []
  dispatched : List Dispatch := []

inductive Act where
  | tick (secs : Nat)
  | arrive (req : Request)
  /-- A waiting request gets the lock. -/
  | enter (i : Nat) (bindWrite write : WriteOutcome)
  /-- Anything else the service does, a stop and a start included. -/
  | other (act : Proxy.Act)

namespace Front

/-- `Service::handle` up to the dispatch. -/
def handle (s : Front P) (inner : Inner P) (req : Request) (now : Nat) (write : WriteOutcome) : Front P :=
  if req.method = "GET" ∧ req.path = "/licence/v1/identity" then
    { s with desk := (chargeUnsigned cfg s.desk now).2 }
  else
    match authenticate o verifies cfg inner s.desk req now write with
    | (.error _, desk) => { s with desk := desk }
    | (.ok (_, verified), desk) => { s with desk := desk, dispatched := s.dispatched ++ [⟨req, verified⟩] }

def enter (s : Front P) (i : Nat) (bindWrite write : WriteOutcome) : Front P :=
  match s.seed.inner, s.waiting[i]? with
  | some inner, some (req, now) =>
    let next := refreshBinding s.seed.files bindWrite inner s.seed.disk
    handle o verifies cfg { s with seed := s.seed.withState next, waiting := s.waiting.eraseIdx i } next.1 req now write
  | _, _ => s

/-- The rest of the service has moved. A service that stopped drops what waits; one that started has
the nonces of its file and unspent budgets. -/
def moved (s : Front P) (seed : Seed P) : Front P :=
  match s.seed.inner, seed.inner with
  | _, none => { s with seed := seed, waiting := [] }
  | none, some _ => { s with seed := seed, desk := { nonces := s.desk.nonceFile, nonceFile := s.desk.nonceFile } }
  | some _, some _ => { s with seed := seed }

def step [DecidableEq P] (s : Front P) : Act → Front P
  | .tick secs => { s with clock := s.clock + secs }
  | .arrive req => if s.seed.inner.isSome then { s with waiting := s.waiting ++ [(req, s.clock)] } else s
  | .enter i bindWrite write => s.enter o verifies cfg i bindWrite write
  | .other act => s.moved (s.seed.step o cfg act)

end Front

/-! ### No request is dispatched twice -/

/-- The request that gets the lock is the one that read the clock first. -/
def Act.InTurn : Act → Prop
  | .enter i _ _ => i = 0
  | _ => True

instance : DecidablePred Act.InTurn := fun act => match act with
  | .enter i _ _ => inferInstanceAs (Decidable (i = 0))
  | .tick _ | .arrive _ | .other _ => .isTrue trivial

/-- Every dispatch that is live at `last`, the reading used last, is remembered on disk and, while
the service runs, in memory. -/
structure Guarded (s : Front P) (last : Nat) : Prop where
  ordered : (last :: (s.waiting.map (·.2) ++ [s.clock])).Pairwise (· ≤ ·)
  file : Covers (Live cfg) last (s.dispatched.map (·.item)) s.desk.nonceFile
  memory : s.seed.inner.isSome → Covers (Live cfg) last (s.dispatched.map (·.item)) s.desk.nonces
  once : (s.dispatched.map (·.item)).Nodup

section
variable {cfg} {s : Front P} {last : Nat}

section
variable (guarded : Guarded cfg s last)
include guarded

theorem Guarded.tick (secs : Nat) : Guarded cfg { s with clock := s.clock + secs } last := by
  refine { guarded with ordered := ?_ }
  have ordered := guarded.ordered
  rw [← cons_append, pairwise_append] at ordered ⊢
  refine ⟨ordered.1, pairwise_singleton _ _, ?_⟩
  intro reading listed clock isClock
  cases mem_singleton.mp isClock
  exact (ordered.2.2 reading listed s.clock mem_cons_self).trans (Nat.le_add_right _ _)

theorem Guarded.arrive (req : Request) :
    Guarded cfg { s with waiting := s.waiting ++ [(req, s.clock)] } last := by
  refine { guarded with ordered := ?_ }
  have ordered := guarded.ordered
  have twice : last :: ((s.waiting ++ [(req, s.clock)]).map (·.2) ++ [s.clock]) =
      (last :: (s.waiting.map (·.2) ++ [s.clock])) ++ [s.clock] := by
    simp
  rw [twice, pairwise_append]
  refine ⟨ordered, pairwise_singleton _ _, ?_⟩
  intro reading listed clock isClock
  cases mem_singleton.mp isClock
  rw [← cons_append] at ordered listed
  obtain listed | listed := mem_append.mp listed
  · exact (pairwise_append.mp ordered).2.2 reading listed s.clock mem_cons_self
  · exact (mem_singleton.mp listed).le

theorem Guarded.take (first : s.waiting = (req, now) :: rest)
    (seed : Seed P) (running : s.seed.inner.isSome) : Guarded cfg { s with seed := seed, waiting := rest } now := by
  have ordered := guarded.ordered
  rw [first] at ordered
  obtain ⟨least, ordered⟩ := pairwise_cons.mp ordered
  have later : last ≤ now := least now mem_cons_self
  exact {
    ordered := ordered
    file := guarded.file.later (live_antitone cfg) later
    memory := fun _ => (guarded.memory running).later (live_antitone cfg) later
    once := guarded.once }

/-- The lock region of a request keeps what is remembered, and lets through what was never dispatched. -/
theorem Guarded.handle (running : s.seed.inner.isSome) (inner : Inner P) (req : Request) (write : WriteOutcome) :
    Guarded cfg (s.handle o verifies cfg inner req last write) last := by
  have memory := guarded.memory running
  unfold Front.handle
  split
  · have same : ∀ desk now, (chargeUnsigned cfg desk now).2.nonces = desk.nonces ∧
        (chargeUnsigned cfg desk now).2.nonceFile = desk.nonceFile := by
      intro desk now
      unfold chargeUnsigned
      split <;> exact ⟨rfl, rfl⟩
    obtain ⟨inMemory, onDisk⟩ := same s.desk last
    exact {
      ordered := guarded.ordered
      file := onDisk.symm ▸ guarded.file
      memory := fun _ => inMemory.symm ▸ memory
      once := guarded.once }
  · have nonces := authenticate_nonces o verifies cfg inner s.desk req last write
    generalize authenticate o verifies cfg inner s.desk req last write = answer at nonces ⊢
    cases nonces with
    | untouched inMemory onDisk =>
      exact { guarded with file := onDisk ▸ guarded.file, memory := fun _ => inMemory ▸ memory }
    | forgot inMemory onDisk =>
      exact { guarded with file := onDisk ▸ guarded.file, memory := fun _ => inMemory ▸ memory.forget }
    | @refused _ desk' item inMemory onDisk =>
      have covered : Covers (Live cfg) last (s.dispatched.map (·.item)) desk'.nonces :=
        inMemory ▸ memory.forget.remember
      refine { guarded with file := ?_, memory := fun _ => covered }
      obtain onDisk | onDisk := onDisk
      · exact onDisk ▸ guarded.file
      · exact onDisk ▸ covered
    | @passed steward verified desk' live unseen inMemory onDisk =>
      have new : (verified.nonce, verified.ts) ∉ s.dispatched.map (·.item) := memory.forget.fresh live unseen
      have items : (s.dispatched ++ [Dispatch.mk req verified]).map (·.item) =
          s.dispatched.map (·.item) ++ [(verified.nonce, verified.ts)] := map_append
      have covered : Covers (Live cfg) last ((s.dispatched ++ [Dispatch.mk req verified]).map (·.item))
        desk'.nonces := by
        rw [items, inMemory]
        exact memory.forget.accept
      refine { ordered := guarded.ordered, file := onDisk ▸ covered, memory := fun _ => covered, once := ?_ }
      rw [items]
      exact nodup_append.mpr ⟨guarded.once, nodup_singleton _, fun a listed b isNew => by
        cases mem_singleton.mp isNew
        exact fun same => new (same ▸ listed)⟩

theorem Guarded.moved (seed : Seed P) : Guarded cfg (s.moved seed) last := by
  unfold Front.moved
  split
  next stopped =>
    refine { guarded with ordered := ?_, memory := fun running => ?_ }
    · apply List.Pairwise.sublist _ guarded.ordered
      exact List.Sublist.cons_cons last (sublist_append_right _ _)
    · rw [stopped] at running
      cases running
  · exact { guarded with memory := fun _ => guarded.file }
  next running _ => exact { guarded with memory := fun _ => guarded.memory (running ▸ rfl) }

end

theorem step_guarded [DecidableEq P] (s : Front P) (act : Act) (guarded : ∃ last, Guarded cfg s last)
    (inTurn : act.InTurn) :
    ∃ last, Guarded cfg (s.step o verifies cfg act) last := by
  obtain ⟨last, guarded⟩ := guarded
  cases act with
  | tick secs => exact ⟨last, guarded.tick secs⟩
  | arrive req =>
    change ∃ last, Guarded cfg (if s.seed.inner.isSome then _ else s) last
    split
    · exact ⟨last, guarded.arrive req⟩
    · exact ⟨last, guarded⟩
  | enter i bindWrite write =>
    cases (inTurn : i = 0)
    change ∃ last, Guarded cfg (s.enter o verifies cfg 0 bindWrite write) last
    unfold Front.enter
    split
    next inner req now running first =>
      cases waiting : s.waiting with
      | nil =>
        rw [waiting] at first
        cases first
      | cons head rest =>
        rw [waiting] at first
        cases first
        exact ⟨now, (guarded.take waiting _ (running ▸ rfl)).handle o verifies rfl _ req write⟩
    · exact ⟨last, guarded⟩
  | other act => exact ⟨last, guarded.moved _⟩

end

variable [DecidableEq P]

/-- Requests that take the lock in the order in which they read the clock: whatever is replayed and whatever
writes fail, nothing the steward signed is dispatched twice. -/
theorem dispatched_once (seed : Seed P) (desk : Desk) (clock : Nat) (acts : List Act)
    (inTurn : ∀ act ∈ acts, act.InTurn) :
    ((Run.run (Front.step o verifies cfg) { seed := seed, desk := desk, clock := clock } acts).dispatched.map
      (·.signed)).Nodup := by
  have start : Guarded cfg ({ seed := seed, desk := desk, clock := clock } : Front P) clock := {
    ordered := by simp
    file := covers_nil
    memory := fun _ => covers_nil
    once := nodup_nil }
  obtain ⟨last, guarded⟩ := Run.run_keeps_mem (step_guarded o verifies) ⟨clock, start⟩ inTurn
  apply List.Nodup.of_map (fun signed : String × Nat × String × Octets => (signed.2.2.1, signed.2.1))
  rw [map_map]
  exact guarded.once

end

/-! ### A sample Seed -/

namespace Sample
open Member.Sample

def signature : Octets := replicate 64 0

def verifies (_ : Octets) (_ : String) (sig : Octets) : Bool := sig = signature

def request (nonce : String) (second : Nat) : Request where
  method := "GET"
  target := "/licence/v1/grants?since=0"
  headers := [("x-licence-node", "steward"), ("x-licence-ts", toString (second * 1000)), ("x-licence-nonce", nonce),
    ("x-licence-sig", hexEncode signature)]
  body := []

def first : Request := request "aaaaaaaaaaaaaaaa" clock

def second : Request := request "bbbbbbbbbbbbbbbb" (clock + 121)

def run (acts : List Act) : Front Text :=
  Run.run (Front.step outside verifies (config 1))
    { seed := { files := files }, clock := clock } acts

end Sample
open Sample

/-- A replay is refused, also once the service has restarted; a request whose nonce could not be
recorded is dispatched when it is sent again. -/
theorem dispatched_once_restart :
    let acts := [.other (.start .done), .arrive first, .arrive first, .enter 0 .done .done,
      .enter 0 .done .done, .tick 120, .arrive second, .enter 0 .done (.failed "full"), .other .crash,
      .other (.start .done), .arrive first, .enter 0 .done .done, .arrive second, .enter 0 .done .done]
    (run acts).dispatched.map (·.req) = [first, second] ∧
      ((run acts).dispatched.map (·.signed)).Nodup :=
  ⟨by decide +kernel, dispatched_once Member.Sample.outside verifies (config 1)
    { files := files } {} clock _ (by decide)⟩

/-- A replay reads the clock in the last second of its window and waits. A request that reads it a second later
gets the lock first and drops the nonce. -/
theorem dispatched_again :
    let acts := [.other (.start .done), .arrive first, .enter 0 .done .done, .tick 120, .arrive first,
      .tick 1, .arrive second, .enter 1 .done .done, .enter 0 .done .done]
    (run acts).dispatched.map (·.req) = [first, second, first] ∧
      ¬ ((run acts).dispatched.map (·.signed)).Nodup := by
  decide +kernel

end Weftos.Licence.Authenticate
