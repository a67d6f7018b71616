import Weftos.Chain.Invariant
import Weftos.Chain.Lookup
import Weftos.Lib.Broadcast
import Weftos.Lib.Outcome

/-! Chain subscriptions (`clawft-kernel/src/chain_subscribe.rs`): a paged replay of retained events, then the
live feed. Between any two turns of `next` the chain may grow and the feed may overflow. -/

namespace Weftos.Chain.Subscribe
open Lib.Log Lib.Outcome Lib.Broadcast
open Event Local Lookup List Invariant
open Invariant hiding step run

def CHAIN_SUBSCRIBE_CAPACITY : Nat := 1024
def REPLAY_PAGE : Nat := 256
def REPLAY_SCAN : Nat := 4096

structure ChainFilter where
  kindPrefix : Option String
  fromSeq : Option UInt64

inductive SubscribeError where
  | replayWindowExceeded (requested oldestAllowed : UInt64)

inductive ChainItem where
  | event (e : ChainEvent)
  | lagged (missed resumeFrom : UInt64)

/-- `cursor` is the next number to replay, `stop` where the live feed begins and
`resumeFrom` the number after the last event passed. -/
structure ChainSubscription where
  filter : ChainFilter
  cursor : UInt64
  stop : UInt64
  page : List ChainEvent
  rx : Receiver ChainEvent CHAIN_SUBSCRIBE_CAPACITY
  resumeFrom : UInt64

/-- `filter.from_seq.unwrap_or(end).min(end)`. -/
def ChainFilter.first (filter : ChainFilter) (head : UInt64) : UInt64 :=
  let start := filter.fromSeq.getD head
  if start ≤ head then start else head

def ChainSubscription.new (filter : ChainFilter) (rx : Receiver ChainEvent CHAIN_SUBSCRIBE_CAPACITY)
    (stop : UInt64) : ChainSubscription where
  filter := filter
  cursor := filter.first stop
  stop := stop
  page := []
  rx := rx
  resumeFrom := filter.first stop

def saturatingSub (value other : UInt64) : UInt64 := if other ≤ value then value - other else 0

def checkWindow (chain : LocalChain) (filter : ChainFilter) : Except SubscribeError Unit :=
  let oldestAllowed := saturatingSub chain.sequence chain.maxReplayWindow
  match filter.fromSeq with
  | some start => if start < oldestAllowed then .error (.replayWindowExceeded start oldestAllowed) else .ok ()
  | none => .ok ()

/-- The live feed and the snapshot end are taken under one lock. -/
def subscribe (chain : LocalChain) (filter : ChainFilter) : Except SubscribeError ChainSubscription := do
  checkWindow chain filter
  pure (ChainSubscription.new filter Receiver.fresh chain.sequence)

/-- How one turn of the loops of `next` ends. -/
inductive Turn where
  | yields (item : ChainItem)
  | again
  | waits
  | ends

def ChainSubscription.receive (sub : ChainSubscription) (gone : Bool) : Turn × ChainSubscription :=
  match sub.rx.recv with
  | (.item e, rx) =>
    if e.sequence < sub.stop then (.again, { sub with rx := rx })
    else if kindMatches sub.filter.kindPrefix e then
      (.yields (.event e), { sub with rx := rx, resumeFrom := e.sequence + 1 })
    else (.again, { sub with rx := rx, resumeFrom := e.sequence + 1 })
  | (.lagged missed, rx) => (.yields (.lagged (UInt64.ofNat missed) sub.resumeFrom), { sub with rx := rx })
  | (.empty, _) => (if gone then .ends else .waits, sub)

/-- One turn of `next`: an event of the page, or the next page, or else the live feed.
`chain` is absent once the manager was dropped. -/
def ChainSubscription.turn (search : PartitionPoint ChainEvent) (chain : Option LocalChain)
    (sub : ChainSubscription) : Turn × ChainSubscription :=
  match sub.page with
  | e :: page => (.yields (.event e), { sub with page := page, resumeFrom := e.sequence + 1 })
  | [] =>
    if sub.cursor < sub.stop then
      match chain with
      | none => (.ends, sub)
      | some chain =>
        let (page, next) := chain.replayPage search sub.cursor sub.stop sub.filter.kindPrefix REPLAY_PAGE REPLAY_SCAN
        (.again, { sub with cursor := if sub.cursor < next then next else sub.stop, page := page })
    else sub.receive chain.isNone

def published (h : Hashing) (chain : LocalChain) : Operation → Option ChainEvent
  | .append source kind payload now stamp => some (chain.append h source kind payload now stamp).2
  | .appendIdempotent source kind payload key now stamp =>
    match key.bind chain.recentByKey with
    | some _ => none
    | none => some (chain.appendWithKey h source kind payload key now stamp).2
  | .appendSigned event now => (chain.appendSigned h event now).2.toOption
  | .checkpoint _ => none

structure World where
  chain : LocalChain
  alive : Bool
  sub : ChainSubscription
  items : List ChainItem

inductive Label where
  | call (operation : Operation)
  | next
  | drop

def World.current (w : World) : Option LocalChain := if w.alive then some w.chain else none

def Turn.items : Turn → List ChainItem
  | .yields item => [item]
  | .again | .waits | .ends => []

def World.step (h : Hashing) (search : PartitionPoint ChainEvent) (w : World) : Label → World
  | .call operation =>
    if w.alive then
      { w with
        chain := Invariant.step h w.chain operation
        sub := { w.sub with rx := (published h w.chain operation).elim w.sub.rx w.sub.rx.send } }
    else w
  | .next =>
    let (turn, sub) := w.sub.turn search w.current
    { w with sub := sub, items := w.items ++ turn.items }
  | .drop => { w with alive := false }

def World.run (h : Hashing) (search : PartitionPoint ChainEvent) (w : World) (labels : List Label) : World :=
  labels.foldl (World.step h search) w

def World.start (chain : LocalChain) (sub : ChainSubscription) : World := ⟨chain, true, sub, []⟩

/-! ### What a call does -/

structure Counted (chain : LocalChain) : Prop where
  numbered : Numbered number 0 chain.events
  sequence : chain.sequence.toNat = chain.events.length

variable {chain : LocalChain} {h : Hashing}

theorem Sound.toCounted (sound : Sound h chain) : Counted chain :=
  ⟨sound.numbered, sound.sequence⟩

/-- A call publishes nothing and leaves the events alone, or publishes the one event it
appends, under the next number. -/
theorem call_cases (h : Hashing) (chain : LocalChain) (operation : Operation) :
    (published h chain operation = none ∧ (Invariant.step h chain operation).events = chain.events ∧
      (Invariant.step h chain operation).sequence = chain.sequence) ∨
    ∃ e, published h chain operation = some e ∧ e.sequence = chain.sequence ∧
      (Invariant.step h chain operation).events = chain.events ++ [e] ∧
      (chain.sequence.toNat + 1 < 2 ^ 64 →
        (Invariant.step h chain operation).sequence.toNat = chain.sequence.toNat + 1) := by
  cases operation with
  | append =>
    refine .inr ⟨_, rfl, rfl, push_events .., fun room => ?_⟩
    exact (congrArg UInt64.toNat (push_sequence ..)).trans (toNat_succ room)
  | appendIdempotent source kind payload key =>
    simp only [published, Invariant.step, LocalChain.appendIdempotent]
    cases key.bind chain.recentByKey with
    | some existing => exact .inl ⟨rfl, rfl, rfl⟩
    | none =>
      refine .inr ⟨_, rfl, rfl, push_events .., fun room => ?_⟩
      exact (congrArg UInt64.toNat (push_sequence ..)).trans (toNat_succ room)
  | appendSigned event now =>
    simp only [published, Invariant.step]
    rcases appendSigned_cases h chain event now with ⟨refusal, refused⟩ | ⟨continues, accepted⟩
    · rw [refused]
      exact .inl ⟨rfl, rfl, rfl⟩
    · rw [accepted]
      refine .inr ⟨event, rfl, continues.sequence, push_events .., fun room => ?_⟩
      rw [push_sequence, continues.sequence, saturatingSucc_toNat room]
  | checkpoint now => exact .inl ⟨rfl, rfl, rfl⟩

theorem step_publishes (h : Hashing) (chain : LocalChain) (operation : Operation) :
    (Invariant.step h chain operation).events = chain.events ++ (published h chain operation).toList := by
  rcases call_cases h chain operation with ⟨none, events, _⟩ | ⟨e, some, _, events, _⟩
  · rw [none, events, Option.toList_none, append_nil]
  · rw [some, events, Option.toList_some]

theorem step_counted (counted : Counted chain) (operation : Operation)
    (few : (Invariant.step h chain operation).events.length < 2 ^ 64) :
    Counted (Invariant.step h chain operation) := by
  rcases call_cases h chain operation with ⟨_, events, sequence⟩ | ⟨e, _, next, events, sequence⟩
  · exact ⟨by rw [events]; exact counted.numbered, by rw [events, sequence]; exact counted.sequence⟩
  · rw [events, length_append, length_singleton] at few
    have here := counted.sequence
    refine ⟨?_, ?_⟩
    · rw [events, numbered_concat]
      refine ⟨counted.numbered, ?_⟩
      rw [number, next, here, Nat.zero_add]
    · rw [events, sequence (by omega), here, length_append, length_singleton]

/-! ### What is still to come -/

def eventOf : ChainItem → Option ChainEvent
  | .event e => some e
  | .lagged .. => none

def World.seen (w : World) : List ChainEvent := w.items.filterMap eventOf

def World.unlagged (w : World) : Prop := ∀ item ∈ w.items, (eventOf item).isSome

instance (w : World) : Decidable w.unlagged := inferInstanceAs (Decidable (∀ item ∈ w.items, (eventOf item).isSome))

/-- The matching events the subscription has yet to yield, in their order: the rest of
the page, the rest of the replay and the live feed. -/
def World.remaining (w : World) : List ChainEvent :=
  w.sub.page ++ window w.chain.events w.sub.cursor.toNat w.sub.stop.toNat w.sub.filter.kindPrefix ++
    w.sub.rx.pending.filter (kindMatches w.sub.filter.kindPrefix)

def World.expected (w : World) (start : Nat) : List ChainEvent :=
  window w.chain.events start w.chain.events.length w.sub.filter.kindPrefix

/-- The account a subscription keeps. `live` is the number its live feed delivers next. -/
structure Tracks (kinds : Option String) (start live : Nat) (w : World) : Prop where
  kinds : w.sub.filter.kindPrefix = kinds
  counted : Counted w.chain
  cursor : w.sub.cursor ≤ w.sub.stop
  paged : ∀ e ∈ w.sub.page, number e < w.sub.stop.toNat
  stop : w.sub.stop.toNat ≤ live
  within : live ≤ w.chain.events.length
  pending : w.sub.rx.pending = w.chain.events.drop live
  begun : start ≤ w.sub.resumeFrom.toNat
  resume : w.sub.resumeFrom.toNat ≤ live
  passed : ∀ e ∈ w.seen, number e < w.sub.resumeFrom.toNat
  ahead : ∀ e ∈ w.remaining, w.sub.resumeFrom.toNat ≤ number e
  sublist : (w.seen ++ w.remaining).Sublist (w.expected start)
  exact : w.unlagged → w.seen ++ w.remaining = w.expected start

variable {e : ChainEvent} {sub : ChainSubscription}

section
variable {kinds : Option String} {start live : Nat} {w : World}

theorem Tracks.sorted (tracks : Tracks kinds start live w) : (w.seen ++ w.remaining).Pairwise (number · < number ·) :=
  (window_sorted _ tracks.counted.numbered _ _).sublist tracks.sublist

theorem Tracks.succ (tracks : Tracks kinds start live w) (small : number e < w.chain.events.length) :
    (e.sequence + 1).toNat = number e + 1 := by
  have count := tracks.counted.sequence
  have room := w.chain.sequence.toNat_lt
  exact toNat_succ (by change number e + 1 < 2 ^ 64; omega)

theorem start_tracks (counted : Counted chain) {filter : ChainFilter}
    (accepted : subscribe chain filter = .ok sub) :
    Tracks filter.kindPrefix (filter.first chain.sequence).toNat chain.events.length (World.start chain sub) := by
  simp only [subscribe, bind_ok_iff, pure_ok_iff] at accepted
  obtain ⟨_, _, rfl⟩ := accepted
  have first : filter.first chain.sequence ≤ chain.sequence := by
    rw [ChainFilter.first]
    split_ifs with below
    · exact below
    · exact UInt64.le_refl _
  have remaining : (World.start chain (.new filter .fresh chain.sequence)).remaining =
      (World.start chain (.new filter .fresh chain.sequence)).expected (filter.first chain.sequence).toNat := by
    simp [World.remaining, World.expected, World.start, ChainSubscription.new, counted.sequence]
  constructor
  case kinds => rfl
  case counted => exact counted
  case cursor => exact first
  case paged => exact fun e listed => absurd listed not_mem_nil
  case stop => exact counted.sequence.le
  case within => exact Nat.le_refl _
  case pending => exact drop_length.symm
  case begun => exact Nat.le_refl _
  case resume =>
    rw [← counted.sequence]
    exact UInt64.le_iff_toNat_le.mp first
  case passed => exact fun e listed => absurd listed not_mem_nil
  case ahead =>
    intro e listed
    rw [remaining] at listed
    exact (window_mem _ counted.numbered listed).2.1
  case sublist => rw [remaining]; exact List.Sublist.refl _
  case exact => exact fun _ => remaining

/-- What every turn keeps: the filter and the end of the replay, the bounds of the page,
and that the feed holds the events from some number on. -/
structure Moves (w : World) (live : Nat) (sub : ChainSubscription) (later : Nat) : Prop where
  filter : sub.filter = w.sub.filter
  stop : sub.stop = w.sub.stop
  cursor : sub.cursor ≤ w.sub.stop
  paged : ∀ e ∈ sub.page, number e < w.sub.stop.toNat
  forward : live ≤ later
  within : later ≤ w.chain.events.length
  pending : sub.rx.pending = w.chain.events.drop later

section
variable (tracks : Tracks kinds start live w)
include tracks

section
variable (moves : Moves w live sub later)
include moves

/-- After a move the account is kept if the new items, with what is then still to come,
account for what was expected before. -/
theorem Tracks.moved
    (yielded : items.filterMap eventOf = seen) (begun : start ≤ sub.resumeFrom.toNat)
    (resume : sub.resumeFrom.toNat ≤ later) (passed : ∀ e ∈ w.seen ++ seen, number e < sub.resumeFrom.toNat)
    (ahead : ∀ e ∈ ({ w with sub := sub } : World).remaining, sub.resumeFrom.toNat ≤ number e)
    (sublist : (w.seen ++ seen ++ ({ w with sub := sub } : World).remaining).Sublist (w.seen ++ w.remaining))
    (exact : (∀ item ∈ items, (eventOf item).isSome) → w.seen ++ seen ++ ({ w with sub := sub } : World).remaining =
      w.seen ++ w.remaining) :
    Tracks kinds start later { w with sub := sub, items := w.items ++ items } := by
  have all : ({ w with sub := sub, items := w.items ++ items } : World).seen = w.seen ++ seen := by
    simp [World.seen, yielded]
  have expected : ({ w with sub := sub, items := w.items ++ items } : World).expected start = w.expected start := by
    simp only [World.expected, moves.filter]
  constructor
  case kinds => rw [moves.filter]; exact tracks.kinds
  case counted => exact tracks.counted
  case cursor => rw [moves.stop]; exact moves.cursor
  case paged => rw [moves.stop]; exact moves.paged
  case stop => rw [moves.stop]; exact tracks.stop.trans moves.forward
  case within => exact moves.within
  case pending => exact moves.pending
  case begun => exact begun
  case resume => exact resume
  case passed => rw [all]; exact passed
  case ahead => exact ahead
  case sublist =>
    rw [all, expected]
    exact sublist.trans tracks.sublist
  case exact =>
    intro unlagged
    have before := tracks.exact fun item listed => unlagged item (mem_append_left _ listed)
    rw [all, expected, ← before]
    exact exact fun item listed => unlagged item (mem_append_right _ listed)

theorem Tracks.skip
    (silent : items.filterMap eventOf = []) (grows : w.sub.resumeFrom ≤ sub.resumeFrom)
    (resume : sub.resumeFrom.toNat ≤ later) (ahead : ∀ e ∈ w.remaining, sub.resumeFrom.toNat ≤ number e)
    (remaining : ({ w with sub := sub } : World).remaining.Sublist w.remaining)
    (kept : items = [] → ({ w with sub := sub } : World).remaining = w.remaining) :
    Tracks kinds start later { w with sub := sub, items := w.items ++ items } := by
  have onward := UInt64.le_iff_toNat_le.mp grows
  apply tracks.moved moves silent (tracks.begun.trans onward) resume
  · intro e listed
    rw [append_nil] at listed
    exact (tracks.passed e listed).trans_le onward
  · exact fun e listed => ahead e (remaining.subset listed)
  · rw [append_nil]
    exact remaining.append_left _
  · intro reported
    have nothing : items = [] := by
      rw [eq_nil_iff_forall_not_mem]
      intro item listed
      have some := reported item listed
      rw [filterMap_eq_nil_iff.mp silent item listed] at some
      cases some
    rw [append_nil, kept nothing]

theorem Tracks.yield (resumeFrom : sub.resumeFrom.toNat = number e + 1)
    (small : number e < later) (remaining : w.remaining = e :: ({ w with sub := sub } : World).remaining) :
    Tracks kinds start later { w with sub := sub, items := w.items ++ [.event e] } := by
  have account : w.seen ++ [e] ++ ({ w with sub := sub } : World).remaining = w.seen ++ w.remaining := by
    rw [remaining, append_assoc, singleton_append]
  have sorted := tracks.sorted
  rw [remaining, pairwise_append, pairwise_cons] at sorted
  obtain ⟨_, ⟨after, _⟩, before⟩ := sorted
  have yielded : [ChainItem.event e].filterMap eventOf = [e] := rfl
  apply tracks.moved moves yielded
  · have listed : e ∈ w.seen ++ w.remaining := by rw [remaining]; simp
    have large := (window_mem _ tracks.counted.numbered (tracks.sublist.subset listed)).2.1
    omega
  · omega
  · intro old listed
    rw [resumeFrom]
    rcases mem_append.mp listed with earlier | last
    · have less := before old earlier e mem_cons_self
      omega
    · rw [mem_singleton.mp last]
      omega
  · intro next listed
    rw [resumeFrom]
    exact after next listed
  · rw [account]
  · exact fun _ => account

end

theorem Tracks.append (counted : Counted chain) (events : chain.events = w.chain.events ++ added)
    (pending : rx.pending = w.sub.rx.pending ++ added) :
    Tracks kinds start live { w with chain := chain, sub := { w.sub with rx := rx } } := by
  have begun := tracks.begun
  have resume := tracks.resume
  have within := tracks.within
  have remaining : ({ w with chain := chain, sub := { w.sub with rx := rx } } : World).remaining =
      w.remaining ++ added.filter (kindMatches w.sub.filter.kindPrefix) := by
    simp only [World.remaining, events, pending, filter_append]
    rw [window_extend _ (prefix_append ..) _ (tracks.stop.trans within)]
    simp only [append_assoc]
  have expected : ({ w with chain := chain, sub := { w.sub with rx := rx } } : World).expected start =
      w.expected start ++ added.filter (kindMatches w.sub.filter.kindPrefix) := by
    simp only [World.expected, events]
    rw [window_length_eq, window_length_eq, drop_append_of_le_length (by omega), filter_append]
  have late : ∀ e ∈ added, w.chain.events.length ≤ number e := by
    have numbered := counted.numbered
    rw [events, numbered_append, Nat.zero_add] at numbered
    exact numbered_le number numbered.2
  refine { tracks with counted, within := ?within, pending := ?pending, ahead := ?ahead, sublist := ?sublist, exact :=
    ?exact }
  case within =>
    rw [events, length_append]
    omega
  case pending =>
    rw [events, drop_append_of_le_length within, ← tracks.pending]
    exact pending
  case ahead =>
    intro e listed
    rw [remaining, mem_append] at listed
    rcases listed with old | new
    · exact tracks.ahead e old
    · exact resume.trans (within.trans (late e (mem_of_mem_filter new)))
  case sublist =>
    rw [remaining, expected, ← append_assoc]
    exact tracks.sublist.append_right _
  case exact =>
    intro unlagged
    rw [remaining, expected, ← append_assoc]
    exact congrArg (· ++ _) (tracks.exact unlagged)

end

end

/-! ### What a turn does -/

/-- Bounds the turns left: each page costs a turn and each of its events another. -/
def ChainSubscription.work (sub : ChainSubscription) : Nat :=
  2 * (sub.stop.toNat - sub.cursor.toNat) + sub.page.length + sub.rx.pending.length

inductive Turned (w : World) (live : Nat) : Turn → ChainSubscription → Nat → Prop where
  | yields {e : ChainEvent} {sub : ChainSubscription} (moves : Moves w live sub later)
      (resumeFrom : sub.resumeFrom.toNat = number e + 1) (small : number e < later)
      (remaining : w.remaining = e :: ({ w with sub := sub } : World).remaining) (less : sub.work < w.sub.work) :
      Turned w live (.yields (.event e)) sub later
  | again {sub : ChainSubscription} (moves : Moves w live sub later)
      (grows : w.sub.resumeFrom ≤ sub.resumeFrom) (resume : sub.resumeFrom.toNat ≤ later)
      (ahead : ∀ e ∈ w.remaining, sub.resumeFrom.toNat ≤ number e)
      (remaining : ({ w with sub := sub } : World).remaining = w.remaining) (less : sub.work < w.sub.work) :
      Turned w live .again sub later
  | lagged {sub : ChainSubscription} (moves : Moves w live sub later)
      (same : sub.resumeFrom = w.sub.resumeFrom)
      (remaining : ({ w with sub := sub } : World).remaining.Sublist w.remaining) (loss : w.sub.rx.lost ≠ []) :
      Turned w live (.yields (.lagged (UInt64.ofNat w.sub.rx.lost.length) w.sub.resumeFrom)) sub later
  | waits (alive : w.alive = true) (remaining : w.remaining = []) : Turned w live .waits w.sub live
  | ends (dropped : w.alive = false) : Turned w live .ends w.sub live

section
variable (search : PartitionPoint ChainEvent) {kinds : Option String} {start live : Nat} {w : World}

theorem remaining_live (read : w.sub.page = []) (done : w.sub.cursor = w.sub.stop) :
    w.remaining = w.sub.rx.pending.filter (kindMatches w.sub.filter.kindPrefix) := by
  rw [World.remaining, read, done, window_self]
  rfl

section
variable (tracks : Tracks kinds start live w)
include tracks

theorem turned_page (paged : w.sub.page = e :: page) :
    Turned w live (.yields (.event e)) { w.sub with page := page, resumeFrom := e.sequence + 1 } live := by
  have bounds := tracks.paged
  rw [paged, forall_mem_cons] at bounds
  have small : number e < live := bounds.1.trans_le tracks.stop
  refine .yields ⟨rfl, rfl, tracks.cursor, bounds.2, Nat.le_refl _, tracks.within, tracks.pending⟩
    (tracks.succ (small.trans_le tracks.within)) small ?_ ?_
  · rw [World.remaining, paged]
    rfl
  · simp only [ChainSubscription.work, paged, length_cons]
    omega

theorem turned_replay (read : w.sub.page = [])
    (replaying : w.sub.cursor < w.sub.stop) :
    let page := w.chain.replayPage search w.sub.cursor w.sub.stop w.sub.filter.kindPrefix REPLAY_PAGE REPLAY_SCAN
    Turned w live .again { w.sub with cursor := if w.sub.cursor < page.2 then page.2 else w.sub.stop, page := page.1 }
      live := by
  intro page
  have numbered := tracks.counted.numbered
  have progress : w.sub.cursor < page.2 :=
    replayPage_progress search numbered replaying w.sub.filter.kindPrefix (by decide) (by decide)
  obtain ⟨_, bounded, collected⟩ : PageRight w.chain.events w.sub.cursor w.sub.stop w.sub.filter.kindPrefix page :=
    replayPage_right search numbered tracks.cursor w.sub.filter.kindPrefix REPLAY_PAGE REPLAY_SCAN
  rw [if_pos progress]
  have forward := UInt64.lt_iff_toNat_lt.mp progress
  have within := UInt64.le_iff_toNat_le.mp bounded
  refine .again ⟨rfl, rfl, bounded, ?_, Nat.le_refl _, tracks.within, tracks.pending⟩ (UInt64.le_refl _)
    tracks.resume tracks.ahead ?_ ?_
  · intro e listed
    rw [collected] at listed
    exact (window_mem _ numbered listed).2.2.trans_le within
  · simp only [World.remaining, read, collected, nil_append]
    rw [window_append _ forward.le within]
  · have size : page.1.length ≤ page.2.toNat - w.sub.cursor.toNat := by
      rw [collected]
      exact window_length_le ..
    simp only [ChainSubscription.work, read, length_nil]
    omega

section
variable (read : w.sub.page = []) (done : w.sub.cursor = w.sub.stop)
  {queue : Receiver ChainEvent CHAIN_SUBSCRIBE_CAPACITY}
include read done

theorem turned_lagged (pending : w.sub.rx.pending = w.sub.rx.lost ++ queue.pending) (loss : w.sub.rx.lost ≠ []) :
    Turned w live (.yields (.lagged (UInt64.ofNat w.sub.rx.lost.length) w.sub.resumeFrom)) { w.sub with rx := queue }
      (live + w.sub.rx.lost.length) := by
  have length : w.sub.rx.pending.length = w.chain.events.length - live := by rw [tracks.pending, length_drop]
  have some := length_pos_iff.mpr loss
  rw [pending, length_append] at length
  refine .lagged ⟨rfl, rfl, tracks.cursor, tracks.paged, by omega, by omega, ?_⟩ rfl ?_ loss
  · rw [← drop_drop, ← tracks.pending, pending, drop_left]
  · rw [remaining_live read done, pending, filter_append, remaining_live (by exact read) (by exact done)]
    exact sublist_append_right ..

/-- The feed delivers the next event: never one of the replay, since the feed begins
where the replay ends. -/
theorem turned_item (pending : w.sub.rx.pending = e :: queue.pending) :
    ¬ e.sequence < w.sub.stop ∧
      Turned w live (if kindMatches w.sub.filter.kindPrefix e then .yields (.event e) else .again)
        { w.sub with rx := queue, resumeFrom := e.sequence + 1 } (live + 1) := by
  have first : w.chain.events.drop live = e :: queue.pending := tracks.pending.symm.trans pending
  have numbered := numbered_from tracks.counted.numbered live
  rw [first] at numbered
  have here : number e = live := numbered.1
  have within : live < w.chain.events.length := by
    have some : (w.chain.events.drop live).length = queue.pending.length + 1 := by rw [first, length_cons]
    rw [length_drop] at some
    omega
  have moves : Moves w live { w.sub with rx := queue, resumeFrom := e.sequence + 1 } (live + 1) := by
    refine ⟨rfl, rfl, tracks.cursor, tracks.paged, Nat.le_succ live, within, ?_⟩
    rw [← drop_drop, first, drop_one, tail_cons]
  have resumeFrom : (e.sequence + 1).toNat = number e + 1 := tracks.succ (by omega)
  have less : ({ w.sub with rx := queue, resumeFrom := e.sequence + 1 } : ChainSubscription).work < w.sub.work := by
    simp only [ChainSubscription.work, pending, length_cons]
    omega
  have remaining : w.remaining = (e :: queue.pending).filter (kindMatches w.sub.filter.kindPrefix) := by
    rw [remaining_live read done, pending]
  constructor
  · rw [UInt64.lt_iff_toNat_lt]
    change ¬ number e < _
    have := tracks.stop
    omega
  by_cases matched : kindMatches w.sub.filter.kindPrefix e = true
  · rw [if_pos matched]
    apply Turned.yields moves resumeFrom (by omega) _ less
    rw [remaining, filter_cons_of_pos matched, remaining_live (by exact read) (by exact done)]
  · rw [if_neg matched]
    rw [filter_cons_of_neg matched] at remaining
    have resume := tracks.resume
    apply Turned.again moves _ (by rw [resumeFrom]; omega) _ _ less
    · rw [UInt64.le_iff_toNat_le, resumeFrom]
      omega
    · intro later listed
      rw [remaining] at listed
      have after := numbered_le number numbered.2 later (mem_of_mem_filter listed)
      rw [resumeFrom]
      omega
    · rw [remaining, remaining_live (by exact read) (by exact done)]

theorem turned_live :
    ∃ later, Turned w live (w.sub.receive w.current.isNone).1 (w.sub.receive w.current.isNone).2 later := by
  rw [ChainSubscription.receive]
  rcases w.sub.rx.recv_cases with
    ⟨queue, pending, loss, received⟩ | ⟨e, queue, pending, received⟩ | ⟨pending, received⟩
  · rw [received]
    exact ⟨_, turned_lagged tracks read done pending loss⟩
  · obtain ⟨fresh, turned⟩ := turned_item tracks read done pending
    rw [received]
    dsimp only
    rw [if_neg fresh]
    refine ⟨live + 1, ?_⟩
    split_ifs at turned ⊢ <;> exact turned
  · rw [received]
    cases alive : w.alive with
    | true =>
      rw [World.current, alive]
      exact ⟨live, .waits alive (by rw [remaining_live read done, pending, filter_nil])⟩
    | false =>
      rw [World.current, alive]
      exact ⟨live, .ends alive⟩

end

theorem turn_turned :
    ∃ later, Turned w live (w.sub.turn search w.current).1 (w.sub.turn search w.current).2 later := by
  unfold ChainSubscription.turn
  rcases page : w.sub.page with _ | ⟨e, rest⟩
  · by_cases replaying : w.sub.cursor < w.sub.stop
    · rw [if_pos replaying, World.current]
      cases alive : w.alive with
      | true => exact ⟨live, turned_replay search tracks page replaying⟩
      | false => exact ⟨live, .ends alive⟩
    · rw [if_neg replaying]
      exact turned_live tracks page (UInt64.le_antisymm tracks.cursor (UInt64.not_lt.mp replaying))
  · exact ⟨live, turned_page tracks page⟩

theorem next_tracks (h : Hashing) :
    ∃ later, Tracks kinds start later (w.step h search .next) := by
  obtain ⟨later, turned⟩ := turn_turned search tracks
  rw [World.step]
  generalize w.sub.turn search w.current = outcome at turned
  obtain ⟨turn, sub⟩ := outcome
  cases turned with
  | yields moves resumeFrom small remaining => exact ⟨later, tracks.yield moves resumeFrom small remaining⟩
  | again moves grows resume ahead remaining =>
    exact ⟨later, tracks.skip moves rfl grows resume ahead (by rw [remaining]) fun _ => remaining⟩
  | lagged moves same remaining =>
    refine ⟨later, tracks.skip moves rfl (by rw [same]; exact UInt64.le_refl _) ?_ ?_ remaining nofun⟩
    · rw [same]
      exact tracks.resume.trans moves.forward
    · rw [same]
      exact tracks.ahead
  | waits alive remaining | ends dropped =>
    change ∃ later, Tracks kinds start later { w with items := w.items ++ [] }
    rw [append_nil]
    exact ⟨live, tracks⟩

theorem call_tracks
    (few : (w.step h search (.call operation)).chain.events.length < 2 ^ 64) :
    Tracks kinds start live (w.step h search (.call operation)) := by
  rw [World.step] at few ⊢
  by_cases alive : w.alive = true
  · rw [if_pos alive] at few ⊢
    refine tracks.append (step_counted tracks.counted operation few) (step_publishes h w.chain operation) ?_
    cases published h w.chain operation with
    | none => exact (append_nil _).symm
    | some e => exact w.sub.rx.pending_send e
  · rw [if_neg alive]
    exact tracks

theorem step_tracks
    (few : (w.step h search label).chain.events.length < 2 ^ 64) :
    ∃ later, Tracks kinds start later (w.step h search label) := by
  cases label with
  | call operation => exact ⟨live, call_tracks search tracks few⟩
  | next => exact next_tracks search tracks h
  | drop =>
    exact ⟨live, { tracks with }⟩

end

end

section
variable (h : Hashing) (search : PartitionPoint ChainEvent) {operations : List Operation} {kinds : Option String}
  {start live : Nat} {w : World}

theorem step_grows (w : World) (label : Label) : w.chain.events <+: (w.step h search label).chain.events := by
  cases label with
  | call operation =>
    unfold World.step
    split_ifs
    · exact ⟨_, (step_publishes h w.chain operation).symm⟩
    · exact prefix_refl _
  | next | drop => exact prefix_refl _

theorem run_grows (w : World) (labels : List Label) : w.chain.events <+: (w.run h search labels).chain.events := by
  induction labels generalizing w with
  | nil => exact prefix_refl _
  | cons label rest ih => exact (step_grows h search w label).trans (ih (w.step h search label))

theorem run_tracks (tracks : Tracks kinds start live w)
    (few : (w.run h search labels).chain.events.length < 2 ^ 64) :
    ∃ later, Tracks kinds start later (w.run h search labels) := by
  induction labels generalizing live w with
  | nil => exact ⟨live, tracks⟩
  | cons label rest ih =>
    have grows := (run_grows h search (w.step h search label) rest).length_le
    obtain ⟨later, next⟩ := step_tracks search tracks (grows.trans_lt few)
    exact ih next few

theorem run_counted (counted : Counted chain)
    (few : (run h chain operations).events.length < 2 ^ 64) : Counted (run h chain operations) := by
  induction operations generalizing chain with
  | nil => exact counted
  | cons operation rest ih =>
    have grows := (run_events_kept h (Invariant.step h chain operation) rest).length_le
    exact ih (step_counted counted operation (grows.trans_lt few)) few

/-! ### What was yielded -/

section
variable (tracks : Tracks kinds start live w)
include tracks

theorem Tracks.seen_eq (unlagged : w.unlagged) :
    w.seen = window w.chain.events start w.sub.resumeFrom.toNat kinds := by
  have exact := tracks.exact unlagged
  rw [World.expected, tracks.kinds] at exact
  exact window_cut kinds tracks.counted.numbered exact tracks.begun (tracks.resume.trans tracks.within)
    tracks.passed tracks.ahead

theorem Tracks.seen_all (unlagged : w.unlagged) (nothing : w.remaining = []) :
    w.seen = window w.chain.events start w.chain.events.length kinds := by
  have exact := tracks.exact unlagged
  rwa [nothing, append_nil, World.expected, tracks.kinds] at exact

theorem waits_remaining (waits : (w.sub.turn search w.current).1 = .waits) :
    w.remaining = [] := by
  obtain ⟨later, turned⟩ := turn_turned search tracks
  rw [waits] at turned
  generalize (w.sub.turn search w.current).2 = sub at turned
  cases turned with
  | waits alive remaining => exact remaining

/-- Left alone, a subscriber reads everything there is or learns of a loss. -/
theorem settles (alive : w.alive = true) :
    ∃ n, (w.run h search (replicate n .next)).chain = w.chain ∧
      ((w.run h search (replicate n .next)).unlagged →
        (w.run h search (replicate n .next)).remaining = []) := by
  induction bound : w.sub.work using Nat.strong_induction_on generalizing live w with
  | _ size ih =>
  obtain ⟨later, turned⟩ := turn_turned search tracks
  have stepped : w.step h search .next = { w with
      sub := (w.sub.turn search w.current).2, items := w.items ++ (w.sub.turn search w.current).1.items } := rfl
  generalize w.sub.turn search w.current = outcome at turned stepped
  obtain ⟨turn, sub⟩ := outcome
  cases turned with
  | yields moves resumeFrom small remaining less | again moves grows resume ahead remaining less =>
    -- a turn that reads something leaves less work
    have fewer : (w.step h search .next).sub.work < size := by rw [stepped, ← bound]; exact less
    obtain ⟨later, next⟩ := next_tracks search tracks h
    obtain ⟨n, same, done⟩ := ih _ fewer next alive rfl
    exact ⟨n + 1, same, done⟩
  | lagged =>
    refine ⟨1, rfl, fun unlagged => ?_⟩
    change (w.step h search .next).unlagged at unlagged
    rw [stepped] at unlagged
    have reported := unlagged _ (mem_append_right _ mem_cons_self)
    cases reported
  | waits alive remaining => exact ⟨0, rfl, fun _ => remaining⟩
  | ends dropped =>
    rw [dropped] at alive
    cases alive

/-- A report names what was lost and where to resume: nothing lost is older, nothing
yielded is newer. -/
theorem lagged_report (lagged : (w.sub.turn search w.current).1 = .yields (.lagged missed resumeFrom)) :
    missed = UInt64.ofNat w.sub.rx.lost.length ∧ resumeFrom = w.sub.resumeFrom ∧
      (∀ e ∈ w.sub.rx.lost, e ∈ w.chain.events ∧ resumeFrom ≤ e.sequence) ∧
      ∀ e ∈ w.seen, e.sequence < resumeFrom := by
  obtain ⟨later, turned⟩ := turn_turned search tracks
  rw [lagged] at turned
  generalize (w.sub.turn search w.current).2 = sub at turned
  cases turned with
  | lagged =>
    refine ⟨rfl, rfl, ?_, ?_⟩
    · intro e lost
      have pending : e ∈ w.sub.rx.pending := mem_append_left _ lost
      rw [tracks.pending] at pending
      have late := numbered_le number (numbered_from tracks.counted.numbered live) e pending
      exact ⟨mem_of_mem_drop pending, UInt64.le_iff_toNat_le.mpr (tracks.resume.trans late)⟩
    · intro e listed
      exact UInt64.lt_iff_toNat_lt.mpr (tracks.passed e listed)

theorem resume_tracks (unlagged : w.unlagged)
    (accepted : subscribe (run h w.chain operations) ⟨kinds, some w.sub.resumeFrom⟩ = .ok sub)
    (few : ((World.start (run h w.chain operations) sub).run h search labels).chain.events.length < 2 ^ 64)
    (clean : ((World.start (run h w.chain operations) sub).run h search labels).unlagged) :
    let next := (World.start (run h w.chain operations) sub).run h search labels
    w.seen ++ next.seen = window next.chain.events start next.sub.resumeFrom.toNat kinds := by
  intro next
  have before := run_events_kept h w.chain operations
  have after : (run h w.chain operations).events <+: next.chain.events :=
    run_grows h search (World.start (run h w.chain operations) sub) labels
  have counted := run_counted h tracks.counted (after.length_le.trans_lt few)
  -- the report is not past the head, so the replay begins exactly there
  have reached : w.sub.resumeFrom ≤ (run h w.chain operations).sequence := by
    rw [UInt64.le_iff_toNat_le, counted.sequence]
    exact (tracks.resume.trans tracks.within).trans before.length_le
  obtain ⟨later, resumed⟩ := run_tracks h search (start_tracks counted accepted) few
  have first : ChainFilter.first ⟨kinds, some w.sub.resumeFrom⟩ (run h w.chain operations).sequence =
      w.sub.resumeFrom := if_pos reached
  rw [first] at resumed
  rw [tracks.seen_eq unlagged, resumed.seen_eq clean,
    ← window_extend kinds (before.trans after) start (tracks.resume.trans tracks.within)]
  exact window_append kinds tracks.begun resumed.begun

end

/-- No gap and no duplicate, along any interleaving of calls with the turns of `next`, up to a report of a loss;
and a subscription accepted from the number a report gives continues exactly. -/
theorem subscription_exact {chain : LocalChain} (counted : Counted chain) {filter : ChainFilter}
    {sub : ChainSubscription} (accepted : subscribe chain filter = .ok sub) (labels : List Label)
    (few : ((World.start chain sub).run h search labels).chain.events.length < 2 ^ 64) :
    let w := (World.start chain sub).run h search labels
    let start := (filter.first chain.sequence).toNat
    (w.unlagged →
      w.seen = window w.chain.events start w.sub.resumeFrom.toNat filter.kindPrefix ∧
      ((w.sub.turn search w.current).1 = .waits →
        w.seen = window w.chain.events start w.chain.events.length filter.kindPrefix) ∧
      (w.alive = true → ∃ n, let later := w.run h search (replicate n .next)
        later.chain = w.chain ∧ (later.unlagged →
          later.seen = window w.chain.events start w.chain.events.length filter.kindPrefix))) ∧
    ∀ missed resumeFrom, (w.sub.turn search w.current).1 = .yields (.lagged missed resumeFrom) →
      missed = UInt64.ofNat w.sub.rx.lost.length ∧
      (∀ e ∈ w.sub.rx.lost, e ∈ w.chain.events ∧ resumeFrom ≤ e.sequence) ∧
      (∀ e ∈ w.seen, e.sequence < resumeFrom) ∧
      (w.unlagged → ∀ operations sub labels,
        subscribe (run h w.chain operations) { filter with fromSeq := some resumeFrom } = .ok sub →
        let next := (World.start (run h w.chain operations) sub).run h search labels
        next.chain.events.length < 2 ^ 64 → next.unlagged →
          w.seen ++ next.seen = window next.chain.events start next.sub.resumeFrom.toNat filter.kindPrefix) := by
  intro w start
  obtain ⟨live, tracks⟩ := run_tracks h search (start_tracks counted accepted) few
  refine ⟨fun unlagged => ⟨tracks.seen_eq unlagged, ?_, ?_⟩, ?_⟩
  · intro waits
    exact tracks.seen_all unlagged (waits_remaining search tracks waits)
  · intro alive
    obtain ⟨n, same, done⟩ := settles h search tracks alive
    refine ⟨n, same, fun clean => ?_⟩
    have short : (w.run h search (replicate n .next)).chain.events.length < 2 ^ 64 := by
      rw [same]
      exact few
    obtain ⟨_, later⟩ := run_tracks h search tracks short
    rw [later.seen_all clean (done clean), same]
  · intro missed resumeFrom lagged
    obtain ⟨count, rfl, lost, yielded⟩ := lagged_report search tracks lagged
    refine ⟨count, lost, yielded, ?_⟩
    intro unlagged operations sub labels accepted next few clean
    exact resume_tracks h search tracks unlagged accepted few clean

end

/-- A new chain, a subscription from number five and one append: the live feed begins at
the head, so the subscriber gets number one. -/
theorem beyond_head_yields_older :
    ∃ sub e, subscribe (ChainManager.new .sample 0 0 .epoch) ⟨none, some 5⟩ = .ok sub ∧
      e ∈ ((World.start (ChainManager.new .sample 0 0 .epoch) sub).run .sample (.linear ChainEvent)
        [.call (.append "app" "note" none .epoch none), .next]).seen ∧ e.sequence < 5 :=
  ⟨_, _, rfl, mem_cons_self, by decide⟩

/-- Genesis is replayed, the next event comes live; then the subscriber waits. -/
theorem replay_then_live :
    ∃ sub, subscribe (ChainManager.new .sample 0 0 .epoch) ⟨none, some 0⟩ = .ok sub ∧
      let w := (World.start (ChainManager.new .sample 0 0 .epoch) sub).run .sample (.linear ChainEvent)
        [.next, .call (.append "app" "note" none .epoch none), .next, .next]
      w.seen.length = 2 ∧ w.seen = window w.chain.events 0 w.sub.resumeFrom.toNat none := by
  have accepted : subscribe (ChainManager.new .sample 0 0 .epoch) ⟨none, some 0⟩ =
      .ok (.new ⟨none, some 0⟩ .fresh 1) := rfl
  refine ⟨_, accepted, by decide +kernel, ?_⟩
  have genesis := Sound.toCounted (genesis_sound .sample 0 0 .epoch)
  exact ((subscription_exact .sample (.linear ChainEvent) genesis accepted
    [.next, .call (.append "app" "note" none .epoch none), .next, .next] (by decide +kernel)).1 (by decide +kernel)).1

end Weftos.Chain.Subscribe
