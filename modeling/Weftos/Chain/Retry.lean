import Weftos.Chain.Invariant
import Weftos.Lib.Run

/-! Writes that are repeated: an idempotency key stands for one event as far as the lookback reaches. -/

namespace Weftos.Chain.Retry
open Lib.Bytes Lib.Json Event Local Invariant List LocalChain

/-- Two events of the key are further apart than the lookback. -/
def Spaced (key : Digest) (events : List ChainEvent) : Prop :=
  ∀ i j first second, i < j → events[i]? = some first → events[j]? = some second →
    first.idempotencyKey = some key → second.idempotencyKey = some key → i + IDEMPOTENCY_LOOKBACK < j

/-- The events a retry looks at. -/
def recent (events : List ChainEvent) : List ChainEvent := events.drop (events.length - IDEMPOTENCY_LOOKBACK)

variable {key : Digest} {events : List ChainEvent} {event : ChainEvent} {chain : LocalChain}

theorem Spaced.append (spaced : Spaced key events)
    (new : event.idempotencyKey = some key → ∀ e ∈ recent events, e.idempotencyKey ≠ some key) :
    Spaced key (events ++ [event]) := by
  intro i j first second order here there mine same
  have bound : j < events.length + 1 := by simpa using (List.getElem?_eq_some_iff.mp there).1
  rw [getElem?_append_left (by omega)] at here
  obtain inside | rfl : j < events.length ∨ j = events.length := by omega
  · rw [getElem?_append_left inside] at there
    exact spaced i j first second order here there mine same
  · obtain rfl : event = second := by simpa using there
    by_contra near
    have at_ : events.length - IDEMPOTENCY_LOOKBACK + (i - (events.length - IDEMPOTENCY_LOOKBACK)) = i := by omega
    refine new same first (mem_of_getElem? (i := i - (events.length - IDEMPOTENCY_LOOKBACK)) ?_) mine
    rw [recent, getElem?_drop, at_, here]

theorem recentByKey_eq : chain.recentByKey key = (recent chain.events).reverse.find? (·.idempotencyKey = some key) :=
  rfl

theorem recentByKey_none : chain.recentByKey key = none ↔ ∀ e ∈ recent chain.events, e.idempotencyKey ≠ some key := by
  simp [recentByKey_eq]

/-- Of the events a retry looks at, at most one has the key. -/
theorem Spaced.unique (spaced : Spaced key events) (listed : event ∈ recent events) (other : event' ∈ recent events)
    (mine : event.idempotencyKey = some key) (same : event'.idempotencyKey = some key) : event' = event := by
  obtain ⟨i, here⟩ := mem_iff_getElem?.mp listed
  obtain ⟨j, there⟩ := mem_iff_getElem?.mp other
  rw [recent, getElem?_drop] at here there
  have first := (List.getElem?_eq_some_iff.mp here).1
  have second := (List.getElem?_eq_some_iff.mp there).1
  obtain before | rfl | after := lt_trichotomy i j
  · have := spaced _ _ _ _ (Nat.add_lt_add_left before _) here there mine same
    omega
  · exact Option.some.inj (there.symm.trans here)
  · have := spaced _ _ _ _ (Nat.add_lt_add_left after _) there here same mine
    omega

theorem Spaced.found (spaced : Spaced key chain.events) (listed : event ∈ recent chain.events)
    (mine : event.idempotencyKey = some key) : chain.recentByKey key = some event := by
  cases found : chain.recentByKey key with
  | none => exact absurd mine (recentByKey_none.mp found event listed)
  | some other =>
    rw [recentByKey_eq] at found
    have same : other.idempotencyKey = some key := by simpa using find?_some found
    rw [spaced.unique listed (mem_reverse.mp (mem_of_find?_eq_some found)) mine same]

theorem step_spaced (h : Hashing) (spaced : Spaced key chain.events) (call : Operation)
    (foreign : ∀ event now, call = .appendSigned event now → event.idempotencyKey ≠ some key) :
    Spaced key (step h chain call).events := by
  cases call with
  | append source kind payload now stamp =>
    simp only [step, LocalChain.append, appendWithKey, push_events]
    exact spaced.append (by simp [nextEvent])
  | appendIdempotent source kind payload k now stamp =>
    simp only [step, appendIdempotent]
    split
    · exact spaced
    next missing =>
      simp only [appendWithKey, push_events]
      refine spaced.append fun (mine : k = some key) => recentByKey_none.mp ?_
      simpa [mine] using missing
  | appendSigned event now =>
    obtain ⟨refusal, refused⟩ | ⟨-, pushed⟩ := appendSigned_cases h chain event now
    · simpa [step, refused] using spaced
    · simp only [step, pushed, push_events]
      exact spaced.append fun mine => absurd mine (foreign event now rfl)
  | checkpoint now => exact spaced

/-- A key that no signed event brings in stands for one event within the lookback: a write repeated there adds
nothing and returns that event, and the key comes again only past it. -/
theorem retried_once (h : Hashing) (chainId : UInt32) (interval : UInt64) (start : Timestamp)
    (operations : List Operation)
    (key : Digest) (foreign : ∀ event now, .appendSigned event now ∈ operations → event.idempotencyKey ≠ some key) :
    let chain := run h (ChainManager.new h chainId interval start) operations
    Spaced key chain.events ∧
      ∀ event ∈ recent chain.events, event.idempotencyKey = some key → ∀ source kind payload now stamp,
        chain.appendIdempotent h source kind payload (some key) now stamp = (chain, event) := by
  intro chain
  have spaced : Spaced key chain.events := by
    have first : Spaced key (ChainManager.new h chainId interval start).events := by
      simp only [ChainManager.new, LocalChain.append, appendWithKey, push_events]
      exact Spaced.append (by simp [LocalChain.new, Spaced]) (by simp [nextEvent])
    have always := Lib.Run.run_keeps_mem (fun (chain : LocalChain) call (spaced : Spaced key chain.events) fine =>
      step_spaced h spaced call fine) first fun call listed event now same => foreign event now (same ▸ listed)
    exact always
  refine ⟨spaced, fun event listed mine source kind payload now stamp => ?_⟩
  simp [appendIdempotent, spaced.found listed mine]

theorem retried_once_sample :
    Spaced .zero (run .sample (ChainManager.new .sample 0 2 .epoch) sampleOperations).events :=
  (retried_once .sample 0 2 .epoch sampleOperations .zero (by simp [sampleOperations])).1

end Weftos.Chain.Retry
