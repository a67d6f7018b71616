import Mathlib.Algebra.Order.Group.Nat
import Mathlib.Data.List.Induction
import Weftos.Lib.Run

/-! How often a supervisor restarts an instance. -/

namespace Weftos.Workload.Restart
open List Lib.Run

def U64_MAX : Nat := 2 ^ 64 - 1

structure RestartPolicy where
  maxRestarts : Nat
  windowMs : Nat
  backoffBaseMs : Nat
  backoffMaxMs : Nat

inductive RestartDecision where
  | restart (attempt : Nat)
  | wait (untilMs : Nat)
  | exhausted

variable (policy : RestartPolicy)

def fresh (now t : Nat) : Bool := now - t < policy.windowMs

def backoff (n : Nat) : Nat := min (min (policy.backoffBaseMs * 2 ^ min (n - 1) 20) U64_MAX) policy.backoffMaxMs

def restartDecision (restarts : List Nat) (now : Nat) : RestartDecision :=
  let recent := restarts.filter (fresh policy now)
  let n := recent.length
  if n ≥ policy.maxRestarts then .exhausted
  else
    let until_ := recent.getLast?.map fun last => min (last + backoff policy n) U64_MAX
    if now < until_.getD 0 then .wait (until_.getD 0) else .restart (n + 1)

def recordRestart (restarts : List Nat) (now : Nat) : List Nat := restarts.filter (fresh policy now) ++ [now]

structure InstanceLife where
  restarts : List Nat := []
  done : List Nat := []

def step (s : InstanceLife) (now : Nat) : InstanceLife :=
  match restartDecision policy s.restarts now with
  | .restart _ => ⟨recordRestart policy s.restarts now, s.done ++ [now]⟩
  | .wait _ | .exhausted => s

/-! ### What is recorded -/

structure Inv (s : InstanceLife) (now : Nat) : Prop where
  kept : ∀ t, now ≤ t → s.restarts.filter (fresh policy t) = s.done.filter (fresh policy t)
  past : ∀ t ∈ s.done, t ≤ now
  few : ∀ a, (s.done.filter fun t => a ≤ t ∧ t - a < policy.windowMs).length ≤ policy.maxRestarts

variable {policy}

theorem Inv.later {prev : Nat} (inv : Inv policy s prev) (order : prev ≤ now) : Inv policy s now :=
  ⟨fun t after => inv.kept t (order.trans after), fun t listed => (inv.past t listed).trans order, inv.few⟩

theorem Inv.step {s : InstanceLife} (inv : Inv policy s now) : Inv policy (step policy s now) now := by
  unfold Restart.step
  cases decided : restartDecision policy s.restarts now with
  | wait | exhausted => exact inv
  | restart attempt =>
    have room : (s.done.filter (fresh policy now)).length < policy.maxRestarts := by
      rw [← inv.kept now (le_refl _)]
      simp only [restartDecision] at decided
      split_ifs at decided with full
      omega
    constructor
    case kept =>
      intro t after
      rw [recordRestart, filter_append, filter_append, filter_filter, ← inv.kept t after]
      congr 1
      apply filter_congr
      simp only [fresh]
      grind
    case past => exact forall_mem_append.mpr ⟨inv.past, by simp⟩
    case few =>
      intro a
      rw [filter_append, length_append]
      by_cases inside : a ≤ now ∧ now - a < policy.windowMs
      · have sub : (s.done.filter fun t => a ≤ t ∧ t - a < policy.windowMs) <+ s.done.filter (fresh policy now) := by
          apply monotone_filter_right
          simp only [fresh]
          grind
        simpa [inside] using Nat.succ_le_of_lt (sub.length_le.trans_lt room)
      · simpa [inside] using inv.few a

theorem inv_run (times : List Nat) (now : Nat) (order : (times ++ [now]).Pairwise (· ≤ ·)) :
    Inv policy (run (step policy) {} times) now := by
  induction times using reverseRecOn generalizing now with
  | nil => exact ⟨fun _ _ => rfl, by simp, by simp⟩
  | append_singleton times prev ih =>
    obtain ⟨before, -, after⟩ := pairwise_append.mp order
    rw [run_append]
    exact (ih prev before).step.later (after prev (by simp) now (by simp))

/-- A window holds at most `max_restarts` restarts, and the budget is spent exactly when it holds that many. -/
theorem restarts_bounded (times : List Nat) (now : Nat) (order : (times ++ [now]).Pairwise (· ≤ ·))
    (early : now < U64_MAX) :
    let s := run (step policy) {} times
    let n := (s.done.filter (fresh policy now)).length
    (∀ a b, b - a < policy.windowMs → (s.done.filter fun t => a ≤ t ∧ t ≤ b).length ≤ policy.maxRestarts) ∧
    (∀ attempt, restartDecision policy s.restarts now = .restart attempt →
      ∀ last ∈ s.done.getLast?, now - last < policy.windowMs → last + backoff policy n ≤ now) ∧
    (restartDecision policy s.restarts now = .exhausted ↔ policy.maxRestarts ≤ n) := by
  intro s n
  have inv : Inv policy s now := inv_run times now order
  have same : s.restarts.filter (fresh policy now) = s.done.filter (fresh policy now) := inv.kept now (le_refl _)
  refine ⟨?_, ?_, ?_⟩
  · intro a b short
    have sub : (s.done.filter fun t => a ≤ t ∧ t ≤ b) <+ s.done.filter fun t => a ≤ t ∧ t - a < policy.windowMs := by
      apply monotone_filter_right
      grind
    exact sub.length_le.trans (inv.few a)
  · intro attempt decided last newest inWindow
    obtain ⟨older, ends⟩ := getLast?_eq_some_iff.mp newest
    have recent : (s.done.filter (fresh policy now)).getLast? = some last := by
      simp [ends, fresh, inWindow]
    simp only [restartDecision, same, recent] at decided
    split_ifs at decided with full wait
    rw [Option.map_some, Option.getD_some] at wait
    change last + backoff policy (s.done.filter (fresh policy now)).length ≤ now
    omega
  · simp only [restartDecision, same]
    split_ifs <;> simp_all [n]

def twice : RestartPolicy := ⟨2, 60000, 1000, 8000⟩

theorem restarts_bounded_twice : restartDecision twice [1000, 2000] 5000 = .exhausted :=
  (restarts_bounded [1000, 1500, 2000] 5000 (by decide) (by decide)).2.2.mpr (by decide)

-- the supervisor's clock is an `i64` of milliseconds; at the end of a `u64` the wait would be cut short
example : restartDecision twice [U64_MAX - 1] U64_MAX = .restart 2 ∧ backoff twice 1 = 1000 := ⟨rfl, rfl⟩

end Weftos.Workload.Restart
