import Mathlib.Tactic.Common

/-! Fallible computations: what a successful sequence of checks has established. -/

namespace Weftos.Lib.Outcome

variable {ε δ α β : Type}

def ensure (condition : Prop) [Decidable condition] (refusal : ε) : Except ε Unit :=
  if condition then .ok () else .error refusal

def require (value : Option α) (refusal : ε) : Except ε α :=
  match value with
  | some value => .ok value
  | none => .error refusal

@[simp] theorem bind_ok_iff {first : Except ε α} {next : α → Except ε β} {result : β} :
    (first >>= next) = .ok result ↔ ∃ value, first = .ok value ∧ next value = .ok result := by
  cases first with
  | error refusal | ok value => simp [bind, Except.bind]

@[simp] theorem pure_ok_iff : (pure value : Except ε α) = .ok result ↔ value = result := by
  simp [pure, Except.pure]

theorem map_ok_iff {first : Except ε α} {convert : α → β} {result : β} :
    (convert <$> first) = .ok result ↔ ∃ value, first = .ok value ∧ convert value = result := by
  cases first with
  | error refusal | ok value => simp [Functor.map, Except.map]

@[simp] theorem ensure_ok_iff {condition : Prop} [Decidable condition] :
    ensure condition refusal = .ok result ↔ condition := by
  by_cases holds : condition <;> simp [ensure, holds]

@[simp] theorem require_ok_iff : require value refusal = .ok result ↔ value = some result := by
  cases value <;> simp [require]

@[simp] theorem mapError_ok_iff {attempt : Except ε α} {convert : ε → δ} {result : α} :
    attempt.mapError convert = .ok result ↔ attempt = .ok result := by
  cases attempt with
  | error refusal | ok value => simp [Except.mapError]

def okAnd (attempt : Except ε α) (test : α → Bool) : Bool :=
  match attempt with
  | .ok value => test value
  | .error _ => false

theorem okAnd_iff : okAnd attempt test = true ↔ ∃ value, attempt = .ok value ∧ test value = true := by
  cases attempt with
  | error refusal | ok value => simp [okAnd]

section
variable {attempt : Except ε α} {P : α → Prop} [DecidablePred P]

instance decOkEx : Decidable (∃ value, attempt = .ok value ∧ P value) :=
  decidable_of_iff (okAnd attempt fun value => decide (P value)) (by simp [okAnd_iff])

instance decOkAll : Decidable (∀ value, attempt = .ok value → P value) :=
  decidable_of_iff (¬∃ value, attempt = .ok value ∧ ¬P value) (by simp)

end

end Weftos.Lib.Outcome
