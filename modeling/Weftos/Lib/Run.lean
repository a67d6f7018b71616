import Mathlib.Data.List.Basic

/-! Runs of a system. An action that is not possible in a state leaves it as it is, so that every list of
actions is a run. -/

namespace Weftos.Lib.Run

section
variable {σ α : Type} (step : σ → α → σ)

def run (s : σ) (acts : List α) : σ := acts.foldl step s

/-- `ok` holds of every action of the run in the state it finds. -/
def Along (ok : σ → α → Prop) : σ → List α → Prop
  | _, [] => True
  | s, act :: acts => ok s act ∧ Along ok (step s act) acts

instance Along.decide (ok : σ → α → Prop) [∀ s act, Decidable (ok s act)] :
    ∀ s acts, Decidable (Along step ok s acts)
  | _, [] => .isTrue trivial
  | s, act :: acts => @instDecidableAnd _ _ _ (Along.decide ok (step s act) acts)

variable {step}

@[simp] theorem run_nil (s : σ) : run step s [] = s := rfl

@[simp] theorem run_cons (s : σ) (act : α) (acts : List α) :
    run step s (act :: acts) = run step (step s act) acts := rfl

theorem run_append (s : σ) (first second : List α) :
    run step s (first ++ second) = run step (run step s first) second := List.foldl_append

theorem along_append {ok : σ → α → Prop} {s : σ} {first second : List α} :
    Along step ok s (first ++ second) ↔ Along step ok s first ∧ Along step ok (run step s first) second := by
  induction first generalizing s with
  | nil => exact ⟨fun along => ⟨trivial, along⟩, fun both => both.2⟩
  | cons act first ih => exact (and_congr_right fun _ => ih).trans and_assoc.symm

theorem Along.and_mem {ok : σ → α → Prop} {P : α → Prop} {s : σ} {acts : List α} (along : Along step ok s acts)
    (all : ∀ act ∈ acts, P act) : Along step (fun s act => ok s act ∧ P act) s acts := by
  induction acts generalizing s with
  | nil => trivial
  | cons act acts ih =>
    exact ⟨⟨along.1, all act List.mem_cons_self⟩, ih along.2 fun a listed => all a (List.mem_cons_of_mem _ listed)⟩

/-- What every permitted step keeps, a run of permitted steps keeps. -/
theorem run_keeps {Inv : σ → Prop} {ok : σ → α → Prop}
    (keeps : ∀ s act, Inv s → ok s act → Inv (step s act)) {s : σ} {acts : List α} (start : Inv s)
    (along : Along step ok s acts) : Inv (run step s acts) := by
  induction acts generalizing s with
  | nil => exact start
  | cons act acts ih => exact ih (keeps s act start along.1) along.2

theorem run_keeps_mem {Inv : σ → Prop} {ok : α → Prop} (keeps : ∀ s act, Inv s → ok act → Inv (step s act)) {s : σ}
    {acts : List α} (start : Inv s) (all : ∀ act ∈ acts, ok act) : Inv (run step s acts) := by
  induction acts generalizing s with
  | nil => exact start
  | cons act acts ih =>
    exact ih (keeps s act start (all act List.mem_cons_self)) fun a listed => all a (List.mem_cons_of_mem _ listed)

theorem run_always {Inv : σ → Prop} (keeps : ∀ s act, Inv s → Inv (step s act)) {s : σ} (acts : List α)
    (start : Inv s) : Inv (run step s acts) := by
  induction acts generalizing s with
  | nil => exact start
  | cons act acts ih => exact ih (keeps s act start)

theorem run_reaches {P : σ → Prop} {s : σ} {acts : List α} (start : ¬ P s) (reached : P (run step s acts)) :
    ∃ before act after, acts = before ++ act :: after ∧ ¬ P (run step s before) ∧ P (step (run step s before) act) := by
  induction acts generalizing s with
  | nil => exact absurd reached start
  | cons act acts ih =>
    by_cases now : P (step s act)
    · exact ⟨[], act, acts, rfl, start, now⟩
    · obtain ⟨before, later, after, rfl, still, then_⟩ := ih now reached
      exact ⟨act :: before, later, after, rfl, still, then_⟩

end

end Weftos.Lib.Run
