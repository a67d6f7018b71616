import Weftos.Governance.Rules
import Weftos.Lib.Outcome

/-! The project overlay file and its tighten-only merge with what the parent
policy contributes (`clawft-types/src/config/overlay.rs`). -/

namespace Weftos.Governance.Overlay
open Lib.Text Lib.Outcome Rules

def OVERLAY_SCHEMA : UInt32 := 1

structure Limits (F : Type) where
  riskThreshold : Option F := none
  maxProcesses : Option UInt64 := none
  spawnBudget : Option UInt64 := none
  humanApprovalRequired : Option Bool := none
  deriving DecidableEq

structure OverlayDeny where
  id : String
  actions : List String
  reason : Option String
  deriving DecidableEq

structure OverlayApproval where
  id : Option String
  actions : List String
  reason : Option String
  deriving DecidableEq

/-- A parsed `overlay.toml`. Of the other top-level entries only the keys are ever
read; they are listed in order. -/
structure OverlayFile (F : Type) where
  schema : UInt32 := OVERLAY_SCHEMA
  deny : List OverlayDeny := []
  requireApproval : List OverlayApproval := []
  limits : Limits F := {}
  extra : List String := []
  deriving DecidableEq

structure ParentView (F : Type) where
  ruleIds : List String
  denyActions : List String
  requireApprovalActions : List String
  limits : Limits F

structure EffectiveOverlay (F : Type) where
  denyActions : List String
  requireApprovalActions : List String
  denyRules : List OverlayDeny
  approvalRules : List OverlayApproval
  limits : Limits F

inductive OverlayError where
  | parse (message : String)
  | schema (found : UInt32)
  | forbidden (key : String)
  | unknownKey (key : String)
  | malformedId (key id : String)
  | duplicateId (key id : String)
  | shadowsParent (key id : String)
  | emptyActions (key : String)
  | malformedGlob (key pattern : String)
  | invalidLimit (key : String)
  | relaxes (key parent overlay : String)

/-! ### Globs and ids -/

def validGlob (pattern : String) : Bool :=
  let body := (stripSuffix pattern '*').getD pattern
  pattern ≠ "" && !containsChar body '*' && !pattern.toList.any isWhitespace

def isIdChar (c : Char) : Bool := isAsciiAlphanumeric c || ['.', '_', '-', ':'].contains c

def checkId (key id : String) : Except OverlayError String :=
  if id ≠ "" && id = trim id && id.toList.all isIdChar then .ok (toAsciiLowercase id)
  else .error (.malformedId key id)

/-- The glob check of an action list, from position `n` on. -/
def checkGlobs (key : String) : Nat → List String → Except OverlayError Unit
  | _, [] => .ok ()
  | n, action :: rest =>
    if validGlob action then checkGlobs key (n + 1) rest
    else .error (.malformedGlob s!"{key}[{n}]" action)

def checkActions (key : String) (actions : List String) : Except OverlayError Unit :=
  if actions = [] then .error (.emptyActions key) else checkGlobs key 0 actions

def tightenRuleId (key id : String) (parent seen : List String) : Except OverlayError (List String) := do
  let norm ← checkId s!"{key}.id" id
  if parent.contains norm then .error (.shadowsParent s!"{key}.id" id)
  else if seen.contains norm then .error (.duplicateId s!"{key}.id" id)
  else pure (norm :: seen)

/-! ### Limits -/

def tightenNum {T : Type} [LT T] [DecidableLT T] (display : T → String) (key : String)
    (parent overlay : Option T) : Except OverlayError (Option T) :=
  match parent, overlay with
  | some p, some o => if p < o then .error (.relaxes key (display p) (display o)) else .ok (some o)
  | none, some o => .ok (some o)
  | p, none => .ok p

section
variable {F : Type} [Scalar F]

def validThreshold (r : F) : Prop := Scalar.ofRat 0 ≤ r ∧ r ≤ Scalar.ofRat 1

instance (r : F) : Decidable (validThreshold r) := inferInstanceAs (Decidable (_ ∧ _))

def checkThreshold (key : String) (threshold : Option F) : Except OverlayError Unit :=
  match threshold with
  | some r => ensure (validThreshold r) (.invalidLimit key)
  | none => .ok ()

def tightenFlag (key : String) (parent overlay : Option Bool) : Except OverlayError (Option Bool) :=
  match parent, overlay with
  | some true, some false => .error (.relaxes key "true" "false")
  | none, none => .ok none
  | p, o => .ok (some (p.getD false || o.getD false))

def mergeLimits (parent o : Limits F) : Except OverlayError (Limits F) := do
  checkThreshold "limits.risk_threshold" o.riskThreshold
  let human ← tightenFlag "limits.human_approval_required" parent.humanApprovalRequired
    o.humanApprovalRequired
  let risk ← tightenNum Scalar.display "limits.risk_threshold" parent.riskThreshold o.riskThreshold
  let processes ← tightenNum (toString ·.toNat) "limits.max_processes" parent.maxProcesses o.maxProcesses
  let budget ← tightenNum (toString ·.toNat) "limits.spawn_budget" parent.spawnBudget o.spawnBudget
  pure ⟨risk, processes, budget, human⟩

/-! ### Merge -/

def checkExtra : List String → Except OverlayError Unit
  | [] => .ok ()
  | key :: _ =>
    if key = "permit" ∨ key = "deactivate" then .error (.forbidden key) else .error (.unknownKey key)

def checkDenyRules (parentIds : List String) : Nat → List String → List OverlayDeny →
    Except OverlayError (List String)
  | _, seen, [] => .ok seen
  | n, seen, d :: rest => do
    let seen ← tightenRuleId s!"deny[{n}]" d.id parentIds seen
    checkActions s!"deny[{n}].actions" d.actions
    checkDenyRules parentIds (n + 1) seen rest

def checkApprovalRules (parentIds : List String) : Nat → List String → List OverlayApproval →
    Except OverlayError (List String)
  | _, seen, [] => .ok seen
  | n, seen, a :: rest => do
    let seen ← match a.id with
      | some id => tightenRuleId s!"require_approval[{n}]" id parentIds seen
      | none => .ok seen
    checkActions s!"require_approval[{n}].actions" a.actions
    checkApprovalRules parentIds (n + 1) seen rest

/-- The first violation, in the order the checks stand, refuses the overlay. -/
def merge (parent : ParentView F) (overlay : OverlayFile F) : Except OverlayError (EffectiveOverlay F) := do
  ensure (overlay.schema = OVERLAY_SCHEMA) (.schema overlay.schema)
  checkExtra overlay.extra
  checkThreshold "parent.limits.risk_threshold" parent.limits.riskThreshold
  let parentIds := parent.ruleIds.map fun id => toAsciiLowercase (trim id)
  let seen ← checkDenyRules parentIds 0 [] overlay.deny
  let _ ← checkApprovalRules parentIds 0 seen overlay.requireApproval
  let limits ← mergeLimits parent.limits overlay.limits
  pure {
    denyActions := sortedSet (parent.denyActions ++ overlay.deny.flatMap (·.actions))
    requireApprovalActions :=
      sortedSet (parent.requireApprovalActions ++ overlay.requireApproval.flatMap (·.actions))
    denyRules := overlay.deny
    approvalRules := overlay.requireApproval
    limits }

/-! ### What an accepted overlay guarantees -/

theorem tightenNum_le {T : Type} [LinearOrder T] {display : T → String} {p : T}
    {overlay result : Option T} (accepted : tightenNum display key (some p) overlay = .ok result) :
    result = some (overlay.getD p) ∧ overlay.getD p ≤ p := by
  cases overlay with
  | none =>
    simp only [tightenNum, Except.ok.injEq] at accepted
    exact ⟨accepted.symm, le_refl p⟩
  | some o =>
    simp only [tightenNum] at accepted
    split_ifs at accepted with above
    exact ⟨(Except.ok.inj accepted).symm, not_lt.mp above⟩

theorem tightenFlag_or (accepted : tightenFlag key parent overlay = .ok result) :
    result.getD false = (parent.getD false || overlay.getD false) := by
  unfold tightenFlag at accepted
  split at accepted
  · cases accepted
  · cases accepted
    rfl
  · cases accepted
    rfl

theorem merge_accepted {merged : EffectiveOverlay F} (accepted : merge parent overlay = .ok merged) :
    merged.denyRules = overlay.deny ∧ merged.approvalRules = overlay.requireApproval ∧
      mergeLimits parent.limits overlay.limits = .ok merged.limits := by
  simp only [merge, bind_ok_iff, pure_ok_iff] at accepted
  obtain ⟨_, _, _, _, _, _, seen, _, _, _, limits, limitsOk, rfl⟩ := accepted
  exact ⟨rfl, rfl, limitsOk⟩

theorem mergeLimits_tightens {parent o limits : Limits F} (capped : parent.riskThreshold = some p)
    (accepted : mergeLimits parent o = .ok limits) :
    limits.riskThreshold = some (o.riskThreshold.getD p) ∧ o.riskThreshold.getD p ≤ p ∧
      limits.humanApprovalRequired.getD false =
        (parent.humanApprovalRequired.getD false || o.humanApprovalRequired.getD false) := by
  simp only [mergeLimits, bind_ok_iff, pure_ok_iff] at accepted
  obtain ⟨_, _, human, flag, risk, threshold, _, _, _, _, rfl⟩ := accepted
  rw [capped] at threshold
  obtain ⟨value, below⟩ := tightenNum_le threshold
  exact ⟨value, below, tightenFlag_or flag⟩

end

end Weftos.Governance.Overlay
