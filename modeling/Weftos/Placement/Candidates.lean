import Weftos.Lib.Bytes
import Weftos.Lib.Outcome
import Weftos.Lib.Text

/-! Capabilities a node advertises and the requirements a workload states about them
(`clawft-types/src/placement/capability.rs`, `requirement.rs`). Floats are a type with
the comparisons of `f64`, of which nothing is assumed. -/

namespace Weftos.Placement.Candidates
open Lib.Bytes Lib.Text List

/-! ### Capabilities -/

def MAX_ID_LEN : Nat := 128
def MAX_ID_SEGMENTS : Nat := 8

/-- What matching uses of `f64`; neither relation holds of a NaN. -/
class F64 (F : Type) where
  ofI64 : Int64 → F
  eq : F → F → Bool
  le : F → F → Bool

instance : F64 ℚ where
  ofI64 i := i.toInt
  eq a b := a = b
  le a b := a ≤ b

def isLowerOrDigit (c : Char) : Bool := ('a' ≤ c && c ≤ 'z') || ('0' ≤ c && c ≤ '9')

def validSegment : List Char → Bool
  | [] => false
  | c :: rest => isLowerOrDigit c && rest.all fun c => isLowerOrDigit c || c = '_' || c = '-'

def validDotted (text : String) (minSegments : Nat) : Bool :=
  let segments := text.toList.splitOn '.'
  text ≠ "" && (utf8 text).length ≤ MAX_ID_LEN && minSegments ≤ segments.length &&
    segments.length ≤ MAX_ID_SEGMENTS && segments.all validSegment

structure CapabilityId where
  text : String
  valid : validDotted text 2 = true
  deriving DecidableEq

def CapabilityId.isUnder (id : CapabilityId) (front : String) : Bool :=
  id.text = front || ((utf8 front).length < (utf8 id.text).length && startsWith id.text front &&
    (utf8 id.text)[(utf8 front).length]? = some 46)

inductive AttrValue (F : Type) where
  | bool (b : Bool)
  | int (i : Int64)
  | float (f : F)
  | str (s : String)
  | list (items : List (AttrValue F))

inductive Provenance where
  | claimed
  | probed
  | measured
  deriving DecidableEq

def Provenance.rank : Provenance → Nat
  | .claimed => 0
  | .probed => 1
  | .measured => 2

inductive CapabilityState where
  | available
  | busy
  | reserved
  | degraded
  deriving DecidableEq

structure Capability (F : Type) where
  id : CapabilityId
  attrs : List (String × AttrValue F)
  provenance : Provenance
  state : CapabilityState
  exclusive : Bool

section
variable {F : Type} [F64 F]

def AttrValue.asF64 : AttrValue F → Option F
  | .int i => some (F64.ofI64 i)
  | .float f => some f
  | _ => none

mutual
/-- Equality across integers and floats; lists are compared item by item. -/
def AttrValue.looseEq : AttrValue F → AttrValue F → Bool
  | .list a, .list b => looseEqAll a b
  | .bool a, .bool b => a = b
  | .str a, .str b => a = b
  | a, b =>
    match a.asF64, b.asF64 with
    | some x, some y => F64.eq x y
    | _, _ => false

def looseEqAll : List (AttrValue F) → List (AttrValue F) → Bool
  | [], [] => true
  | x :: xs, y :: ys => x.looseEq y && looseEqAll xs ys
  | _, _ => false
end

/-! ### Requirements -/

inductive IdSelector where
  | exact (id : CapabilityId)
  | idPrefix (front : String)

def IdSelector.selects : IdSelector → CapabilityId → Bool
  | .exact want, id => want = id
  | .idPrefix front, id => id.isUnder front

def IdSelector.asStr : IdSelector → String
  | .exact id => id.text
  | .idPrefix front => front

inductive PredicateOp where
  | eq
  | gte
  | lte
  | isIn
  | has
  deriving DecidableEq

structure AttrPredicate (F : Type) where
  attr : String
  op : PredicateOp
  value : AttrValue F

def cmpNum (a b : AttrValue F) (f : F → F → Bool) : Bool :=
  match a.asF64, b.asF64 with
  | some x, some y => f x y
  | _, _ => false

def AttrPredicate.eval (p : AttrPredicate F) (cap : Capability F) : Bool :=
  match cap.attrs.lookup p.attr with
  | none => false
  | some have_ =>
    match p.op with
    | .eq => have_.looseEq p.value
    | .gte => cmpNum have_ p.value fun a b => F64.le b a
    | .lte => cmpNum have_ p.value F64.le
    | .isIn =>
      match p.value with
      | .list options => options.any have_.looseEq
      | _ => false
    | .has =>
      match have_ with
      | .list items => items.any (·.looseEq p.value)
      | _ => false

structure Requirement (F : Type) where
  selector : IdSelector
  where_ : List (AttrPredicate F)
  count : UInt32
  exclusive : Bool
  minProvenance : Option Provenance

inductive MatchFailure where
  | noSuchId (selector : String)
  | provenanceTooLow (best need : Provenance)
  | predicateFailed (attr : String) (op : PredicateOp)
  | unavailable (state : CapabilityState)
  | insufficientCount (available need : UInt32)
  | contended (need : UInt32)
  deriving DecidableEq

def Requirement.usable (req : Requirement F) (cap : Capability F) : Bool :=
  match cap.state with
  | .available => true
  | .busy => !req.exclusive && !cap.exclusive
  | .reserved | .degraded => false

/-! ### Candidates -/

def holdsAt (caps : List (Capability F)) (test : Capability F → Bool) (i : Nat) : Bool := caps[i]?.any test

/-- A stage of the selection: it fails when it leaves nothing. -/
def narrow (kept : List Nat) (failure : MatchFailure) : Except MatchFailure (List Nat) :=
  if kept = [] then .error failure else .ok kept

def bestProvenance (caps : List (Capability F)) (indices : List Nat) : Provenance :=
  (indices.filterMap fun i => (caps[i]?).map (·.provenance)).foldl
    (fun best p => if best.rank ≤ p.rank then p else best) .claimed

def Requirement.byProvenance (req : Requirement F) (caps : List (Capability F)) (byId : List Nat) :
    Except MatchFailure (List Nat) :=
  match req.minProvenance with
  | none => .ok byId
  | some need =>
    narrow (byId.filter (holdsAt caps fun cap => need.rank ≤ cap.provenance.rank))
      (.provenanceTooLow (bestProvenance caps byId) need)

def Requirement.failedPredicate (req : Requirement F) (caps : List (Capability F)) (byProv : List Nat) :
    MatchFailure :=
  let first := (byProv.head?.bind (caps[·]?)).bind fun first => req.where_.find? fun p => !p.eval first
  -- `expect`: where nothing is left, the first capability fails some predicate
  first.elim (.predicateFailed "" .eq) fun p => .predicateFailed p.attr p.op

def Requirement.unavailable (caps : List (Capability F)) (byAttr : List Nat) : MatchFailure :=
  .unavailable (((byAttr.head?.bind (caps[·]?)).map (·.state)).getD .available)

/-- The capabilities a requirement could use, or the first stage that leaves none. -/
def Requirement.candidates (req : Requirement F) (caps : List (Capability F)) : Except MatchFailure (List Nat) := do
  let byId ← narrow ((range caps.length).filter (holdsAt caps fun cap => req.selector.selects cap.id))
    (.noSuchId req.selector.asStr)
  let byProv ← req.byProvenance caps byId
  let byAttr ← narrow (byProv.filter (holdsAt caps fun cap => req.where_.all (·.eval cap)))
    (req.failedPredicate caps byProv)
  narrow (byAttr.filter (holdsAt caps req.usable)) (Requirement.unavailable caps byAttr)

def Requirement.admits (req : Requirement F) (cap : Capability F) : Bool :=
  req.selector.selects cap.id && req.minProvenance.all (fun need => need.rank ≤ cap.provenance.rank) &&
    req.where_.all (·.eval cap) && req.usable cap

def Requirement.candidateIndices (req : Requirement F) (caps : List (Capability F)) : List Nat :=
  (req.candidates caps).toOption.getD []

theorem narrow_getD (kept : List Nat) (failure : MatchFailure) : (narrow kept failure).toOption.getD [] = kept := by
  unfold narrow
  split_ifs with empty
  · exact empty.symm
  · rfl

theorem stage_getD {next : List Nat → Except MatchFailure (List Nat)} (earlier : Except MatchFailure (List Nat))
    (filters : ∀ kept, (next kept).toOption.getD [] = kept.filter test) :
    (earlier >>= next).toOption.getD [] = (earlier.toOption.getD []).filter test := by
  cases earlier with
  | error failure => rfl
  | ok kept => exact filters kept

theorem candidateIndices_eq (req : Requirement F) (caps : List (Capability F)) :
    req.candidateIndices caps = (range caps.length).filter (holdsAt caps req.admits) := by
  have state (kept : List Nat) :=
    narrow_getD (kept.filter (holdsAt caps req.usable)) (Requirement.unavailable caps kept)
  have attributes (kept : List Nat) :
      (narrow (kept.filter (holdsAt caps fun cap => req.where_.all (·.eval cap))) (req.failedPredicate caps kept) >>=
        fun byAttr => narrow (byAttr.filter (holdsAt caps req.usable))
          (Requirement.unavailable caps byAttr)).toOption.getD [] =
        kept.filter fun i => holdsAt caps req.usable i && holdsAt caps (fun cap => req.where_.all (·.eval cap)) i := by
    rw [stage_getD _ state, narrow_getD, filter_filter]
  have provenance (kept : List Nat) : (req.byProvenance caps kept).toOption.getD [] =
      kept.filter fun i => req.minProvenance.all fun need =>
        holdsAt caps (fun cap => need.rank ≤ cap.provenance.rank) i := by
    unfold Requirement.byProvenance
    cases req.minProvenance with
    | none => exact (filter_true kept).symm
    | some need => exact narrow_getD ..
  have later (kept : List Nat) := (stage_getD (req.byProvenance caps kept) attributes).trans
    ((congrArg (filter _) (provenance kept)).trans filter_filter)
  rw [Requirement.candidateIndices, Requirement.candidates, stage_getD _ later, narrow_getD, filter_filter]
  apply filter_congr
  intro i _
  unfold holdsAt Requirement.admits
  cases caps[i]? with
  | none => cases req.minProvenance <;> rfl
  | some cap =>
    cases req.minProvenance <;> simp only [Option.any_some, Option.all_none, Option.all_some, Bool.and_true]
    · ac_rfl
    · ac_rfl

theorem mem_candidateIndices {req : Requirement F} :
    i ∈ req.candidateIndices caps ↔ ∃ cap, caps[i]? = some cap ∧ req.admits cap = true := by
  rw [candidateIndices_eq, mem_filter, mem_range, holdsAt, Option.any_eq_true]
  constructor
  · rintro ⟨_, cap, here, admitted⟩
    exact ⟨cap, here, admitted⟩
  · rintro ⟨cap, here, admitted⟩
    exact ⟨(List.getElem?_eq_some_iff.mp here).1, cap, here, admitted⟩

theorem candidateIndices_nodup (req : Requirement F) (caps : List (Capability F)) :
    (req.candidateIndices caps).Nodup := by
  rw [candidateIndices_eq]
  exact nodup_range.filter _

end

end Weftos.Placement.Candidates
