import Weftos.Lib.Text

/-! Resource paths, roles and actions (`exo-resource-tree/src/model.rs`), and when a path
lies in the scope of another (`resource_in_scope` of `permission.rs`). -/

namespace Weftos.Resource.Path
open Lib.Text

structure ResourceId where
  path : String
  deriving DecidableEq

inductive ResourceKind where
  | namespace_
  | service
  | agent
  | device
  | topic
  | container
  | app
  | tool
  | environment
  | custom (name : String)
  deriving DecidableEq

inductive Role where
  | owner
  | admin
  | operator
  | viewer
  | custom (name : String)
  deriving DecidableEq

inductive Action where
  | read
  | write
  | execute
  | admin
  | create
  | delete
  | custom (name : String)
  deriving DecidableEq

namespace ResourceId

def root : ResourceId := ⟨"/"⟩

def isRoot (id : ResourceId) : Bool := id.path = "/"

def front : List Char → Option (List Char)
  | [] => none
  | c :: rest =>
    match front rest with
    | some before => some (c :: before)
    | none => if c = '/' then some [] else none

def parent (id : ResourceId) : Option ResourceId :=
  if id.path = "/" then none
  else
    match front id.path.toList with
    | some [] => some root
    | some before => some ⟨String.ofList before⟩
    | none => none

theorem front_length (found : front chars = some before) : before.length < chars.length := by
  induction chars generalizing before with
  | nil => exact absurd found nofun
  | cons c rest ih =>
    rw [front] at found
    cases deeper : front rest with
    | some longer =>
      rw [deeper] at found
      cases found
      exact Nat.succ_lt_succ (ih deeper)
    | none =>
      simp only [deeper, Option.ite_none_right_eq_some, Option.some.injEq] at found
      rw [← found.2]
      exact Nat.zero_lt_succ _

theorem parent_length {id above : ResourceId} (found : id.parent = some above) :
    above.path.toList.length < id.path.toList.length := by
  have notRoot : id.path ≠ "/" := by
    intro isRoot
    rw [parent, if_pos isRoot] at found
    exact absurd found nofun
  rw [parent, if_neg notRoot] at found
  cases before : front id.path.toList with
  | none => simp [before] at found
  | some chars =>
    have shorter := front_length before
    cases chars with
    | nil =>
      have : above = root := by simpa [before] using found.symm
      subst this
      have nonempty : id.path.toList ≠ [] := by
        intro empty
        simp [empty] at shorter
      have : id.path.toList.length ≠ 1 := by
        intro single
        obtain ⟨c, only⟩ := List.length_eq_one_iff.mp single
        rw [only, front, front] at before
        have slash : c = '/' := by simpa using before
        rw [slash] at only
        exact notRoot (String.toList_inj.mp only)
      change 1 < _
      omega
    | cons c chars =>
      have : above = ⟨String.ofList (c :: chars)⟩ := by simpa [before] using found.symm
      subst this
      simpa using shorter

/-- The path and its ancestors, up to where no parent is left: the order in which the
checker looks. -/
def toRoot (id : ResourceId) : List ResourceId :=
  id :: match _above : id.parent with
    | some higher => toRoot higher
    | none => []
termination_by id.path.toList.length
decreasing_by exact parent_length (by assumption)

example : toRoot ⟨"/a/b"⟩ = [⟨"/a/b"⟩, ⟨"/a"⟩, ⟨"/"⟩] := by decide +kernel

end ResourceId

/-! ### Scopes -/

/-- The text every path below `scope` starts with. -/
def scopeFront (scope : ResourceId) : String :=
  if scope.path.toList.getLast? = some '/' then scope.path else scope.path ++ "/"

/-- Whether `requested` is the same as, or a descendant of, `scope`. -/
def resourceInScope (requested scope : ResourceId) : Bool :=
  scope.isRoot || requested = scope || startsWith requested.path (scopeFront scope)

end Weftos.Resource.Path
