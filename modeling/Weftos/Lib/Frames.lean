import Weftos.Lib.Bytes
import Weftos.Lib.Outcome

/-! Byte streams cut into frames. A reader stops, refuses, or yields a value and the size of its frame. -/

namespace Weftos.Lib.Frames
open Bytes

inductive Head (ε α : Type) where
  | stop
  | fail (refusal : ε)
  | item (value : α) (size : Nat)

variable {ε α : Type}

def scan (head : Nat → Octets → Head ε α) : (fuel offset : Nat) → Octets → Except ε (List α)
  | 0, _, _ => .ok []
  | fuel + 1, offset, bytes =>
    match head offset bytes with
    | .stop => .ok []
    | .fail refusal => .error refusal
    | .item value size => (value :: ·) <$> scan head fuel (offset + size) (bytes.drop size)

structure Advancing (head : Nat → Octets → Head ε α) : Prop where
  ends : ∀ offset, head offset [] = .stop
  moves : ∀ {offset bytes value size}, head offset bytes = .item value size → 0 < size

theorem scan_fuel (advancing : Advancing head) (fuel fuel' offset : Nat)
    (bytes : Octets) (enough : bytes.length ≤ fuel) (enough' : bytes.length ≤ fuel') :
    scan head fuel offset bytes = scan head fuel' offset bytes := by
  induction fuel generalizing fuel' offset bytes with
  | zero =>
    have empty : bytes = [] := List.length_eq_zero_iff.mp (Nat.le_zero.mp enough)
    subst empty
    cases fuel' with
    | zero => rfl
    | succ fuel' => simp [scan, advancing.ends]
  | succ fuel ih =>
    cases fuel' with
    | zero =>
      have empty : bytes = [] := List.length_eq_zero_iff.mp (Nat.le_zero.mp enough')
      subst empty
      simp [scan, advancing.ends]
    | succ fuel' =>
      cases found : head offset bytes with
      | stop | fail refusal => simp [scan, found]
      | item value size =>
        have forward := advancing.moves found
        simp only [scan, found]
        rw [ih fuel' _ _ (by simp; omega) (by simp; omega)]

def scanAll (head : Nat → Octets → Head ε α) (offset : Nat) (bytes : Octets) : Except ε (List α) :=
  scan head bytes.length offset bytes

section
variable {head : Nat → Octets → Head ε α} (advancing : Advancing head) {bytes : Octets} {offset : Nat}
include advancing

theorem scanAll_stop (found : head offset bytes = .stop) : scanAll head offset bytes = .ok [] := by
  rw [scanAll, scan_fuel advancing _ _ _ _ (le_refl _) (Nat.le_succ _), scan, found]

theorem scanAll_fail (found : head offset bytes = .fail refusal) : scanAll head offset bytes = .error refusal := by
  rw [scanAll, scan_fuel advancing _ _ _ _ (le_refl _) (Nat.le_succ _), scan, found]

theorem scanAll_item (found : head offset bytes = .item value size) :
    scanAll head offset bytes = (value :: ·) <$> scanAll head (offset + size) (bytes.drop size) := by
  rw [scanAll, scan_fuel advancing _ _ _ _ (le_refl _) (Nat.le_succ _), scan, found]
  simp only [scanAll]
  rw [scan_fuel advancing _ bytes.length _ _ (le_refl _) (by simp)]

end

end Weftos.Lib.Frames
