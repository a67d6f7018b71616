import Weftos.Lib.Bytes
import Weftos.Lib.Outcome

/-! The frames of the bus protocol, and what a reader makes of a byte stream. -/

namespace Weftos.Bus.Framing
open List Lib.Bytes Lib.Outcome

def MAX_FRAME : Nat := 64 * 1024 + 4 * 1024

inductive FrameError where
  | io
  | oversize (bytes : Nat)
  | json

def frame (body : Octets) : Octets := (leBytes 4 body.length).reverse ++ body

/-- `read_frame`, and what it leaves of the stream. -/
def readFrame (r : Octets) : Except FrameError (Option Octets) × Octets :=
  -- `read_exact` fails at the end of the stream, wherever in the prefix that is
  if r.length < 4 then (.ok none, [])
  else
    let n := ofLeBytes (r.take 4).reverse
    let r := r.drop 4
    if n > MAX_FRAME then (.error (.oversize n), r)
    else if r.length < n then (.error .io, [])
    else (.ok (some (r.take n)), r.drop n)

variable {α : Type} (toVec : α → Except FrameError Octets)

def encode (v : α) : Except FrameError Octets := do
  let body ← toVec v
  if body.length > MAX_FRAME then .error (.oversize body.length) else .ok (frame body)

inductive Ends : Octets → Option FrameError → Prop
  | boundary : Ends [] none
  | inPrefix (some_ : left ≠ []) (short : left.length < 4) : Ends left (some .io)
  | oversize (full : len.length = 4) (long : MAX_FRAME < ofLeBytes len.reverse) :
    Ends (len ++ rest) (some (.oversize (ofLeBytes len.reverse)))
  | inBody (full : len.length = 4) (fits : ofLeBytes len.reverse ≤ MAX_FRAME)
    (short : rest.length < ofLeBytes len.reverse) : Ends (len ++ rest) (some .io)

inductive Reads (r : Octets) : Except FrameError (Option Octets) × Octets → Prop
  | ended (short : r.length < 4) : Reads r (.ok none, [])
  | failed (ends : Ends r (some e)) : Reads r (.error e, rest)
  | framed (whole : r = frame body ++ rest) (fits : body.length ≤ MAX_FRAME) : Reads r (.ok (some body), rest)

theorem readFrame_reads (r : Octets) : Reads r (readFrame r) := by
  unfold readFrame
  split_ifs with short
  · exact .ended short
  have full : (r.take 4).length = 4 := length_take_of_le (by omega)
  have parts := take_append_drop 4 r
  generalize r.take 4 = len, r.drop 4 = rest at full parts ⊢
  subst parts
  dsimp only
  split_ifs with long cut
  · exact .failed (.oversize full long)
  · exact .failed (.inBody full (by omega) cut)
  · have count : (rest.take (ofLeBytes len.reverse)).length = ofLeBytes len.reverse := length_take_of_le (by omega)
    have back := leBytes_ofLeBytes len.reverse
    rw [length_reverse, full] at back
    refine .framed ?_ (by omega)
    rw [frame, count, back, reverse_reverse, append_assoc, take_append_drop]

theorem Reads.shorter (reads : Reads r (.ok (some body), rest)) : rest.length < r.length := by
  cases reads with
  | framed whole =>
    rw [whole, frame]
    simp
    omega

/-- The bodies that calls of `read_frame` return, and the error they end with, or none at `Ok(None)`. -/
def readAll (r : Octets) : List Octets × Option FrameError :=
  match _read : readFrame r with
  | (.ok (some body), rest) => ((body :: (readAll rest).1), (readAll rest).2)
  | (.ok none, _) => ([], none)
  | (.error e, _) => ([], some e)
termination_by r.length
decreasing_by all_goals exact (_read ▸ readFrame_reads r).shorter

def Framed (r : Octets) (bodies : List Octets) (left : Octets) : Prop :=
  r = bodies.flatMap frame ++ left ∧ ∀ body ∈ bodies, body.length ≤ MAX_FRAME

theorem readAll_frame (fits : body.length ≤ MAX_FRAME) (rest : Octets) :
    readAll (frame body ++ rest) = (body :: (readAll rest).1, (readAll rest).2) := by
  have small : body.length < 256 ^ 4 := lt_of_le_of_lt fits (by decide)
  have read : readFrame (frame body ++ rest) = (.ok (some body), rest) := by
    simp only [readFrame, frame, append_assoc]
    rw [if_neg (by simp), take_left' (by simp), drop_left' (by simp), reverse_reverse, ofLeBytes_leBytes _ _ small,
      if_neg (by omega), if_neg (by simp), take_left, drop_left]
  rw [readAll]
  split
  next same => cases same.symm.trans read; rfl
  next other => cases other.symm.trans read
  next other => cases other.symm.trans read

theorem readAll_short (short : r.length < 4) : readAll r = ([], none) := by
  have read : readFrame r = (.ok none, []) := if_pos short
  rw [readAll]
  split
  next other => cases other.symm.trans read
  next => rfl
  next other => cases other.symm.trans read

theorem readAll_framed (r : Octets) : ∃ left, Framed r (readAll r).1 left ∧
    (left.length < 4 ∧ (readAll r).2 = none ∨ Ends left (readAll r).2) := by
  fun_induction readAll r with
  | case1 r body rest read ih =>
    obtain ⟨left, ⟨same, fit⟩, ends⟩ := ih
    cases read ▸ readFrame_reads r with
    | framed whole fits =>
      exact ⟨left, ⟨by rw [whole, flatMap_cons, append_assoc, ← same], forall_mem_cons.mpr ⟨fits, fit⟩⟩, ends⟩
  | case2 r rest read =>
    cases read ▸ readFrame_reads r with
    | ended short => exact ⟨r, ⟨rfl, by simp⟩, .inl ⟨short, rfl⟩⟩
  | case3 r e rest read =>
    cases read ▸ readFrame_reads r with
    | failed ends => exact ⟨r, ⟨rfl, by simp⟩, .inr ends⟩

theorem readAll_cut {bodies : List Octets} (fit : ∀ body ∈ bodies, body.length ≤ MAX_FRAME) (short : left.length < 4) :
    readAll (bodies.flatMap frame ++ left) = (bodies, none) := by
  induction bodies with
  | nil => exact readAll_short short
  | cons body bodies ih =>
    obtain ⟨fits, later⟩ := forall_mem_cons.mp fit
    rw [flatMap_cons, append_assoc, readAll_frame fits, ih later]

/-- A stream is read frame by frame and ends as its tail says exactly when it is not cut in a length prefix.
What was encoded is read back, and then the stream has ended. -/
theorem frames_read : (∀ r, (∃ left, Framed r (readAll r).1 left ∧ Ends left (readAll r).2) ↔
      ∀ bodies left, Framed r bodies left → left.length < 4 → left = []) ∧
    ∀ (values : List α) (written : α → Octets), (∀ v ∈ values, encode toVec v = .ok (written v)) →
      ∃ bodies, values.map toVec = bodies.map .ok ∧ readAll (values.flatMap written) = (bodies, none) := by
  constructor
  · intro r
    constructor
    · rintro ⟨left, framed, ends⟩ bodies cut ⟨rfl, fit⟩ short
      rw [readAll_cut fit short] at framed ends
      have same : cut = left := append_cancel_left framed.1
      cases ends
      exact same
    · intro whole
      obtain ⟨left, framed, ⟨short, clean⟩ | ends⟩ := readAll_framed r
      · refine ⟨left, framed, ?_⟩
        rw [whole _ left framed short, clean]
        exact .boundary
      · exact ⟨left, framed, ends⟩
  · intro values written encoded
    induction values with
    | nil => exact ⟨[], rfl, readAll_short (by simp)⟩
    | cons v values ih =>
      obtain ⟨here, later⟩ := forall_mem_cons.mp encoded
      obtain ⟨bodies, rendered, read⟩ := ih later
      obtain ⟨body, first, made⟩ := bind_ok_iff.mp here
      split_ifs at made with long
      have same : frame body = written v := Except.ok.inj made
      refine ⟨body :: bodies, by rw [map_cons, map_cons, first, rendered], ?_⟩
      rw [flatMap_cons, ← same, readAll_frame (not_lt.mp long), read]

theorem frames_read_one : ∃ bodies, [[7, 8]].map Except.ok = bodies.map (Except.ok (ε := FrameError)) ∧
    readAll ([[7, 8]].flatMap frame) = (bodies, none) :=
  (frames_read Except.ok).2 [[7, 8]] frame fun v only => by rw [mem_singleton.mp only]; rfl

/-- A stream cut in a length prefix reads as one that was closed. -/
theorem prefix_cut : Ends [0] (some .io) ∧ readAll [0] = ([], none) :=
  ⟨.inPrefix (by decide) (by decide), readAll_short (by decide)⟩

end Weftos.Bus.Framing
