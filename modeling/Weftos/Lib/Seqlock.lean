import Mathlib.Data.List.Infix

/-! A seqlock cell in word-addressed memory: a version word and behind it the words it protects. -/

namespace Weftos.Lib.Seqlock
open List

abbrev Memory := Nat → Nat

abbrev Store := Nat × Nat

def Memory.store (mem : Memory) (st : Store) : Memory := Function.update mem st.1 st.2

@[simp] theorem Memory.store_same (mem : Memory) (st : Store) : mem.store st st.1 = st.2 :=
  Function.update_self ..

variable {st : Store} {mem : Memory} {tag : Nat} {body : List Nat}

theorem Memory.store_other (other : address ≠ st.1) : mem.store st address = mem address :=
  Function.update_of_ne other ..

def wordAt (tag i : Nat) : Nat := tag + 8 * (i + 1)

theorem wordAt_ne_tag (tag i : Nat) : wordAt tag i ≠ tag := by
  unfold wordAt
  omega

theorem wordAt_inj (same : wordAt tag i = wordAt tag j) : i = j := by
  unfold wordAt at same
  omega

def Shows (mem : Memory) (tag : Nat) (body : List Nat) : Prop :=
  ∀ i word, body[i]? = some word → mem (wordAt tag i) = word

theorem Shows.nil (mem : Memory) (tag : Nat) : Shows mem tag [] := by
  intro i word there
  simp at there

theorem Shows.store (shows : Shows mem tag body) (elsewhere : ∀ i < body.length, wordAt tag i ≠ st.1) :
    Shows (mem.store st) tag body := by
  intro i word there
  obtain ⟨inside, _⟩ := List.getElem?_eq_some_iff.mp there
  rw [Memory.store_other (elsewhere i inside)]
  exact shows i word there

theorem Shows.snoc (shows : Shows mem tag body) (word : Nat) :
    Shows (mem.store (wordAt tag body.length, word)) tag (body ++ [word]) := by
  intro i found there
  by_cases last : i = body.length
  · subst last
    rw [List.getElem?_concat_length] at there
    cases there
    exact Memory.store_same ..
  · have other : wordAt tag i ≠ wordAt tag body.length := fun same => last (wordAt_inj same)
    have inside : i < body.length := by
      have := (List.getElem?_eq_some_iff.mp there).1
      rw [length_append, length_singleton] at this
      omega
    rw [List.getElem?_append_left inside] at there
    rw [Memory.store_other other]
    exact shows i found there

/-! ### The writer -/

def bodyStores (tag : Nat) : Nat → List Nat → List Store
  | _, [] => []
  | i, word :: rest => (wordAt tag i, word) :: bodyStores tag (i + 1) rest

/-- Everything a writer stores to put `body` into a cell under `version`. -/
def publish (tag busy version : Nat) (body : List Nat) : List Store :=
  (tag, busy) :: bodyStores tag 0 body ++ [(tag, version)]

/-- How far a publication has come, read off the stores it still has to make. -/
inductive Progress (mem : Memory) (tag busy version : Nat) (body : List Nat) : List Store → Prop where
  | start : Progress mem tag busy version body (publish tag busy version body)
  | marked (done rest : List Nat) : body = done ++ rest → mem tag = busy → Shows mem tag done →
      Progress mem tag busy version body (bodyStores tag done.length rest ++ [(tag, version)])
  | done : mem tag = version → Shows mem tag body → Progress mem tag busy version body []

variable {busy version : Nat}

theorem Progress.store (progress : Progress mem tag busy version body (st :: rest)) :
    Progress (mem.store st) tag busy version body rest := by
  generalize pending : st :: rest = stores at progress
  cases progress with
  | start =>
    obtain ⟨rfl, rfl⟩ := cons.inj pending
    exact .marked [] body rfl (Memory.store_same ..) (Shows.nil _ tag)
  | marked done left whole busyNow shows =>
    cases left with
    | nil =>
      obtain ⟨rfl, rfl⟩ := cons.inj pending
      rw [append_nil] at whole
      subst whole
      exact .done (Memory.store_same ..) (shows.store fun i _ => wordAt_ne_tag tag i)
    | cons word left =>
      obtain ⟨rfl, rfl⟩ := cons.inj pending
      have further : body = (done ++ [word]) ++ left := by rw [whole, append_assoc]; rfl
      have still : mem.store (wordAt tag done.length, word) tag = busy :=
        (Memory.store_other (wordAt_ne_tag tag _).symm).trans busyNow
      have next : Progress _ tag busy version body (bodyStores tag (done ++ [word]).length left ++ [(tag, version)]) :=
        .marked _ left further still (shows.snoc word)
      rw [length_append, length_singleton] at next
      exact next
  | done versionNow shows => cases pending

theorem Progress.finished (progress : Progress mem tag busy version body []) :
    mem tag = version ∧ Shows mem tag body := by
  generalize pending : ([] : List Store) = stores at progress
  cases progress with
  | start => cases pending
  | marked done left => cases left <;> cases pending
  | done versionNow shows => exact ⟨versionNow, shows⟩

theorem Progress.store_cases (progress : Progress mem tag busy version body (st :: rest)) :
    (st = (tag, busy)) ∨ (st = (tag, version) ∧ rest = []) ∨
      (mem tag = busy ∧ ∃ i < body.length, st.1 = wordAt tag i) := by
  generalize pending : st :: rest = stores at progress
  cases progress with
  | start => exact .inl (cons.inj pending).1
  | marked done left whole busyNow =>
    cases left with
    | nil => exact .inr (.inl (cons.inj pending))
    | cons word left =>
      obtain ⟨rfl, rfl⟩ := cons.inj pending
      refine .inr (.inr ⟨busyNow, done.length, ?_, rfl⟩)
      rw [whole, length_append, length_cons]
      omega
  | done versionNow shows => cases pending

/-- What a copy is worth: as long as the version is there, it is the front of the body. -/
def Copied (mem : Memory) (tag version : Nat) (body loaded : List Nat) : Prop :=
  mem tag = version → loaded <+: body

theorem Copied.load (copied : Copied mem tag version body loaded)
    (shows : mem tag = version → Shows mem tag body ∧ loaded.length < body.length) :
    Copied mem tag version body (loaded ++ [mem (wordAt tag loaded.length)]) := by
  intro still
  obtain ⟨rest, rfl⟩ := copied still
  obtain ⟨there, short⟩ := shows still
  cases rest with
  | nil => simp at short
  | cons word rest =>
    have found : mem (wordAt tag loaded.length) = word := there _ _ (by simp)
    rw [found]
    exact ⟨rest, by simp⟩

/-- A version that is gone does not come back: the copy keeps its worth. -/
theorem Copied.store (copied : Copied mem tag version body loaded)
    (new : st.1 = tag → st.2 ≠ version) : Copied (mem.store st) tag version body loaded := by
  intro still
  by_cases here : st.1 = tag
  · subst here
    rw [Memory.store_same] at still
    exact absurd still (new rfl)
  · rw [Memory.store_other (Ne.symm here)] at still
    exact copied still

end Weftos.Lib.Seqlock
