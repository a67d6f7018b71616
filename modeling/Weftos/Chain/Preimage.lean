import Weftos.Chain.Local

/-! What the event digest commits to: the preimage delimits two strings of any content by zero bytes. -/

namespace Weftos.Chain.Preimage
open Lib.Bytes Event Local List

variable (event : ChainEvent) (bytes : Octets) {second first : ChainEvent}

def preimage (event : ChainEvent) : Octets :=
  eventPreimage event.sequence event.chainId event.prevHash event.source event.kind event.timestamp
    event.payloadHash event.ruleHash

/-- Equality of the fields an event digest is meant to commit to. -/
structure SameCommitment (first second : ChainEvent) : Prop where
  sequence : first.sequence = second.sequence
  chainId : first.chainId = second.chainId
  prevHash : first.prevHash = second.prevHash
  source : first.source = second.source
  kind : first.kind = second.kind
  secs : first.timestamp.secs = second.timestamp.secs
  payloadHash : first.payloadHash = second.payloadHash
  ruleHash : first.ruleHash = second.ruleHash

def nul : Char := Char.ofNat 0

def Delimited (event : ChainEvent) : Prop := nul ∉ event.source.toList ∧ nul ∉ event.kind.toList

instance (event : ChainEvent) : Decidable (Delimited event) := inferInstanceAs (Decidable (_ ∧ _))

/-! ### The parts of a preimage -/

def front (event : ChainEvent) : Octets :=
  leBytes 8 event.sequence.toNat ++ leBytes 4 event.chainId.toNat ++ event.prevHash.val

def names (event : ChainEvent) : Octets := utf8 event.source ++ 0 :: utf8 event.kind

def ruleTail : Option Digest → Octets
  | some rule => 0x01 :: rule.val
  | none => []

def back (event : ChainEvent) : Octets :=
  leBytes 8 event.timestamp.word.toNat ++ event.payloadHash.val ++ ruleTail event.ruleHash

theorem preimage_eq : preimage event = front event ++ (names event ++ 0 :: back event) := by
  cases rule : event.ruleHash <;>
    simp [preimage, eventPreimage, front, names, back, ruleTail, rule, append_assoc]

theorem front_length : (front event).length = 44 := by
  simp [front, event.prevHash.property]

/-! ### The rule-hash tail -/

/-- The byte in the place where the domain tag of a present rule hash stands. -/
def tagByte (bytes : Octets) : Option UInt8 := bytes.reverse[32]?

theorem tagByte_append_digest (last : UInt8) (digest : Digest) :
    tagByte (bytes ++ [last] ++ digest.val) = some last := by
  have width : digest.val.reverse.length = 32 := by rw [length_reverse, digest.property]
  rw [tagByte, reverse_append, getElem?_append_right (by omega), width]
  simp

theorem timestamp_top_byte (t : Timestamp) : UInt8.ofNat (t.word.toNat / 256 ^ 7 % 256) ≠ 1 := by
  have word := t.word_toNat
  have low := t.low
  have high := t.high
  unfold minSecs at low
  unfold maxSecs at high
  intro same
  have values := congrArg UInt8.toNat same
  rw [UInt8.toNat_ofNat', Nat.mod_mod] at values
  change t.word.toNat / 256 ^ 7 % 256 = 1 at values
  omega

theorem tagByte_some (present : event.ruleHash = some rule) : tagByte (bytes ++ back event) = some 1 := by
  have split : bytes ++ back event =
      (bytes ++ (leBytes 8 event.timestamp.word.toNat ++ event.payloadHash.val)) ++ [1] ++ rule.val := by
    simp [back, ruleTail, present, append_assoc]
  rw [split, tagByte_append_digest]

theorem tagByte_none (absent : event.ruleHash = none) :
    tagByte (bytes ++ back event) ≠ some 1 := by
  have top := leBytes_getLast 7 event.timestamp.word.toNat
  obtain ⟨low, split⟩ := getLast?_eq_some_iff.mp top
  have shape : bytes ++ back event =
      (bytes ++ low) ++ [UInt8.ofNat (event.timestamp.word.toNat / 256 ^ 7 % 256)] ++ event.payloadHash.val := by
    simp [back, ruleTail, absent, split, append_assoc]
  rw [shape, tagByte_append_digest]
  exact fun same => timestamp_top_byte event.timestamp (Option.some.inj same)

theorem ruleHash_isSome_eq (start start' : Octets) (same : start ++ back first = start' ++ back second) :
    first.ruleHash.isSome = second.ruleHash.isSome := by
  cases rule : first.ruleHash with
  | none =>
    cases rule' : second.ruleHash with
    | none => rfl
    | some digest => exact absurd (same ▸ tagByte_some second start' rule') (tagByte_none first start rule)
  | some digest =>
    cases rule' : second.ruleHash with
    | none => exact absurd (same ▸ tagByte_some first start rule) (tagByte_none second start' rule')
    | some digest' => rfl

theorem back_length :
    (back event).length = 40 + if event.ruleHash.isSome then 33 else 0 := by
  cases rule : event.ruleHash with
  | none => simp [back, ruleTail, rule, event.payloadHash.property]
  | some digest => simp [back, ruleTail, rule, event.payloadHash.property, digest.property]

/-! ### Reading the fields back -/

theorem front_injective (same : front first = front second) :
    first.sequence = second.sequence ∧ first.chainId = second.chainId ∧ first.prevHash = second.prevHash := by
  obtain ⟨numbers, prev⟩ := append_inj same (by simp)
  obtain ⟨sequence, chainId⟩ := append_inj numbers (by simp)
  refine ⟨UInt64.toNat_inj.mp (leBytes_injective 8 ?_ ?_ sequence),
    UInt32.toNat_inj.mp (leBytes_injective 4 ?_ ?_ chainId), Subtype.ext prev⟩
  · exact first.sequence.toNat_lt
  · exact second.sequence.toNat_lt
  · exact first.chainId.toNat_lt
  · exact second.chainId.toNat_lt

theorem ruleTail_injective : Function.Injective ruleTail := by
  intro first second same
  cases first <;> cases second <;> simp_all [ruleTail]
  exact Subtype.ext same

theorem back_injective (same : back first = back second) :
    first.timestamp.secs = second.timestamp.secs ∧ first.payloadHash = second.payloadHash ∧
      first.ruleHash = second.ruleHash := by
  obtain ⟨fixed, rule⟩ := append_inj same (by simp [first.payloadHash.property, second.payloadHash.property])
  obtain ⟨time, payload⟩ := append_inj fixed (by simp)
  have words := leBytes_injective 8 first.timestamp.word.toNat_lt second.timestamp.word.toNat_lt time
  refine ⟨?_, Subtype.ext payload, ruleTail_injective rule⟩
  have readFirst := first.timestamp.ofWord_word
  rw [UInt64.toNat_inj.mp words, second.timestamp.ofWord_word] at readFirst
  exact (congrArg Timestamp.secs (Option.some.inj readFirst)).symm

/-- Where the first event's strings hold no separator, the second event's hold none
either and the split is the same. -/
theorem names_injective (delimited : Delimited first) (same : names first = names second) :
    first.source = second.source ∧ first.kind = second.kind := by
  have cleanSource : (0 : UInt8) ∉ utf8 first.source := fun zero => delimited.1 ((zero_mem_utf8 _).mp zero)
  have cleanKind : (0 : UInt8) ∉ utf8 first.kind := fun zero => delimited.2 ((zero_mem_utf8 _).mp zero)
  have one : (names first).count 0 = 1 := by
    simp [names, count_eq_zero.mpr cleanSource, count_eq_zero.mpr cleanKind]
  have cleanSource' : (0 : UInt8) ∉ utf8 second.source := by
    rw [same] at one
    simp only [names, count_append, count_cons_self] at one
    exact count_eq_zero.mp (by omega)
  obtain ⟨source, kind⟩ := terminated_field_unique cleanSource cleanSource' same
  exact ⟨utf8_injective source, utf8_injective kind⟩

theorem delimited_unique (delimited : Delimited first)
    (same : preimage first = preimage second) : SameCommitment first second := by
  rw [preimage_eq, preimage_eq] at same
  obtain ⟨fronts, rests⟩ := append_inj same (by rw [front_length, front_length])
  have presence : first.ruleHash.isSome = second.ruleHash.isSome :=
    ruleHash_isSome_eq (names first ++ [0]) (names second ++ [0]) (by simpa using rests)
  obtain ⟨strings, backs⟩ := append_inj' rests (by simp [back_length, presence])
  obtain ⟨sequence, chainId, prevHash⟩ := front_injective fronts
  obtain ⟨source, kind⟩ := names_injective delimited strings
  obtain ⟨secs, payloadHash, ruleHash⟩ := back_injective (cons_inj_right 0 |>.mp backs)
  exact ⟨sequence, chainId, prevHash, source, kind, secs, payloadHash, ruleHash⟩

/-! ### Moving the split -/

def rename (event : ChainEvent) (source kind : String) : ChainEvent := { event with source, kind }

theorem preimage_rename {event : ChainEvent} (same : utf8 source ++ 0 :: utf8 kind = names event) :
    preimage (rename event source kind) = preimage event := by
  rw [preimage_eq, preimage_eq, ← same]
  rfl

theorem utf8_push_nul (text : String) : utf8 (text.push nul) = utf8 text ++ [0] := by
  have zero : utf8 (String.singleton nul) = [0] := by decide
  rw [← String.append_singleton, utf8_append, zero]

theorem split_at_nul (member : nul ∈ text.toList) :
    ∃ left right : String, utf8 text = utf8 left ++ 0 :: utf8 right := by
  obtain ⟨left, right, split⟩ := append_of_mem member
  refine ⟨String.ofList left, String.ofList right, ?_⟩
  have zero : String.utf8EncodeChar nul = [0] := by decide
  rw [utf8_eq_flatMap, split, flatMap_append, flatMap_cons, zero, utf8_ofList, utf8_ofList]
  rfl

theorem collision_of_not_delimited {event : ChainEvent} (inside : ¬ Delimited event) :
    ∃ other, preimage other = preimage event ∧ other.source ≠ event.source := by
  by_cases source : nul ∈ event.source.toList
  · obtain ⟨left, right, split⟩ := split_at_nul source
    refine ⟨rename event left (right.push nul ++ event.kind), preimage_rename ?_, ?_⟩
    · simp [names, split, utf8_append, utf8_push_nul]
    · intro same
      have lengths := congrArg (fun text => (utf8 text).length) same
      simp [rename, split] at lengths
  · have kind : nul ∈ event.kind.toList := by
      by_contra absent
      exact inside ⟨source, absent⟩
    obtain ⟨left, right, split⟩ := split_at_nul kind
    refine ⟨rename event (event.source.push nul ++ left) right, preimage_rename ?_, ?_⟩
    · simp [names, split, utf8_append, utf8_push_nul]
    · intro same
      have lengths := congrArg (fun text => (utf8 text).length) same
      simp [rename, utf8_append, utf8_push_nul] at lengths

/-- The preimage of an event is shared with no differing event exactly when its
source and kind contain no NUL character. -/
theorem preimage_commits_iff (event : ChainEvent) :
    (∀ other, preimage other = preimage event → SameCommitment other event) ↔ Delimited event := by
  constructor
  · intro commits
    by_contra inside
    obtain ⟨other, same, differs⟩ := collision_of_not_delimited inside
    exact differs (commits other same).source
  · intro delimited other same
    have reverse := delimited_unique delimited same.symm
    exact ⟨reverse.sequence.symm, reverse.chainId.symm, reverse.prevHash.symm, reverse.source.symm,
      reverse.kind.symm, reverse.secs.symm, reverse.payloadHash.symm, reverse.ruleHash.symm⟩

/-- Two appends to the same chain whose strings split at different separators are
hashed from the same bytes. -/
theorem moved_separator_collides :
    preimage ((ChainManager.new .sample 0 0 .epoch).nextEvent .sample "a" "b\x00c" none none .epoch none) =
        preimage ((ChainManager.new .sample 0 0 .epoch).nextEvent .sample "a\x00b" "c" none none .epoch none) ∧
      ((ChainManager.new .sample 0 0 .epoch).nextEvent .sample "a" "b\x00c" none none .epoch none).source ≠
        ((ChainManager.new .sample 0 0 .epoch).nextEvent .sample "a\x00b" "c" none none .epoch none).source := by
  decide +kernel

end Weftos.Chain.Preimage
