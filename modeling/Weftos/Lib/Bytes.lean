import Mathlib.Data.List.Infix
import Mathlib.Tactic.Ring

/-! Byte strings: fixed-width little-endian words, UTF-8 text, lowercase hex, and
the one fact about zero-terminated fields that separator-based encodings rest on. -/

namespace Weftos.Lib.Bytes
open List

variable (width value : Nat)

abbrev Octets := List UInt8

/-! ### Little-endian words -/

def leBytes : (width value : Nat) → Octets
  | 0, _ => []
  | width + 1, value => UInt8.ofNat (value % 256) :: leBytes width (value / 256)

def ofLeBytes : Octets → Nat
  | [] => 0
  | b :: rest => b.toNat + 256 * ofLeBytes rest

@[simp] theorem leBytes_length : (leBytes width value).length = width := by
  induction width generalizing value with
  | zero => rfl
  | succ width ih => simp [leBytes, ih]

theorem ofLeBytes_leBytes (fits : value < 256 ^ width) :
    ofLeBytes (leBytes width value) = value := by
  induction width generalizing value with
  | zero =>
    simp only [pow_zero] at fits
    simp only [leBytes, ofLeBytes]
    omega
  | succ width ih =>
    have smaller : value / 256 < 256 ^ width := by
      rw [Nat.div_lt_iff_lt_mul (by decide)]
      simpa only [pow_succ] using fits
    simp only [leBytes, ofLeBytes, ih _ smaller, UInt8.toNat_ofNat']
    omega

theorem leBytes_ofLeBytes (bytes : Octets) : leBytes bytes.length (ofLeBytes bytes) = bytes := by
  induction bytes with
  | nil => rfl
  | cons b rest ih =>
    have bound := b.toNat_lt
    have low : (b.toNat + 256 * ofLeBytes rest) % 256 = b.toNat := by omega
    have high : (b.toNat + 256 * ofLeBytes rest) / 256 = ofLeBytes rest := by omega
    rw [length_cons, ofLeBytes, leBytes, low, high, ih, UInt8.ofNat_toNat]

theorem leBytes_injective (width : Nat) (fitsFirst : first < 256 ^ width)
    (fitsSecond : second < 256 ^ width) (same : leBytes width first = leBytes width second) :
    first = second := by
  rw [← ofLeBytes_leBytes width first fitsFirst, same, ofLeBytes_leBytes width second fitsSecond]

theorem leBytes_getLast :
    (leBytes (width + 1) value).getLast? = some (UInt8.ofNat (value / 256 ^ width % 256)) := by
  induction width generalizing value with
  | zero => simp [leBytes]
  | succ width ih =>
    have inner := ih (value / 256)
    rw [Nat.div_div_eq_div_mul, ← pow_succ'] at inner
    rw [leBytes, getLast?_cons, inner]
    rfl

def slice (bytes : Octets) (start stop : Nat) : Octets := (bytes.drop start).take (stop - start)

/-! ### Text as bytes -/

def utf8 (text : String) : Octets := text.toByteArray.data.toList

theorem utf8_eq_flatMap (text : String) : utf8 text = text.toList.flatMap String.utf8EncodeChar := by
  rw [utf8, ← String.utf8Encode_toList, utf8Encode, data_toByteArray, toList_toArray]

theorem utf8_injective : Function.Injective utf8 := by
  intro first second same
  apply String.toByteArray_inj.mp
  apply ByteArray.ext
  exact Array.toList_inj.mp same

theorem utf8_append (first second : String) : utf8 (first ++ second) = utf8 first ++ utf8 second := by
  simp [utf8_eq_flatMap]

theorem utf8_ofList (chars : List Char) :
    utf8 (String.ofList chars) = chars.flatMap String.utf8EncodeChar := by
  rw [utf8_eq_flatMap, String.toList_ofList]

private theorem zero_ne_ofNat {value : Nat} (positive : 0 < value) (bounded : value < 256) :
    (0 : UInt8) ≠ UInt8.ofNat value := by
  intro same
  have values := congrArg UInt8.toNat same
  rw [UInt8.toNat_ofNat', Nat.mod_eq_of_lt (by omega)] at values
  change 0 = value at values
  omega

theorem zero_mem_utf8EncodeChar (c : Char) :
    (0 : UInt8) ∈ String.utf8EncodeChar c ↔ c = Char.ofNat 0 := by
  constructor
  · intro zero
    simp only [String.utf8EncodeChar] at zero
    have small : c.toNat = 0 := by
      by_contra positive
      change ¬ c.val.toNat = 0 at positive
      split_ifs at zero <;> simp only [mem_cons, not_mem_nil, or_false] at zero
      · exact zero_ne_ofNat (by omega) (by omega) zero
      · rcases zero with zero | zero <;> exact zero_ne_ofNat (by omega) (by omega) zero
      · rcases zero with zero | zero | zero <;> exact zero_ne_ofNat (by omega) (by omega) zero
      · rcases zero with zero | zero | zero | zero <;> exact zero_ne_ofNat (by omega) (by omega) zero
    rw [← Char.ofNat_toNat c, small]
  · rintro rfl
    decide

theorem zero_mem_utf8 (text : String) : (0 : UInt8) ∈ utf8 text ↔ Char.ofNat 0 ∈ text.toList := by
  rw [utf8_eq_flatMap, mem_flatMap]
  constructor
  · rintro ⟨c, member, zero⟩
    exact (zero_mem_utf8EncodeChar c).mp zero ▸ member
  · intro member
    exact ⟨_, member, (zero_mem_utf8EncodeChar _).mpr rfl⟩

theorem utf8EncodeChar_ascii (ascii : c.toNat ≤ 127) : String.utf8EncodeChar c = [UInt8.ofNat c.toNat] := by
  change c.val.toNat ≤ 127 at ascii
  simp only [String.utf8EncodeChar, if_pos ascii]
  rfl

theorem terminated_field_unique (cleanFirst : mark ∉ first) (cleanSecond : mark ∉ second)
    (same : first ++ mark :: restFirst = second ++ mark :: restSecond) :
    first = second ∧ restFirst = restSecond := by
  induction first generalizing second with
  | nil =>
    cases second with
    | nil => exact ⟨rfl, tail_eq_of_cons_eq same⟩
    | cons b second =>
      have head : mark = b := head_eq_of_cons_eq same
      exact absurd (head ▸ mem_cons_self) cleanSecond
  | cons a first ih =>
    cases second with
    | nil =>
      have head : a = mark := head_eq_of_cons_eq same
      exact absurd (head ▸ mem_cons_self) cleanFirst
    | cons b second =>
      have head : a = b := head_eq_of_cons_eq same
      obtain ⟨fields, rests⟩ := ih (fun member => cleanFirst (mem_cons_of_mem _ member))
        (fun member => cleanSecond (mem_cons_of_mem _ member)) (tail_eq_of_cons_eq same)
      exact ⟨by rw [head, fields], rests⟩

/-! ### Lowercase hex -/

def hexPair (b : UInt8) : List Char := [Nat.digitChar (b.toNat / 16), Nat.digitChar (b.toNat % 16)]

def hexEncode (bytes : Octets) : String := String.ofList (bytes.flatMap hexPair)

/-- Reads pairs of hex digits with a given digit reader; an odd byte is refused. -/
def hexPairs {ε : Type} (odd : ε) (nibble : UInt8 → Except ε UInt8) : Octets → Except ε Octets
  | [] => .ok []
  | [_] => .error odd
  | high :: low :: rest => do
      let hi ← nibble high
      let lo ← nibble low
      let tail ← hexPairs odd nibble rest
      pure ((hi <<< 4 ||| lo) :: tail)

private theorem utf8_hexPair (b : UInt8) : (hexPair b).flatMap String.utf8EncodeChar =
    [UInt8.ofNat (Nat.digitChar (b.toNat / 16)).toNat, UInt8.ofNat (Nat.digitChar (b.toNat % 16)).toNat] := by
  have digitAscii : ∀ n : Fin 16, (Nat.digitChar n.val).toNat ≤ 127 := by decide
  have high := b.toNat_lt
  simp only [hexPair, flatMap_cons, flatMap_nil, append_nil]
  rw [utf8EncodeChar_ascii (digitAscii ⟨b.toNat / 16, by omega⟩),
    utf8EncodeChar_ascii (digitAscii ⟨b.toNat % 16, by omega⟩)]
  rfl

theorem utf8_hexEncode_length (bytes : Octets) : (utf8 (hexEncode bytes)).length = 2 * bytes.length := by
  induction bytes with
  | nil => rfl
  | cons b rest ih =>
    rw [hexEncode, utf8_ofList] at ih ⊢
    rw [flatMap_cons, flatMap_append, length_append, ih, utf8_hexPair]
    simp only [length_cons, length_nil]
    omega

private theorem nibbles_join (b : UInt8) :
    (UInt8.ofNat (b.toNat / 16) <<< 4 ||| UInt8.ofNat (b.toNat % 16)) = b := by
  have table : ∀ n : Fin 256, (UInt8.ofNat (n.val / 16) <<< 4 ||| UInt8.ofNat (n.val % 16)) = UInt8.ofNat n.val := by
    decide +kernel
  have entry := table ⟨b.toNat, b.toNat_lt⟩
  rwa [UInt8.ofNat_toNat] at entry

theorem hexPairs_hexEncode {ε : Type} (odd : ε) (nibble : UInt8 → Except ε UInt8)
    (inverts : ∀ n : Fin 16, nibble (UInt8.ofNat (Nat.digitChar n.val).toNat) = .ok (UInt8.ofNat n.val))
    (bytes : Octets) : hexPairs odd nibble (utf8 (hexEncode bytes)) = .ok bytes := by
  induction bytes with
  | nil => rfl
  | cons b rest ih =>
    have bound := b.toNat_lt
    have hi := inverts ⟨b.toNat / 16, by omega⟩
    have lo := inverts ⟨b.toNat % 16, by omega⟩
    rw [hexEncode, utf8_ofList] at ih ⊢
    rw [flatMap_cons, flatMap_append, utf8_hexPair]
    simp only [cons_append, nil_append, hexPairs, ih]
    simp only at hi lo
    rw [hi, lo]
    change Except.ok ((UInt8.ofNat (b.toNat / 16) <<< 4 ||| UInt8.ofNat (b.toNat % 16)) :: rest) = _
    rw [nibbles_join b]

theorem hexEncode_injective : Function.Injective hexEncode := by
  let digit (b : UInt8) : Except Unit UInt8 := .ok (if b < 58 then b - 48 else b - 87)
  have inverts : ∀ n : Fin 16, digit (UInt8.ofNat (Nat.digitChar n.val).toNat) = .ok (UInt8.ofNat n.val) := by
    decide +kernel
  intro first second same
  have read := hexPairs_hexEncode () digit inverts first
  rw [same, hexPairs_hexEncode () digit inverts second] at read
  exact (Except.ok.inj read).symm

theorem hexEncode_digits (listed : c ∈ (hexEncode bytes).toList) : ∃ n : Fin 16, c = Nat.digitChar n.val := by
  rw [hexEncode, String.toList_ofList] at listed
  obtain ⟨b, -, digit⟩ := mem_flatMap.mp listed
  have bound := b.toNat_lt
  simp only [hexPair, mem_cons, not_mem_nil, or_false] at digit
  obtain high | low := digit
  · exact ⟨⟨b.toNat / 16, by omega⟩, high⟩
  · exact ⟨⟨b.toNat % 16, by omega⟩, low⟩

theorem utf8_hexEncode_of_hexPairs {ε : Type} {odd : ε} {nibble : UInt8 → Except ε UInt8}
    (digits : ∀ b v, nibble b = .ok v → ∃ n : Fin 16, v = UInt8.ofNat n.val ∧
      b = UInt8.ofNat (Nat.digitChar n.val).toNat)
    {text bytes : Octets} (read : hexPairs odd nibble text = .ok bytes) : utf8 (hexEncode bytes) = text := by
  have halves : ∀ hi lo : Fin 16, ((UInt8.ofNat hi.val <<< 4 ||| UInt8.ofNat lo.val).toNat / 16 = hi.val) ∧
      (UInt8.ofNat hi.val <<< 4 ||| UInt8.ofNat lo.val).toNat % 16 = lo.val := by
    decide +kernel
  induction text using hexPairs.induct generalizing bytes with
  | case1 =>
    cases read
    rfl
  | case2 b => cases read
  | case3 high low rest ih =>
    unfold hexPairs at read
    cases first : nibble high with
    | error e =>
      rw [first] at read
      cases read
    | ok hi =>
      cases second : nibble low with
      | error e =>
        rw [first, second] at read
        cases read
      | ok lo =>
        cases later : hexPairs odd nibble rest with
        | error e =>
          rw [first, second, later] at read
          cases read
        | ok tail =>
          rw [first, second, later] at read
          cases read
          obtain ⟨n, rfl, rfl⟩ := digits high hi first
          obtain ⟨m, rfl, rfl⟩ := digits low lo second
          have tailRead := ih later
          rw [hexEncode, utf8_ofList] at tailRead ⊢
          rw [flatMap_cons, flatMap_append, utf8_hexPair, (halves n m).1, (halves n m).2, tailRead]
          rfl

/-! ### Digests -/

abbrev Digest := { bytes : Octets // bytes.length = 32 }

def Digest.zero : Digest := ⟨replicate 32 0, by simp⟩

instance : Inhabited Digest := ⟨Digest.zero⟩

theorem digests_append_inj {first second : List Digest} {rest rest' : Octets} (count : first.length = second.length)
    (same : first.flatMap Subtype.val ++ rest = second.flatMap Subtype.val ++ rest') : first = second := by
  induction first generalizing second with
  | nil => exact (length_eq_zero_iff.mp count.symm).symm
  | cons a first ih =>
    cases second with
    | nil => exact absurd count nofun
    | cons b second =>
      rw [flatMap_cons, flatMap_cons, append_assoc, append_assoc] at same
      obtain ⟨heads, tails⟩ := append_inj same (a.property.trans b.property.symm)
      rw [Subtype.ext heads, ih (Nat.succ.inj count) tails]

def Digest.hex (digest : Digest) : String := hexEncode digest.val

end Weftos.Lib.Bytes
