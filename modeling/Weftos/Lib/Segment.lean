import Weftos.Lib.Bytes

/-! A segment format: a 64-byte header, then the payload, padded with zeros to a multiple of 64 bytes. -/

namespace Weftos.Lib.Segment
open Bytes List

def headerSize : Nat := 64

def paddedSize (header size : Nat) : Nat := (header + size + 63) / 64 * 64

def magic : Octets := [0x53, 0x46, 0x56, 0x52]

def checksum (payload : Octets) : Octets :=
  leBytes 16 (payload.foldl (fun total b => total * 257 + b.toNat) 1)

def headerBytes (kind : UInt8) (payload : Octets) (id : UInt64) : Octets :=
  magic ++ [1, kind, 0, 0] ++ leBytes 8 id.toNat ++ leBytes 8 payload.length ++ replicate 16 0 ++
    checksum payload ++ replicate 8 0

def write (kind : UInt8) (payload : Octets) (id : UInt64) : Octets :=
  headerBytes kind payload id ++ payload ++
    replicate (paddedSize headerSize payload.length - headerSize - payload.length) 0

structure Header where
  payloadLength : Nat
  checksum : Octets

/-- Reads the segment at the front of the input; what is shorter than its own header
says, or does not start with the magic number, is no segment. -/
def read (bytes : Octets) : Option (Header × Octets) :=
  if bytes.length < headerSize ∨ slice bytes 0 4 ≠ magic then none
  else
    let size := ofLeBytes (slice bytes 16 24)
    if bytes.length < headerSize + size then none
    else some (⟨size, slice bytes 40 56⟩, slice bytes headerSize (headerSize + size))

def validate (header : Header) (payload : Octets) : Except String Unit :=
  if header.checksum = checksum payload then .ok () else .error "content hash mismatch"

theorem paddedSize_ge (size : Nat) : headerSize + size ≤ paddedSize headerSize size := by
  unfold paddedSize headerSize
  omega

theorem checksum_length (payload : Octets) : (checksum payload).length = 16 := leBytes_length _ _

theorem headerBytes_length (kind : UInt8) (payload : Octets) (id : UInt64) :
    (headerBytes kind payload id).length = headerSize := by
  simp [headerBytes, magic, checksum_length, headerSize]

theorem write_length (kind : UInt8) (payload : Octets) (id : UInt64) :
    (write kind payload id).length = paddedSize headerSize payload.length := by
  have covers := paddedSize_ge payload.length
  simp only [write, length_append, headerBytes_length, length_replicate]
  omega

theorem write_take (kind : UInt8) (payload : Octets) (id : UInt64) :
    (write kind payload id).take (headerSize + payload.length) = headerBytes kind payload id ++ payload := by
  rw [write, take_left']
  rw [length_append, headerBytes_length]

section
variable (kind : UInt8) {payload : Octets} (id : UInt64)

theorem header_magic (rest : Octets) : slice (headerBytes kind payload id ++ rest) 0 4 = magic := by
  simp [slice, headerBytes, magic]

theorem header_size (fits : payload.length < 2 ^ 64) (rest : Octets) :
    ofLeBytes (slice (headerBytes kind payload id ++ rest) 16 24) = payload.length := by
  have field : slice (headerBytes kind payload id ++ rest) 16 24 = leBytes 8 payload.length := by
    simp [slice, headerBytes, magic]
  rw [field, ofLeBytes_leBytes 8 _ fits]

theorem header_checksum (rest : Octets) :
    slice (headerBytes kind payload id ++ rest) 40 56 = checksum payload := by
  simp [slice, headerBytes, magic, drop_append, drop_of_length_le, checksum_length]

variable (fits : payload.length < 2 ^ 64)
include fits

theorem read_front (rest : Octets) :
    read (headerBytes kind payload id ++ payload ++ rest) = some (⟨payload.length, checksum payload⟩, payload) := by
  have width := headerBytes_length kind payload id
  have body : slice (headerBytes kind payload id ++ (payload ++ rest)) headerSize
      (headerSize + payload.length) = payload := by
    rw [slice, ← width, drop_left]
    simp
  rw [append_assoc, read, if_neg]
  · simp only [header_size kind id fits, header_checksum, body]
    rw [if_neg]
    simp only [length_append, width]
    omega
  · rw [not_or, not_not]
    refine ⟨?_, header_magic kind id _⟩
    simp only [length_append, width]
    omega

theorem read_write (rest : Octets) :
    read (write kind payload id ++ rest) = some (⟨payload.length, checksum payload⟩, payload) := by
  rw [write, append_assoc, read_front kind id fits]

theorem read_cut (short : n < headerSize + payload.length) :
    read ((write kind payload id).take n) = none := by
  have width := headerBytes_length kind payload id
  by_cases inHeader : n < headerSize
  · rw [read, if_pos]
    left
    rw [length_take]
    omega
  · have shape : (write kind payload id).take n =
        headerBytes kind payload id ++ payload.take (n - headerSize) := by
      rw [write, append_assoc, take_append, take_append, width, take_of_length_le (by omega),
        Nat.sub_eq_zero_of_le (by omega : n - headerSize ≤ payload.length)]
      simp
    rw [shape, read, if_neg]
    · simp only [header_size kind id fits]
      rw [if_pos]
      simp only [length_append, width, length_take]
      omega
    · rw [not_or, not_not]
      refine ⟨?_, header_magic kind id _⟩
      simp only [length_append, width]
      omega

end

theorem read_other (other : first ≠ 0x53) : read (first :: rest) = none := by
  rw [read, if_pos]
  right
  intro same
  exact other (head_eq_of_cons_eq same)

theorem read_length (found : read bytes = some (header, payload)) : header.payloadLength = payload.length := by
  unfold read at found
  split_ifs at found with bad
  dsimp only at found
  split_ifs at found with short
  cases found
  generalize ofLeBytes (slice bytes 16 24) = size at *
  simp only [slice, length_take, length_drop]
  omega

theorem validate_checksum (size : Nat) (payload : Octets) : validate ⟨size, checksum payload⟩ payload = .ok () := by
  simp [validate]

end Weftos.Lib.Segment
