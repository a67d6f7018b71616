import Weftos.Lib.Bytes

/-! JSON values as `serde_json::Value` holds them, with the accessors the program
reads payloads through and the compact rendering of scalars. -/

namespace Weftos.Lib.Json
open Bytes

/-- A number keeps the variant it was parsed or built as. A float is its bit pattern. -/
inductive Number where
  | posInt (value : UInt64)
  | negInt (magnitude : UInt64)
  | float (bits : UInt64)

inductive Value where
  | null
  | bool (value : Bool)
  | num (value : Number)
  | str (value : String)
  | arr (items : List Value)
  | obj (fields : List (String × Value))
  deriving Inhabited

def Value.nat (value : UInt64) : Value := .num (.posInt value)

def Value.get (value : Value) (key : String) : Option Value :=
  match value with
  | .obj fields => fields.lookup key
  | _ => none

def Value.asStr : Value → Option String
  | .str value => some value
  | _ => none

def Value.asU64 : Value → Option UInt64
  | .num (.posInt value) => some value
  | _ => none

def Value.asBool : Value → Option Bool
  | .bool value => some value
  | _ => none

/-- An absent option is `null`; this is how `json!` renders `Option`. -/
def Value.ofOption {α : Type} (render : α → Value) : Option α → Value
  | none => .null
  | some value => render value

def optionalField (key : String) : Option Value → List (String × Value)
  | some value => [(key, value)]
  | none => []

/-! ### CBOR -/

/-- A CBOR item head: major type and argument in the shortest form, big-endian. -/
def cborHead (major argument : Nat) : Octets :=
  let lead (low : Nat) : UInt8 := UInt8.ofNat (major * 32 + low)
  if argument < 24 then [lead argument]
  else if argument < 2 ^ 8 then lead 24 :: (leBytes 1 argument).reverse
  else if argument < 2 ^ 16 then lead 25 :: (leBytes 2 argument).reverse
  else if argument < 2 ^ 32 then lead 26 :: (leBytes 4 argument).reverse
  else lead 27 :: (leBytes 8 argument).reverse

mutual
/-- The CBOR encoding of a JSON value; floats are written in full width. -/
def Value.cbor : Value → Octets
  | .null => [0xf6]
  | .bool value => [if value then 0xf5 else 0xf4]
  | .num (.posInt value) => cborHead 0 value.toNat
  | .num (.negInt magnitude) => cborHead 1 (magnitude.toNat - 1)
  | .num (.float bits) => 0xfb :: (leBytes 8 bits.toNat).reverse
  | .str text => cborHead 3 (utf8 text).length ++ utf8 text
  | .arr items => cborHead 4 items.length ++ Value.cborItems items
  | .obj fields => cborHead 5 fields.length ++ Value.cborFields fields
def Value.cborItems : List Value → Octets
  | [] => []
  | item :: rest => item.cbor ++ Value.cborItems rest
def Value.cborFields : List (String × Value) → Octets
  | [] => []
  | (key, value) :: rest => cborHead 3 (utf8 key).length ++ utf8 key ++ value.cbor ++ Value.cborFields rest
end

end Weftos.Lib.Json
