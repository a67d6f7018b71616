import Weftos.Lib.Json
import Weftos.Lib.Text

/-! Canonical JSON for signed statements (`clawft-types/src/project/canon.rs`):
the `serde_json` rendering with object keys in byte order. -/

namespace Weftos.Project.Canon
open Lib.Bytes Lib.Json

/-- What the governance code takes from outside the workspace: SHA-256, the decimal
rendering of a float in JSON, and the `{:?}` form of a string in a message. -/
structure External where
  sha256 : Octets → Digest
  floatText : UInt64 → String
  debug : String → String

def External.plain : External := ⟨fun _ => Digest.zero, fun _ => "0.0", fun text => "\"" ++ text ++ "\""⟩

def escapeChar (c : Char) : String :=
  match c.toNat with
  | 0x22 => "\\\""
  | 0x5c => "\\\\"
  | 0x08 => "\\b"
  | 0x09 => "\\t"
  | 0x0a => "\\n"
  | 0x0c => "\\f"
  | 0x0d => "\\r"
  | code => if code < 0x20 then "\\u00" ++ hexEncode [UInt8.ofNat code] else c.toString

def quoted (text : String) : String := "\"" ++ String.join (text.toList.map escapeChar) ++ "\""

def numberText (host : External) : Number → String
  | .posInt value => toString value.toNat
  | .negInt magnitude => "-" ++ toString magnitude.toNat
  | .float bits => host.floatText bits

def commaList (items : List String) : String := String.intercalate "," items

mutual
def canonicalJson (host : External) : Value → String
  | .null => "null"
  | .bool true => "true"
  | .bool false => "false"
  | .num value => numberText host value
  | .str text => quoted text
  | .arr items => "[" ++ commaList (canonicalItems host items) ++ "]"
  | .obj fields =>
    let sorted := (canonicalFields host fields).insertionSort (fun first second => first.1 ≤ second.1)
    "\x7b" ++ commaList (sorted.map fun field => quoted field.1 ++ ":" ++ field.2) ++ "\x7d"
def canonicalItems (host : External) : List Value → List String
  | [] => []
  | item :: rest => canonicalJson host item :: canonicalItems host rest
def canonicalFields (host : External) : List (String × Value) → List (String × String)
  | [] => []
  | (key, value) :: rest => (key, canonicalJson host value) :: canonicalFields host rest
end

/-- A lowercase hex digit; uppercase is refused so a digest has one spelling. -/
def lowerNibble (c : UInt8) : Except Unit UInt8 :=
  if 48 ≤ c ∧ c ≤ 57 then .ok (c - 48)
  else if 97 ≤ c ∧ c ≤ 102 then .ok (c - 97 + 10)
  else .error ()

def hexDecode (width : Nat) (text : String) : Option Octets :=
  if (utf8 text).length ≠ width * 2 then none
  else (hexPairs () lowerNibble (utf8 text)).toOption

example : canonicalJson .plain
    (.obj [("b", .arr [.nat 7, .null]), ("a", .str "x\n")]) = "\x7b\"a\":\"x\\n\",\"b\":[7,null]\x7d" := by
  decide

end Weftos.Project.Canon
