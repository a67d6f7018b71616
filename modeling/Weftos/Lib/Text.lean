import Mathlib.Data.List.Sort
import Mathlib.Data.String.Basic

/-! Text operations with the meaning the Rust standard library documents for them, stated on the list of
characters. -/

namespace Weftos.Lib.Text

def startsWith (text front : String) : Bool := front.toList.isPrefixOf text.toList

def stripPrefix (text front : String) : Option String :=
  if startsWith text front then some (String.ofList (text.toList.drop front.toList.length)) else none

/-- The text without its last character, when that character is `last`. -/
def stripSuffix (text : String) (last : Char) : Option String :=
  match text.toList.reverse with
  | [] => none
  | c :: rest => if c = last then some (String.ofList rest.reverse) else none

def containsChar (text : String) (c : Char) : Bool := text.toList.contains c

def containsText (text word : String) : Bool :=
  text.toList.tails.any fun rest => word.toList.isPrefixOf rest

def isWhitespace (c : Char) : Bool :=
  (9 ≤ c.toNat && c.toNat ≤ 13) || (0x2000 ≤ c.toNat && c.toNat ≤ 0x200a) ||
    [0x20, 0x85, 0xa0, 0x1680, 0x2028, 0x2029, 0x202f, 0x205f, 0x3000].contains c.toNat

def trim (text : String) : String :=
  String.ofList ((text.toList.dropWhile isWhitespace).reverse.dropWhile isWhitespace).reverse

def lines (text : String) : List String :=
  let pieces := text.toList.splitOn '\n'
  let pieces := if pieces.getLast? = some [] then pieces.dropLast else pieces
  pieces.map fun piece => (stripSuffix (String.ofList piece) '\r').getD (String.ofList piece)

def asciiLower (c : Char) : Char :=
  if 'A' ≤ c ∧ c ≤ 'Z' then Char.ofNat (c.toNat + 32) else c

def toAsciiLowercase (text : String) : String := String.ofList (text.toList.map asciiLower)

/-- Unicode lowercasing as far as a search for an ASCII word can see it: outside ASCII only the Kelvin sign and
the dotted capital I have an ASCII letter in their lowercase form. -/
def toLowercase (text : String) : String :=
  String.ofList (text.toList.flatMap fun c =>
    if c.toNat = 0x212a then ['k']
    else if c.toNat = 0x130 then ['i', Char.ofNat 0x307]
    else [asciiLower c])

def isAsciiAlphanumeric (c : Char) : Bool :=
  ('a' ≤ c && c ≤ 'z') || ('A' ≤ c && c ≤ 'Z') || ('0' ≤ c && c ≤ '9')

/-- `str::parse::<u64>()`: an optional plus sign and at least one digit, in range. -/
def parseU64 (text : String) : Option UInt64 :=
  let digits :=
    match text.toList with
    | '+' :: rest => rest
    | chars => chars
  if digits ≠ [] ∧ digits.all Char.isDigit then
    let value := digits.foldl (fun total c => total * 10 + (c.toNat - 48)) 0
    if value < 2 ^ 64 then some (UInt64.ofNat value) else none
  else none

/-- The elements of a sorted set, in order: what a `BTreeSet<String>` yields. -/
def sortedSet (texts : List String) : List String :=
  (texts.insertionSort (· ≤ ·)).dedup

/-- Association-list view of a string map; the newest binding of a key is found first. -/
abbrev Map := List (String × String)

def Map.get (entries : Map) (key : String) : Option String := entries.lookup key

def Map.insert (entries : Map) (key value : String) : Map :=
  (key, value) :: entries.filter (fun entry => entry.1 != key)

def Map.remove (entries : Map) (key : String) : Map :=
  entries.filter (fun entry => entry.1 != key)

end Weftos.Lib.Text
