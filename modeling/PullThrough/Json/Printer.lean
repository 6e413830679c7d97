import PullThrough.Json.Basic
import PullThrough.Text.Hex
/-!
Writing JSON, without blanks or indented by two per level. Only what has to be escaped is escaped:
quotes, backslashes and control characters, these by their short form where there is one.
-/
namespace PullThrough.Json

/-- One octet inside a string. -/
def escapeOctet (x : UInt8) : Bytes :=
  if x = 0x22 then [0x5C, 0x22]
  else if x = 0x5C then [0x5C, 0x5C]
  else if x = 0x08 then [0x5C, 0x62]
  else if x = 0x0C then [0x5C, 0x66]
  else if x = 0x0A then [0x5C, 0x6E]
  else if x = 0x0D then [0x5C, 0x72]
  else if x = 0x09 then [0x5C, 0x74]
  else if x < 0x20 then
    Bytes.ofText "\\u00" ++
      [UInt8.ofNat (Hex.digit (x.toNat / 16)).toNat, UInt8.ofNat (Hex.digit (x.toNat % 16)).toNat]
  else [x]

def quoted (octets : Bytes) : Bytes := 0x22 :: (octets.flatMap escapeOctet ++ [0x22])

/-- The parts with commas between them. -/
def joined (parts : List Bytes) : Bytes := (parts.intersperse [0x2C]).flatten

def decimalDigits (n : Nat) : Bytes := Bytes.ofText (toString n)

def integerText (n : Int) : Bytes :=
  if n < 0 then 0x2D :: decimalDigits n.natAbs else decimalDigits n.natAbs

/-- A value that holds no other. -/
def scalar : Json → Bytes
  | .null => Bytes.ofText "null"
  | .bool true => Bytes.ofText "true"
  | .bool false => Bytes.ofText "false"
  | .integer n => integerText n
  | .decimal negative digits exponent =>
    (if negative then [0x2D] else []) ++ decimalDigits digits ++ 0x65 :: integerText exponent
  | .string octets => quoted octets
  | .array _ => []
  | .object _ => []

mutual

/-- A document without blanks. -/
def compact : Json → Bytes
  | .array items => 0x5B :: (joined (compactItems items) ++ [0x5D])
  | .object members => 0x7B :: (joined (compactMembers members) ++ [0x7D])
  | j => scalar j

def compactItems : List Json → List Bytes
  | [] => []
  | j :: rest => j.compact :: compactItems rest

def compactMembers : List (Bytes × Json) → List Bytes
  | [] => []
  | (key, j) :: rest => (quoted key ++ 0x3A :: j.compact) :: compactMembers rest

end

/-- A line break and the indentation of a level. -/
def newLine (level : Nat) : Bytes := 0x0A :: List.replicate (2 * level) 0x20

/-- Parts between brackets, each on a line of its own one level further in. -/
def bracketed (opening closing : UInt8) (level : Nat) (parts : List Bytes) : Bytes :=
  if parts.isEmpty then [opening, closing]
  else
    opening :: (joined (parts.map (newLine (level + 1) ++ ·)) ++ newLine level ++ [closing])

mutual

/-- A document on lines, as seen from a level of indentation. -/
def indented (level : Nat) : Json → Bytes
  | .array items => bracketed 0x5B 0x5D level (indentedItems (level + 1) items)
  | .object members => bracketed 0x7B 0x7D level (indentedMembers (level + 1) members)
  | j => scalar j

def indentedItems (level : Nat) : List Json → List Bytes
  | [] => []
  | j :: rest => j.indented level :: indentedItems level rest

def indentedMembers (level : Nat) : List (Bytes × Json) → List Bytes
  | [] => []
  | (key, j) :: rest =>
    (quoted key ++ 0x3A :: 0x20 :: j.indented level) :: indentedMembers level rest

end

/-- A document on lines. -/
def pretty (j : Json) : Bytes := j.indented 0

end PullThrough.Json
