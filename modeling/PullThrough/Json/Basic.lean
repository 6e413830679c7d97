import PullThrough.Bytes
/-!
JSON documents. A string is the octets it denotes; whether these are text is a question of
`Bytes.text?`, so that a document with a broken string in a place nobody looks at can still be read.
-/
namespace PullThrough

/-- A JSON value. A number is an integer only if it is written without fraction and exponent;
`-0` is none. The members of an object keep their order and their repetitions. -/
inductive Json where
  | null
  | bool (b : Bool)
  | integer (n : Int)
  /-- The number `digits · 10^exponent`, with its sign apart. -/
  | decimal (negative : Bool) (digits : Nat) (exponent : Int)
  | string (octets : Bytes)
  | array (items : List Json)
  | object (members : List (Bytes × Json))

namespace Json

/-- A text as a string value. -/
def text (s : String) : Json := .string (Bytes.ofText s)

def nat (n : Nat) : Json := .integer n

/-- An object with text keys. -/
def record (members : List (String × Json)) : Json :=
  .object (members.map fun (k, v) => (Bytes.ofText k, v))

def text? : Json → Option String
  | .string octets => Bytes.text? octets
  | _ => none

/-- The value of an integer from `low` to `high`. -/
def integer? (low high : Int) : Json → Option Int
  | .integer n => if low ≤ n ∧ n ≤ high then some n else none
  | _ => none

/-- The first member of a name. -/
def member? (key : String) : Json → Option Json
  | .object members => members.lookup (Bytes.ofText key)
  | _ => none

@[simp] theorem text?_text (s : String) : (text s).text? = some s := Bytes.text?_ofText s

/-! ## Reading a fixed set of fields -/

/-- The values of one field among the members. -/
def valuesOf (key : Bytes) (members : List (Bytes × Json)) : List Json :=
  (members.filter (·.1 == key)).map (·.2)

/-- The values of some fields of an object, those that are left out as `none`. Every key has to be
text and none of the fields may be repeated; further members are not looked at. -/
def fields? (names : List String) : Json → Option (List (Option Json))
  | .object members =>
    if members.all fun m => (Bytes.text? m.1).isSome then
      names.mapM fun name =>
        match valuesOf (Bytes.ofText name) members with
        | [] => some none
        | [v] => some (some v)
        | _ => none
    else none
  | _ => none

/-- The values of some fields of an object, or of an array that lists them all in order. -/
def fieldsOrItems? (names : List String) : Json → Option (List (Option Json))
  | .array items => if items.length = names.length then some (items.map some) else none
  | j => fields? names j

/-! ## Limits -/

mutual

/-- How many arrays and objects lie inside each other. -/
def depth : Json → Nat
  | .array items => 1 + depthOfItems items
  | .object members => 1 + depthOfMembers members
  | _ => 0

def depthOfItems : List Json → Nat
  | [] => 0
  | j :: rest => max j.depth (depthOfItems rest)

def depthOfMembers : List (Bytes × Json) → Nat
  | [] => 0
  | (_, j) :: rest => max j.depth (depthOfMembers rest)

end

end Json

end PullThrough
