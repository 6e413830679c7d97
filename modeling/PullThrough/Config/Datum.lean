import PullThrough.Decimal.Double
import PullThrough.Failure
import PullThrough.Json.Basic
import PullThrough.Text.Quoted
/-!
Configuration documents as plain data, whatever format they were written in, and the reading of
values out of them. A value that does not fit is reported with what was found and what was expected.
-/
namespace PullThrough

/-- A value of a configuration document. Tables keep the order of the document. A strict list may
not have more items than its reader wants. -/
inductive Datum where
  | null
  | boolean (b : Bool)
  | integer (n : Int)
  | float (x : Double)
  | text (s : String)
  | list (strict : Bool) (items : List Datum)
  | table (entries : List (String × Datum))

namespace Datum

/-- What a value is, for messages. -/
def describe : Datum → String
  | null => "null"
  | boolean b => "boolean `" ++ (if b then "true" else "false") ++ "`"
  | integer n => "integer `" ++ toString n ++ "`"
  | float x => "floating point `" ++ x.text ++ "`"
  | text s => "string " ++ Text.quoted s
  | list _ _ => "sequence"
  | table _ => "map"

mutual

/-- The document that a JSON value is. Of members with one name the last counts; broken strings are
read with replacements. -/
def ofJson : Json → Datum
  | .null => .null
  | .bool b => .boolean b
  | .integer n => .integer n
  | .decimal negative digits exponent => .float (Double.ofDecimal negative digits exponent)
  | .string octets => .text (Bytes.lossyText octets)
  | .array items => .list true (ofItems items)
  | .object members => .table (ofMembers members)

def ofItems : List Json → List Datum
  | [] => []
  | j :: rest => ofJson j :: ofItems rest

def ofMembers : List (Bytes × Json) → List (String × Datum)
  | [] => []
  | (key, j) :: rest =>
    let name := Bytes.lossyText key
    let entries := ofMembers rest
    if entries.any (·.1 == name) then entries else (name, ofJson j) :: entries

end

/-! ## Single values -/

def toText : Datum → Except Misfit String
  | text s => .ok s
  | d => .error (.wrongType d.describe "a string")

def toBool : Datum → Except Misfit Bool
  | boolean b => .ok b
  | d => .error (.wrongType d.describe "a boolean")

/-- A whole number of a number of bits, without sign. -/
def toUnsigned (bits : Nat) : Datum → Except Misfit Nat
  | integer n =>
    if 0 ≤ n ∧ n.toNat < Nat.pow 2 bits then .ok n.toNat
    else .error (.wrongValue (integer n).describe ("u" ++ toString bits))
  | d => .error (.wrongType d.describe ("u" ++ toString bits))

/-- A value that may be left out, in a document that can say so. -/
def toOption (read : Datum → Except Misfit α) : Datum → Except Misfit (Option α)
  | null => .ok none
  | d => (read d).map some

/-- A table of texts. -/
def toTexts : Datum → Except Misfit (List (String × String))
  | table entries => entries.mapM fun (name, d) => do return (name, ← toText d)
  | d => .error (.wrongType d.describe "a map")

/-! ## Records -/

/-- What a record is called and which fields it has, each with the check that its value has to
pass. -/
structure Shape where
  name : String
  fields : List (String × (Datum → Except Misfit Unit))

/-- A check out of a reading. -/
def fits (read : Datum → Except Misfit α) (d : Datum) : Except Misfit Unit := do
  let _ ← read d

/-- The known fields of a record that are there, and what to say of one that is not. -/
structure Row where
  values : List (String × Datum)
  missing : String → Misfit

/-- A record out of a table, or out of a list of its fields in order. The values are checked in the
order in which the document has them. -/
def toRow (shape : Shape) (d : Datum) : Except Misfit Row := do
  let names := shape.fields.map (·.1)
  let row : Row ←
    match d with
    | table entries => pure ⟨entries.filter fun e => names.contains e.1, .missing⟩
    | list strict items =>
      if strict && names.length < items.length then .error .wrongLength
      else pure ⟨names.zip items, fun _ => .wrongLength⟩
    | _ => .error (.wrongType d.describe ("struct " ++ shape.name))
  for (name, value) in row.values do
    if let some check := shape.fields.lookup name then check value
  return row

/-- The value of a required field. -/
def Row.need (row : Row) (name : String) (read : Datum → Except Misfit α) : Except Misfit α :=
  match row.values.lookup name with
  | some d => read d
  | none => .error (row.missing name)

/-- The value of a field that has a default. -/
def Row.getD (row : Row) (name : String) (read : Datum → Except Misfit α) (default : α) :
    Except Misfit α :=
  match row.values.lookup name with
  | some d => read d
  | none => .ok default

end Datum

end PullThrough
