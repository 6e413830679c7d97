import PullThrough.Json.Reader
/-!
Reading values that may be given up. A value that cannot be read in full, because a string is
no text, a number has no finite value or the nesting is too deep, is given up at the octet
where that shows, and whatever contains it goes on from there. An attempt that ends early
leaves octets that nothing can go on with, so a value is given up without harm only if its last
part is what cannot be read.
-/
namespace PullThrough.Json

/-- What a reading came to, nothing if it was given up, and the octets that it left. -/
structure Attempt (α : Type) where
  outcome : Option α
  rest : Bytes

namespace Attempt

def map (f : α → β) (a : Attempt α) : Attempt β := ⟨a.outcome.map f, a.rest⟩

/-- A reading that was given up. -/
def givenUp (rest : Bytes) : Attempt α := ⟨none, rest⟩

/-- The outcome, null if there is none. -/
def settle (a : Attempt Json) : Json × Bytes := (a.outcome.getD .null, a.rest)

/-! ## Strings -/

/-- The number that four hexadecimal digits spell. Four octets are passed over in any case. -/
def ofHexQuad : Bytes → Attempt Nat
  | a :: b :: c :: d :: rest => ⟨hexQuad? a b c d, rest⟩
  | _ => givenUp []

/-- The second of two surrogates. One octet that does not begin its escape is passed over, two if
the first is a backslash. -/
def ofSecondSurrogate (first : Nat) : Bytes → Attempt Nat
  | 0x5C :: 0x75 :: s =>
    match ofHexQuad s with
    | ⟨some second, rest⟩ =>
      if isLowSurrogate second then
        ⟨some (0x10000 + (first - 0xD800) * 0x400 + (second - 0xDC00)), rest⟩
      else givenUp rest
    | a => a
  | 0x5C :: s => givenUp (s.drop 1)
  | s => givenUp (s.drop 1)

/-- The code point of an escape in UTF-16, whose mark has been read. -/
def ofCodePoint (s : Bytes) : Attempt Nat :=
  match ofHexQuad s with
  | ⟨some u, rest⟩ =>
    if isHighSurrogate u then ofSecondSurrogate u rest
    else if isLowSurrogate u then givenUp rest
    else ⟨some u, rest⟩
  | a => a

/-- The octets of an escape whose backslash has been read. -/
def ofEscape : Bytes → Attempt Bytes
  | [] => givenUp []
  | x :: rest =>
    if x = 0x75 then (ofCodePoint rest).map codePoint
    else ⟨(shortEscape? x).map ([·]), rest⟩

/-- The octets of a string up to its closing quote, `seen` being those before them, backwards. The
first argument bounds how far the reading may go on. -/
def ofPieces : Nat → Bytes → Bytes → Attempt Bytes
  | 0, _, s => givenUp s
  | _ + 1, _, [] => givenUp []
  | n + 1, seen, x :: rest =>
    if x = 0x22 then ⟨some seen.reverse, rest⟩
    else if x = 0x5C then
      match ofEscape rest with
      | ⟨some octets, rest⟩ => ofPieces n (octets.reverse ++ seen) rest
      | a => a
    else if x < 0x20 then givenUp rest
    else ofPieces n (x :: seen) rest

/-- The string whose opening quote has been read. Whether it is text is seen at its end. -/
def ofString (s : Bytes) : Attempt Bytes :=
  let a := ofPieces s.length [] s
  ⟨a.outcome.filter fun octets => (Bytes.text? octets).isSome, a.rest⟩

/-! ## Numbers -/

/-- The greatest exponent of which all digits are read. -/
def maxExponent : Nat := 2147483647

/-- What follows the digits of an exponent, or the digit that makes it too great. -/
def afterExponent : Nat → Bytes → Bytes
  | _, [] => []
  | n, x :: rest =>
    if isDigit x then
      let n := 10 * n + (x.toNat - 0x30)
      if n > maxExponent then rest else afterExponent n rest
    else x :: rest

/-- What is left by a number that has no finite value. -/
def afterNumber (s : Bytes) : Bytes :=
  match s.dropWhile fun x => isDigit x || x == 0x2D || x == 0x2E with
  | [] => []
  | x :: rest =>
    if x = 0x65 ∨ x = 0x45 then
      afterExponent 0 (rest.dropWhile fun y => y == 0x2B || y == 0x2D)
    else x :: rest

def ofNumber (s : Bytes) : Attempt Json :=
  match number? s with
  | none => givenUp s
  | some (j, rest) => if j.isReadable then ⟨some j, rest⟩ else givenUp (afterNumber s)

/-! ## Values -/

/-- A word that stands for a value. -/
def ofWord (word : String) (value : Json) (s : Bytes) : Attempt Json :=
  match word? word value s with
  | some (j, rest) => ⟨some j, rest⟩
  | none => givenUp s

/-- What is left by a list that is given up: its closing bracket is passed over, or a comma. -/
def afterList (s : Bytes) : Bytes :=
  match skipBlanks s with
  | 0x5D :: rest => rest
  | 0x2C :: rest => skipBlanks rest
  | rest => rest

/-- What is left by an object that is given up: its closing brace is passed over. -/
def afterObject (s : Bytes) : Bytes :=
  match skipBlanks s with
  | 0x7D :: rest => rest
  | rest => rest

mutual

/-- One value. The first argument bounds how far the reading may go on, the second how many lists
and objects may lie inside each other. -/
def ofValue : Nat → Nat → Bytes → Attempt Json
  | 0, _, s => givenUp s
  | n + 1, depth, s =>
    match skipBlanks s with
    | [] => givenUp []
    | x :: rest =>
      if x = 0x22 then (ofString rest).map .string
      else if x = 0x5B then
        if depth = 0 then givenUp (x :: rest)
        else
          match skipBlanks rest with
          | 0x5D :: rest => ⟨some (.array []), rest⟩
          | rest => (ofItems n (depth - 1) rest).map .array
      else if x = 0x7B then
        if depth = 0 then givenUp (x :: rest)
        else
          match skipBlanks rest with
          | 0x7D :: rest => ⟨some (.object []), rest⟩
          | rest => (ofMembers n (depth - 1) rest).map .object
      else if x = 0x6E then ofWord "null" .null (x :: rest)
      else if x = 0x74 then ofWord "true" (.bool true) (x :: rest)
      else if x = 0x66 then ofWord "false" (.bool false) (x :: rest)
      else ofNumber (x :: rest)

/-- The items up to the closing bracket, at least one. -/
def ofItems : Nat → Nat → Bytes → Attempt (List Json)
  | 0, _, s => givenUp s
  | n + 1, depth, s =>
    match ofValue n depth s with
    | ⟨none, rest⟩ => givenUp (afterList rest)
    | ⟨some item, rest⟩ =>
      match skipBlanks rest with
      | 0x5D :: rest => ⟨some [item], rest⟩
      | 0x2C :: rest => (ofItems n depth rest).map (item :: ·)
      | rest => givenUp rest

/-- The members up to the closing brace, at least one. -/
def ofMembers : Nat → Nat → Bytes → Attempt (List (Bytes × Json))
  | 0, _, s => givenUp s
  | n + 1, depth, s =>
    match skipBlanks s with
    | 0x22 :: rest =>
      match ofString rest with
      | ⟨none, rest⟩ => givenUp (afterObject rest)
      | ⟨some key, rest⟩ =>
        match skipBlanks rest with
        | 0x3A :: rest =>
          match ofValue n depth rest with
          | ⟨none, rest⟩ => givenUp (afterObject rest)
          | ⟨some value, rest⟩ =>
            match skipBlanks rest with
            | 0x7D :: rest => ⟨some [(key, value)], rest⟩
            | 0x2C :: rest => (ofMembers n depth rest).map ((key, value) :: ·)
            | rest => givenUp rest
        | rest => givenUp (afterObject rest)
    | rest => givenUp (afterObject rest)

end

/-- A value that may hold no other: a list or an object is given up behind its opening. -/
def ofSingle (n : Nat) (s : Bytes) : Attempt Json :=
  match skipBlanks s with
  | 0x5B :: rest => givenUp (afterList rest)
  | 0x7B :: rest => givenUp (afterObject rest)
  | rest => ofValue n 0 rest

end Attempt

/-! ## Objects -/

/-- The members up to the closing brace, at least one, the value of each read by its name. -/
def membersBy? (read : Bytes → Bytes → Option (Json × Bytes)) :
    Nat → Bytes → Option (List (Bytes × Json) × Bytes)
  | 0, _ => none
  | n + 1, s =>
    match skipBlanks s with
    | 0x22 :: rest =>
      match string? rest with
      | none => none
      | some (key, rest) =>
        match skipBlanks rest with
        | 0x3A :: rest =>
          match read key rest with
          | none => none
          | some (value, rest) =>
            match skipBlanks rest with
            | 0x7D :: rest => some ([(key, value)], rest)
            | 0x2C :: rest =>
              (membersBy? read n rest).map fun (members, rest) => ((key, value) :: members, rest)
            | _ => none
        | _ => none
    | _ => none

/-- The object with at least one member that the octets are, the values read by their names. -/
def objectBy? (read : Bytes → Bytes → Option (Json × Bytes)) (s : Bytes) : Option Json :=
  match skipBlanks s with
  | 0x7B :: rest =>
    match membersBy? read rest.length rest with
    | some (members, rest) => if skipBlanks rest = [] then some (.object members) else none
    | none => none
  | _ => none

end PullThrough.Json
