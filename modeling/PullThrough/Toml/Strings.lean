import PullThrough.Text.Hex
/-!
The four forms of TOML strings. Each reader starts behind the opening quotes and gives the text and
what follows the closing quotes.
-/
namespace PullThrough.Toml

def isSpace (c : Char) : Bool := c == ' ' || c == '\t'

/-- Characters that may stand in comments, and in strings but for quotes and backslashes. -/
def isPlain (c : Char) : Bool :=
  let n := c.toNat
  n == 0x09 || (0x20 ≤ n && n ≤ 0x7E) || 0x80 ≤ n

/-- The rest behind a line break. -/
def newline? : List Char → Option (List Char)
  | '\n' :: rest => some rest
  | '\r' :: '\n' :: rest => some rest
  | _ => none

/-- The character that hexadecimal digits name, surrogates excluded. -/
def scalar? (digits : List Char) : Option Char := do
  let values ← digits.mapM Hex.value?
  let n := values.foldl (fun n d => 16 * n + d) 0
  if n.isValidChar then some (Char.ofNat n) else none

/-- The character that a one-letter escape stands for. -/
def shortEscape? (c : Char) : Option Char :=
  if c = '"' ∨ c = '\\' then some c
  else if c = 'b' then some '\x08'
  else if c = 't' then some '\t'
  else if c = 'n' then some '\n'
  else if c = 'f' then some '\x0C'
  else if c = 'r' then some '\r'
  else none

/-- The character of an escape behind its backslash. -/
def escape? : List Char → Option (Char × List Char)
  | [] => none
  | c :: rest =>
    let width := if c = 'u' then 4 else if c = 'U' then 8 else 0
    if width = 0 then (shortEscape? c).map fun d => (d, rest)
    else if rest.length < width then none
    else (scalar? (rest.take width)).map fun d => (d, rest.drop width)

/-- The rest of a string on one line. The first argument bounds its length, the second is what was
read, backwards. -/
def basic? : Nat → List Char → List Char → Option (String × List Char)
  | 0, _, _ => none
  | _, _, [] => none
  | n + 1, seen, c :: rest =>
    if c = '"' then some (String.ofList seen.reverse, rest)
    else if c = '\\' then
      match escape? rest with
      | some (d, rest) => basic? n (d :: seen) rest
      | none => none
    else if isPlain c then basic? n (c :: seen) rest
    else none

/-- The rest of a string on one line without escapes. -/
def literal? (s : List Char) : Option (String × List Char) :=
  let text := s.takeWhile (· != '\'')
  match s.dropWhile (· != '\'') with
  | _ :: rest => if text.all isPlain then some (String.ofList text, rest) else none
  | [] => none

/-- A run of quotes inside a string on several lines, or its end: the quotes that belong to the
string, and the rest if it ends here. Two quotes may stand before the closing three. -/
def quoteRun (quote : Char) (s : List Char) : Nat × Option (List Char) :=
  let run := (s.takeWhile (· == quote)).length
  if run < 3 then (run, none)
  else
    let inside := min (run - 3) 2
    (inside, some (s.drop (inside + 3)))

/-- Blanks and line breaks left out. -/
def skipLines : List Char → List Char
  | '\r' :: '\n' :: rest => skipLines rest
  | c :: rest => if isSpace c || c == '\n' then skipLines rest else c :: rest
  | [] => []

/-- The rest of a string on several lines, with escapes or without. -/
def multi? (quote : Char) (escapes : Bool) : Nat → List Char → List Char →
    Option (String × List Char)
  | 0, _, _ => none
  | _, _, [] => none
  | n + 1, seen, c :: rest =>
    if c = quote then
      match quoteRun quote (c :: rest) with
      | (inside, some rest) =>
        some (String.ofList (List.replicate inside quote ++ seen).reverse, rest)
      | (inside, none) =>
        multi? quote escapes n (List.replicate inside quote ++ seen) ((c :: rest).drop inside)
    else if escapes && c == '\\' then
      match newline? (rest.dropWhile isSpace) with
      | some rest => multi? quote escapes n seen (skipLines rest)
      | none =>
        match escape? rest with
        | some (d, rest) => multi? quote escapes n (d :: seen) rest
        | none => none
    else
      match newline? (c :: rest) with
      | some rest => multi? quote escapes n ('\n' :: seen) rest
      | none => if isPlain c then multi? quote escapes n (c :: seen) rest else none

/-- A string on several lines behind its opening quotes. A line break right behind them does not
count. -/
def lines? (quote : Char) (escapes : Bool) (s : List Char) : Option (String × List Char) :=
  multi? quote escapes (s.length + 1) [] ((newline? s).getD s)

/-- A string on one line behind its opening quote. -/
def line? (quote : Char) (s : List Char) : Option (String × List Char) :=
  if quote = '"' then basic? (s.length + 1) [] s else literal? s

/-- A string in any form. -/
def string? : List Char → Option (String × List Char)
  | [] => none
  | c :: rest =>
    if c = '"' ∨ c = '\'' then
      match [c, c].isPrefixOf? rest with
      | some rest => lines? c (c == '"') rest
      | none => line? c rest
    else none

end PullThrough.Toml
