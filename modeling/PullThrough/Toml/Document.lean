import PullThrough.Config.Datum
import PullThrough.Toml.Scalars
/-!
TOML documents. The text is read line by line into a tree of tables, which remember how
they were made: a table may be opened by a header once, and what dotted keys made can
only grow by dotted keys.
-/
namespace PullThrough.Toml

def skipSpaces (s : List Char) : List Char := s.dropWhile isSpace

/-- What follows a comment, which ends before the line break. -/
def comment? : List Char → Option (List Char)
  | '#' :: s =>
    let isEnd c := c == '\n' || c == '\r'
    let text := s.takeWhile fun c => !isEnd c
    if text.all isPlain then some (s.dropWhile fun c => !isEnd c) else none
  | s => some s

/-- The rest behind blanks, a comment if there is one, and the end of the line. -/
def lineEnd? (s : List Char) : Option (List Char) := do
  match ← comment? (skipSpaces s) with
  | [] => some []
  | rest => newline? rest

/-! ## Keys -/

def isBare (c : Char) : Bool :=
  ('A' ≤ c && c ≤ 'Z') || ('a' ≤ c && c ≤ 'z') || isDigit c || c == '_' || c == '-'

/-- One part of a key: quoted, or of plain characters. -/
def keyPart? : List Char → Option (String × List Char)
  | [] => none
  | c :: rest =>
    if c = '"' ∨ c = '\'' then line? c rest
    else
      match (c :: rest).takeWhile isBare with
      | [] => none
      | name => some (String.ofList name, (c :: rest).dropWhile isBare)

/-- The most parts that a key may have, and the most lists and tables inside each other. -/
def maxDepth : Nat := 79

/-- A key with points between its parts. -/
def key? : Nat → List Char → Option (List String × List Char)
  | 0, _ => none
  | n + 1, s => do
    let (part, rest) ← keyPart? (skipSpaces s)
    match skipSpaces rest with
    | '.' :: rest => (key? n rest).map fun (parts, rest) => (part :: parts, rest)
    | rest => some ([part], rest)

/-- The parts before the last and the last. -/
def splitKey (key : List String) : List String × String := (key.dropLast, key.getLastD "")

/-! ## Tables of a document -/

/-- A table of a document. It is `implicit` until a header opens it, and `dotted`
if dotted keys made it. -/
inductive Item where
  | value (d : Datum)
  | table (isImplicit isDotted : Bool) (entries : List (String × Item))
  | tables (items : List (List (String × Item)))

/-- A table by itself. -/
structure Table where
  isImplicit : Bool := false
  isDotted : Bool := false
  entries : List (String × Item) := []

def Table.toItem (t : Table) : Item := .table t.isImplicit t.isDotted t.entries

/-- The entries with a new value at a name, at its old place or at the end. -/
def setEntry (entries : List (String × Item)) (name : String) (item : Item) :
    List (String × Item) :=
  if entries.any (·.1 == name) then
    entries.map fun e => if e.1 == name then (name, item) else e
  else entries ++ [(name, item)]

/-- Changes the table at the end of a path. Tables on the way are made where there are none. Dotted
keys may not enter a table that a header opened. -/
def Table.change? (isDotted : Bool) (f : Table → Option Table) : List String → Table → Option Table
  | [], t => f t
  | name :: path, t =>
    let put (item : Item) : Table := { t with entries := setEntry t.entries name item }
    match t.entries.lookup name with
    | none => (change? isDotted f path ⟨true, isDotted, []⟩).map fun u => put u.toItem
    | some (.value _) => none
    | some (.table isImplicit wasDotted entries) =>
      if isDotted && !isImplicit then none
      else (change? isDotted f path ⟨isImplicit, wasDotted, entries⟩).map fun u => put u.toItem
    | some (.tables items) =>
      match items.getLast? with
      | none => none
      | some last =>
        (change? isDotted f path ⟨false, false, last⟩).map fun u =>
          put (.tables (items.dropLast ++ [u.entries]))

/-- Adds a value under a key. -/
def Table.add? (key : List String) (d : Datum) (t : Table) : Option Table :=
  let (path, name) := splitKey key
  t.change? true (fun u =>
    if u.isDotted = path.isEmpty || (u.entries.lookup name).isSome then none
    else some { u with entries := u.entries ++ [(name, .value d)] }) path

mutual

/-- The plain data of a table's entry. -/
def Item.toDatum : Item → Datum
  | .value d => d
  | .table _ _ entries => .table (entriesToData entries)
  | .tables items => .list false (tablesToData items)

def entriesToData : List (String × Item) → List (String × Datum)
  | [] => []
  | (name, item) :: rest => (name, item.toDatum) :: entriesToData rest

def tablesToData : List (List (String × Item)) → List Datum
  | [] => []
  | entries :: rest => .table (entriesToData entries) :: tablesToData rest

end

/-! ## Values -/

/-- Blanks, comments and line breaks left out. -/
def skipAll? : Nat → List Char → Option (List Char)
  | 0, _ => none
  | n + 1, s =>
    match skipSpaces s with
    | '#' :: rest => do
      let rest ← comment? ('#' :: rest)
      skipAll? n (← newline? rest)
    | rest =>
      match newline? rest with
      | some rest => skipAll? n rest
      | none => some rest

/-- The name under which a date or a time is the only entry of a table. -/
def dateTimeName : String := "$__toml_private_datetime"

/-- A value that holds no other. -/
def scalarValue? (s : List Char) : Option (Datum × List Char) :=
  match s with
  | [] => none
  | c :: _ =>
    if c = '"' ∨ c = '\'' then (string? s).map fun (t, rest) => (.text t, rest)
    else if let some rest := "true".toList.isPrefixOf? s then some (.boolean true, rest)
    else if let some rest := "false".toList.isPrefixOf? s then some (.boolean false, rest)
    else if let some (t, rest) := dateTime? s then
      some (.table [(dateTimeName, .text (String.ofList t))], rest)
    else if let some (x, rest) := float? s then some (.float x, rest)
    else (integer? s).map fun (n, rest) => (.integer n, rest)

mutual

/-- A value. The first argument bounds the reading, the second says how many lists and tables may
lie inside each other. -/
def value? : Nat → Nat → List Char → Option (Datum × List Char)
  | 0, _, _ => none
  | n + 1, depth, s =>
    match s with
    | '[' :: rest =>
      if depth = 0 then none
      else (items? n (depth - 1) rest).map fun (items, rest) => (.list false items, rest)
    | '\x7b' :: rest =>
      if depth = 0 then none
      else
        match skipSpaces rest with
        | '\x7d' :: rest => some (.table [], rest)
        | rest =>
          (pairs? n (depth - 1) ⟨false, false, []⟩ rest).map fun (t, rest) =>
            (.table (entriesToData t.entries), rest)
    | s => scalarValue? s

/-- The items of a list up to its closing bracket. A comma may stand behind the last one. -/
def items? : Nat → Nat → List Char → Option (List Datum × List Char)
  | 0, _, _ => none
  | n + 1, depth, s => do
    match ← skipAll? (s.length + 1) s with
    | ']' :: rest => some ([], rest)
    | s =>
      let (item, rest) ← value? n depth s
      match ← skipAll? (rest.length + 1) rest with
      | ',' :: rest => (items? n depth rest).map fun (items, rest) => (item :: items, rest)
      | ']' :: rest => some ([item], rest)
      | _ => none

/-- The pairs of a table in braces up to the closing one. Dotted keys make tables there too. -/
def pairs? : Nat → Nat → Table → List Char → Option (Table × List Char)
  | 0, _, _, _ => none
  | n + 1, depth, t, s => do
    let (key, rest) ← key? maxDepth s
    let rest ← char? '=' rest
    let (d, rest) ← value? n depth (skipSpaces rest)
    let t ← t.add? key d
    match skipSpaces rest with
    | ',' :: rest => pairs? n depth t rest
    | '\x7d' :: rest => some (t, rest)
    | _ => none
end

/-! ## Lines -/

/-- A document under way: the tables that are finished, the one that lines add to, and
where that one belongs. -/
structure Draft where
  finished : Table := {}
  current : Table := {}
  path : List String := []
  inList : Bool := false

/-- Puts the current table into its place. -/
def Draft.close? (d : Draft) : Option Table :=
  match d.path with
  | [] => some d.current
  | key =>
    let (path, name) := splitKey key
    d.finished.change? false (fun parent =>
      match parent.entries.lookup name with
      | none =>
        let item := if d.inList then .tables [d.current.entries] else d.current.toItem
        some { parent with entries := parent.entries ++ [(name, item)] }
      | some (.tables items) =>
        if d.inList then
          some { parent with
            entries := setEntry parent.entries name (.tables (items ++ [d.current.entries])) }
        else none
      | some _ => none) path

/-- Takes the table that a header opens out of its parent: a new one, or one that was only
implied. -/
def reopen? (name : String) (parent : Table) : Option (Table × Table) :=
  match parent.entries.lookup name with
  | none => some ({}, parent)
  | some (.table true false entries) =>
    some (⟨false, false, entries⟩,
      { parent with entries := parent.entries.filter fun e => e.1 != name })
  | some _ => none

/-- The table at the end of a path. -/
def Table.find? : List String → Table → Option Table
  | [], t => some t
  | name :: path, t =>
    match t.entries.lookup name with
    | none => some ⟨true, false, []⟩
    | some (.value _) => none
    | some (.table isImplicit isDotted entries) => find? path ⟨isImplicit, isDotted, entries⟩
    | some (.tables items) => (items.getLast?).bind fun last => find? path ⟨false, false, last⟩

/-- Opens a table by its header. -/
def Draft.openTable? (d : Draft) (key : List String) : Option Draft := do
  let finished ← d.close?
  let (path, name) := splitKey key
  let (current, _) ← reopen? name (← finished.find? path)
  let finished ← finished.change? false (fun parent => (reopen? name parent).map (·.2)) path
  some ⟨finished, current, key, false⟩

/-- Opens a further table of a list of tables by its header. -/
def Draft.openItem? (d : Draft) (key : List String) : Option Draft := do
  let finished ← d.close?
  let (path, name) := splitKey key
  let finished ← finished.change? false (fun parent =>
    match parent.entries.lookup name with
    | none => some { parent with entries := parent.entries ++ [(name, .tables [])] }
    | some (.tables _) => some parent
    | some _ => none) path
  some ⟨finished, {}, key, true⟩

/-- A header behind its opening brackets. -/
def header? (brackets : Nat) (s : List Char) : Option (List String × List Char) := do
  let (key, rest) ← key? maxDepth s
  let rest ← (List.replicate brackets ']').isPrefixOf? rest
  some (key, ← lineEnd? rest)

/-- One line that says something. -/
def statement? (d : Draft) (s : List Char) : Option (Draft × List Char) :=
  match s with
  | '[' :: '[' :: s => do
    let (key, rest) ← header? 2 s
    some (← d.openItem? key, rest)
  | '[' :: s => do
    let (key, rest) ← header? 1 s
    some (← d.openTable? key, rest)
  | s => do
    let (key, rest) ← key? maxDepth s
    let rest ← char? '=' rest
    let (value, rest) ← value? (2 * s.length + 2) maxDepth (skipSpaces rest)
    let rest ← lineEnd? rest
    some ({ d with current := ← d.current.add? key value }, rest)

/-- The lines of a document. The first argument bounds their number. -/
def lines : Nat → Draft → List Char → Option Draft
  | 0, _, _ => none
  | n + 1, d, s =>
    match skipSpaces s with
    | [] => some d
    | s =>
      match lineEnd? s with
      | some rest => lines n d rest
      | none =>
        match statement? d s with
        | some (d, rest) => lines n d rest
        | none => none

/-- The document that a text is. A byte order mark in front is left out. -/
def parse? (s : List Char) : Option Datum := do
  let s :=
    match s with
    | '\uFEFF' :: rest => rest
    | s => s
  let d ← lines (s.length + 1) {} s
  let t ← d.close?
  some t.toItem.toDatum

end PullThrough.Toml
