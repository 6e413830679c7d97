import PullThrough.Text.Split
/-!
The targets of HTTP requests: a path with a query, an absolute address, an authority, or a star. Of
an address only path and query matter to the proxy.
-/
namespace PullThrough

/-- Path and query of a target. -/
structure Target where
  path : List Char
  query : Option (List Char)
  deriving DecidableEq, Repr

namespace Target

/-- The longest target, in octets. -/
def maxLength : Nat := 65534

/-- Characters of a path. Some that ought to be escaped are let through, as are all above ASCII. -/
def isPathChar (c : Char) : Bool :=
  let n := c.toNat
  n == 0x21 || (0x24 ≤ n && n ≤ 0x3B) || n == 0x3D || (0x40 ≤ n && n ≤ 0x5F) ||
    (0x61 ≤ n && n ≤ 0x7E) || 0x80 ≤ n || c == '"'

/-- Characters of a query. -/
def isQueryChar (c : Char) : Bool :=
  let n := c.toNat
  n == 0x21 || (0x24 ≤ n && n ≤ 0x3B) || n == 0x3D || (0x3F ≤ n && n ≤ 0x7E) || 0x80 ≤ n

/-- Path and query, less the fragment behind them. -/
def ofPathAndQuery? (s : List Char) : Option Target :=
  let path := s.takeWhile fun c => c != '?' && c != '#'
  let slashed := if path = [] then ['/'] else path
  match s.dropWhile fun c => c != '?' && c != '#' with
  | '?' :: rest =>
    let query := rest.takeWhile (· != '#')
    if path.all isPathChar && query.all isQueryChar then some ⟨slashed, some query⟩ else none
  | _ => if path.all isPathChar then some ⟨slashed, none⟩ else none

/-! ## Authorities -/

/-- Characters of an authority, its percent signs apart. -/
def isAuthorityChar (c : Char) : Bool :=
  ('0' ≤ c && c ≤ '9') || ('A' ≤ c && c ≤ 'Z') || ('a' ≤ c && c ≤ 'z') ||
    "!$&'()*+,-.:;=@[]_~".toList.contains c

/-- What the reading of an authority remembers: colons and percent signs since the last bracket or
at sign, brackets, and whether an at sign was last. -/
structure Scan where
  colons : Nat := 0
  percent : Bool := false
  opened : Bool := false
  closed : Bool := false
  atLast : Bool := false

def maxColons : Nat := 8

def Scan.take? (s : Scan) (c : Char) : Option Scan :=
  let s := { s with atLast := false }
  if c = ':' then if s.colons ≥ maxColons then none else some { s with colons := s.colons + 1 }
  else if c = '[' then if s.percent || s.opened then none else some { s with opened := true }
  else if c = ']' then
    if !s.opened || s.closed then none
    else some { s with closed := true, colons := 0, percent := false }
  else if c = '@' then some { s with atLast := true, colons := 0, percent := false }
  else if c = '%' then some { s with percent := true }
  else if isAuthorityChar c then some s
  else none

/-- Whether a text is an authority: balanced brackets, one colon at most behind the host, and a host
behind the at sign. -/
def isAuthority (s : List Char) : Bool :=
  match s.foldlM Scan.take? {} with
  | some scan => scan.opened == scan.closed && scan.colons ≤ 1 && !scan.atLast && !scan.percent
  | none => false

/-! ## Absolute addresses -/

def isSchemeChar (c : Char) : Bool :=
  ('0' ≤ c && c ≤ '9') || ('A' ≤ c && c ≤ 'Z') || ('a' ≤ c && c ≤ 'z') || "+-.~".toList.contains c

def maxScheme : Nat := 64

/-- What follows the scheme of an absolute address; a text that does not begin with a scheme is
given back as the second kind. None, if the scheme is too long. -/
def afterScheme? (s : List Char) : Option (Bool × List Char) :=
  let scheme := s.takeWhile isSchemeChar
  match s.dropWhile isSchemeChar with
  | ':' :: '/' :: '/' :: rest => if scheme.length > maxScheme then none else some (true, rest)
  | _ => some (false, s)

/-- Reads the target of a request. -/
def parse? (text : String) : Option Target :=
  let s := text.toList
  if text.utf8ByteSize > maxLength then none
  else
    match s with
    | [] => none
    | ['*'] => some ⟨['*'], none⟩
    | '/' :: _ => ofPathAndQuery? s
    | _ =>
      match afterScheme? s with
      | none => none
      | some (hasScheme, rest) =>
        let isEnd c := c == '/' || c == '?' || c == '#'
        let authority := rest.takeWhile fun c => !isEnd c
        let behind := rest.dropWhile fun c => !isEnd c
        if !isAuthority authority then none
        else if hasScheme then if authority = [] then none else ofPathAndQuery? behind
        else if behind = [] then some ⟨[], none⟩
        else none

end Target

end PullThrough
