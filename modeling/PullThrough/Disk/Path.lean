/-!
Paths as texts name them: the parts between slashes, empty ones included. An absolute path
begins with an empty part.
-/
namespace PullThrough

/-- The parts of a path. -/
abbrev Path := List String

namespace Path

def ofText (s : String) : Path := (s.toList.splitOn '/').map String.ofList

def text (p : Path) : String := String.intercalate "/" p

/-- What a text stands for that is named inside a folder. An absolute path stands for itself. -/
def join (base : Path) (s : String) : Path :=
  if s.toList.head? = some '/' then ofText s
  else (if base.getLast? = some "" then base.dropLast else base) ++ ofText s

/-- A path less the parts at its end that lead nowhere. -/
def trimEnd (p : Path) : Path :=
  (p.reverse.dropWhile fun part => part == "" || part == ".").reverse

/-- The folder that a path's last part lies in. -/
def parent (p : Path) : Path := trimEnd (trimEnd p).dropLast

def lastPart (p : Path) : String := p.getLastD ""

/-- What the name of a file has behind its last point, if the name does not begin with that
point. -/
def suffix? (name : List Char) : Option (List Char) :=
  match name.reverse.span (· != '.') with
  | (_, []) => none
  | (_, [_]) => none
  | (after, _ :: _) => some after.reverse

end Path

end PullThrough
