/-!
Blank characters: those with the Unicode property White_Space.
-/
namespace PullThrough.Text

def isBlank (c : Char) : Bool :=
  let n := c.toNat
  (0x09 ≤ n && n ≤ 0x0D) || n == 0x20 || n == 0x85 || n == 0xA0 || n == 0x1680 ||
    (0x2000 ≤ n && n ≤ 0x200A) || n == 0x2028 || n == 0x2029 || n == 0x202F || n == 0x205F ||
    n == 0x3000

/-- The text less the blanks in front. -/
def trimStart (s : List Char) : List Char := s.dropWhile isBlank

/-- The text less the blanks at both ends. -/
def trim (s : List Char) : List Char := (trimStart (trimStart s).reverse).reverse

end PullThrough.Text
