import PullThrough.Digest
/-!
Names of groups, images and tags, and what is made of them. Every name that becomes part of a path
or of an address passes the checks of this module first. Lengths count UTF-8 octets.
-/
namespace PullThrough

def isAsciiDigit (c : Char) : Bool := '0' ≤ c && c ≤ '9'

def isAsciiLower (c : Char) : Bool := 'a' ≤ c && c ≤ 'z'

def isAsciiAlnum (c : Char) : Bool :=
  isAsciiDigit c || isAsciiLower c || ('A' ≤ c && c ≤ 'Z')

/-- The marks allowed inside names. -/
def isNameMark (c : Char) : Bool := c == '.' || c == '_' || c == '-'

/-- A text that stands for a folder relative to itself. -/
def isDots (s : List Char) : Bool := s == ['.'] || s == ['.', '.']

namespace Name

/-- Groups: one path component, at most 255 octets. -/
def isGroup (s : String) : Bool :=
  s.toList != [] && s.utf8ByteSize ≤ 255 && !isDots s.toList &&
    s.toList.all fun c => isAsciiAlnum c || isNameMark c

/-- One component of an image name. It begins with a letter or a digit. -/
def isComponent (s : List Char) : Bool :=
  s != [] && !isDots s &&
    (s.all fun c => isAsciiLower c || isAsciiDigit c || isNameMark c) &&
    s.head?.any isAsciiAlnum

/-- Images: components between slashes, at most 255 octets. -/
def isImage (s : String) : Bool :=
  s.utf8ByteSize ≤ 255 && (s.toList.splitOn '/').all isComponent

/-- Plain tags: at most 128 octets. -/
def isPlainTag (s : String) : Bool :=
  s.toList != [] && s.utf8ByteSize ≤ 128 &&
    s.toList.head?.any (fun c => isAsciiAlnum c || c == '_') &&
    s.toList.all fun c => isAsciiAlnum c || isNameMark c

def checkGroup (s : String) : Except NameFault Unit :=
  if isGroup s then .ok () else .error (.group s)

def checkImage (s : String) : Except NameFault Unit :=
  if isImage s then .ok () else .error (.image s)

/-- A tag is a plain tag or, where it begins like one, a digest. -/
def checkTag (s : String) : Except NameFault Unit :=
  if Digest.mark.toList.isPrefixOf s.toList then (Digest.parse s).map fun _ => ()
  else if isPlainTag s then .ok ()
  else .error (.tag s)

/-- The origin's repository of an image: official images live under `library`. -/
def repository (image : String) : String :=
  if image.toList.contains '/' then image else "library/" ++ image

/-- The scope that grants pulling an image of a group. -/
def pullScope (group image : String) : String := group ++ "/" ++ image

end Name

end PullThrough
