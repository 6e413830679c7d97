/-!
Octet strings as lists, and the texts they spell in UTF-8. `Bytes.text?` accepts well-formed UTF-8
only and undoes `Bytes.ofText`; `Bytes.lossyText` reads anything and puts U+FFFD where it must.
-/
namespace PullThrough

/-- A string of octets. -/
abbrev Bytes := List UInt8

namespace Bytes

/-- The UTF-8 octets of a text. -/
def ofText (s : String) : Bytes := s.toByteArray.data.toList

/-- The text that the octets spell, if they are well-formed UTF-8. -/
def text? (b : Bytes) : Option String := String.fromUTF8? ⟨b.toArray⟩

@[simp] theorem ofText_empty : ofText "" = [] := rfl

@[simp] theorem ofText_append (s t : String) : ofText (s ++ t) = ofText s ++ ofText t := by
  simp [ofText]

@[simp] theorem text?_ofText (s : String) : text? (ofText s) = some s := by
  unfold text? ofText String.fromUTF8?
  rw [Array.toArray_toList, dif_pos s.isValidUTF8]
  rfl

theorem ofText_of_text? {b : Bytes} {s : String} (h : text? b = some s) : ofText s = b := by
  simp only [text?, String.fromUTF8?] at h
  split at h
  · obtain rfl := Option.some.inj h
    exact List.toList_toArray
  · simp at h

/-- Reading octets as text undoes writing, and accepts nothing else. -/
theorem text?_eq_some_iff {b : Bytes} {s : String} : text? b = some s ↔ b = ofText s :=
  ⟨fun h => (ofText_of_text? h).symm, fun h => h ▸ text?_ofText s⟩

/-! ## Reading with replacement -/

/-- What a leading octet announces: a finished character, or the bits it carries and the range that
each following octet has to lie in. -/
inductive Lead where
  | whole (c : Char)
  | opens (bits : Nat) (next : UInt8 × UInt8) (more : List (UInt8 × UInt8))
  | stray

/-- The range of an unrestricted following octet. -/
def anyTail : UInt8 × UInt8 := (0x80, 0xBF)

/-- Ranges of well-formed sequences: no overlong form, no surrogate, nothing above U+10FFFF. -/
def lead (b : UInt8) : Lead :=
  if b < 0x80 then .whole (Char.ofNat b.toNat)
  else if b < 0xC2 then .stray
  else if b < 0xE0 then .opens (b.toNat % 0x20) anyTail []
  else if b = 0xE0 then .opens 0 (0xA0, 0xBF) [anyTail]
  else if b = 0xED then .opens 0xD (0x80, 0x9F) [anyTail]
  else if b < 0xF0 then .opens (b.toNat % 0x10) anyTail [anyTail]
  else if b = 0xF0 then .opens 0 (0x90, 0xBF) [anyTail, anyTail]
  else if b < 0xF4 then .opens (b.toNat % 8) anyTail [anyTail, anyTail]
  else if b = 0xF4 then .opens 4 (0x80, 0x8F) [anyTail, anyTail]
  else .stray

/-- The character that stands for octets that spell none. -/
def replacement : Char := '\uFFFD'

/-- A sequence under way: the bits so far and the ranges still due, the first of them apart. -/
structure Pending where
  bits : Nat
  next : UInt8 × UInt8
  more : List (UInt8 × UInt8)

/-- Takes an octet outside any sequence: the characters it yields and the sequence it opens. -/
def decodeLead (b : UInt8) : List Char × Option Pending :=
  match lead b with
  | .whole c => ([c], none)
  | .opens bits next more => ([], some ⟨bits, next, more⟩)
  | .stray => ([replacement], none)

/-- Takes one octet. An octet out of range ends the sequence under way, which then counts as one
replacement, and is read afresh. -/
def decodeOctet : Option Pending → UInt8 → List Char × Option Pending
  | none, b => decodeLead b
  | some p, b =>
    if p.next.1 ≤ b ∧ b ≤ p.next.2 then
      let bits := p.bits * 0x40 + b.toNat % 0x40
      match p.more with
      | [] => ([Char.ofNat bits], none)
      | next :: more => ([], some ⟨bits, next, more⟩)
    else
      let (out, state) := decodeLead b
      (replacement :: out, state)

/-- The state after some octets: the characters so far, last one first, and the sequence under
way. -/
def decodeStep (state : List Char × Option Pending) (b : UInt8) : List Char × Option Pending :=
  let (out, pending) := decodeOctet state.2 b
  (out.reverse ++ state.1, pending)

/-- The text of the octets, with one U+FFFD for each longest start of a sequence that is not
completed and for each octet that starts none. -/
def lossyText (b : Bytes) : String :=
  let (out, pending) := b.foldl decodeStep ([], none)
  String.ofList (if pending.isSome then replacement :: out else out).reverse

end Bytes

end PullThrough
