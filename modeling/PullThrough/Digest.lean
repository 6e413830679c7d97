import PullThrough.Failure
import PullThrough.Sha256
import PullThrough.Text.Hex
import PullThrough.Text.Split
/-!
Content digests: SHA-256, written `sha256:` and sixty-four lower-case hexadecimal digits. Reading a
digest undoes writing it, and accepts nothing else (`Digest.parse_eq_ok_iff`).
-/
namespace PullThrough

/-- The digest of some content, by its hexadecimal digits. -/
structure Digest where
  hex : String
  length_hex : hex.toList.length = 64
  isLower_hex : hex.toList.all Hex.isLower = true
  deriving DecidableEq

namespace Digest

/-- The digest of octets. -/
def of (data : Bytes) : Digest where
  hex := String.ofList (Hex.encode (Sha256.digest data))
  length_hex := by simp
  isLower_hex := by simpa using Hex.all_isLower_encode (Sha256.digest data)

/-- What every written digest begins with. -/
def mark : String := "sha256:"

def text (d : Digest) : String := mark ++ d.hex

/-- Reads a written digest. -/
def parse (s : String) : Except NameFault Digest :=
  match mark.toList.isPrefixOf? s.toList with
  | none => .error (.unsupportedDigest s)
  | some hex =>
    if h : hex.length = 64 ∧ hex.all Hex.isLower = true then
      .ok ⟨String.ofList hex, by simpa using h.1, by simpa using h.2⟩
    else .error (.malformedDigest s)

@[simp] theorem parse_text (d : Digest) : parse d.text = .ok d := by
  have h : d.hex.toList.length = 64 ∧ d.hex.toList.all Hex.isLower = true :=
    ⟨d.length_hex, d.isLower_hex⟩
  simp only [parse, text, String.toList_append, Text.isPrefixOf?_append, dif_pos h,
    String.ofList_toList]

theorem text_of_parse {s : String} {d : Digest} (h : parse s = .ok d) : d.text = s := by
  simp only [parse] at h
  split at h
  · simp at h
  · next hex hs =>
    split at h
    · simp only [Except.ok.injEq] at h
      subst h
      apply String.toList_inj.1
      simp [text, Text.eq_append_of_isPrefixOf? hs]
    · simp at h

/-- Exactly the written digests are read. -/
theorem parse_eq_ok_iff {s : String} {d : Digest} : parse s = .ok d ↔ s = d.text :=
  ⟨fun h => (text_of_parse h).symm, fun h => h ▸ parse_text d⟩

end Digest

end PullThrough
