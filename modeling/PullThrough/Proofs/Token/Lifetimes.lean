import Mathlib.Algebra.Group.Int.Defs
import Mathlib.Algebra.Group.Nat.Defs
import PullThrough.Proofs.Token.Signer
/-
  How long an issued token is good, and for what.

  A token carries all that its check needs, so whoever holds the secret reads from it what it was
  issued with: until it expires it gives back exactly its claims, and it opens exactly the scope
  that it was issued for (`Signer.validate_until_expiry`). Subject and scope are any texts. The
  lifetime of the signer that checks does not count, only its secret (`Signer.verify_congr`).

  Times are seconds in sixty-four bits. Nothing is claimed about a lifetime that leads
  out of them (`Signer.Fits`); with it the sum is the one of the integers, and an issue
  time before 1970 is fine.
-/
namespace PullThrough

/-! ## Lifetimes -/

/-- A token that is issued at a time expires at a time that it can say: in sixty-four bits, and not
before 1970. -/
def Signer.Fits (s : Signer) (now : Int64) : Prop :=
  0 ≤ now.toInt + s.ttl.toNat ∧ now.toInt + s.ttl.toNat < 2 ^ 63

/-- The second of expiry, as sixty-four bits have it. -/
theorem Signer.toInt_expires (s : Signer) (now : Int64) :
    (now + s.ttl.toInt64).toInt = (now.toInt + s.ttl.toNat : Int).bmod (2 ^ 64) := by
  have httl : s.ttl.toInt64.toInt = (s.ttl.toNat : Int).bmod (2 ^ 64) :=
    BitVec.toInt_eq_toNat_bmod s.ttl.toBitVec
  rw [Int64.toInt_add, httl, Int.add_bmod_bmod]

/-- A lifetime that fits is added without loss. -/
theorem Signer.Fits.toInt_expires {s : Signer} {now : Int64} (h : s.Fits now) :
    (now + s.ttl.toInt64).toInt = now.toInt + s.ttl.toNat := by
  obtain ⟨hlow, hhigh⟩ := h
  rw [Signer.toInt_expires]
  refine Int.bmod_eq_of_le ?_ ?_
  · omega
  · omega

namespace Signer

/-! ## Signers of one secret -/

variable {s reader : Signer}

/-- A signer reads tokens by its secret alone. -/
theorem verify_congr (hsecret : reader.secret = s.secret) (text : String) :
    reader.verify text = s.verify text := by
  obtain ⟨secret, ttl⟩ := s
  obtain ⟨secret', ttl'⟩ := reader
  subst hsecret
  rfl

theorem decode_congr (hsecret : reader.secret = s.secret) (text : String) (now : Int64) :
    reader.decode text now = s.decode text now := by
  rw [decode, decode, verify_congr hsecret]

/-! ## Issued tokens -/

/-- An issued token whose lifetime fits gives back its claims, up to the second in which it
expires. -/
theorem Fits.decode_issue {issued : Int64} (hfits : s.Fits issued) (subject scope : String)
    (now : Int64) :
    s.decode (s.issue subject scope issued).text now =
      if issued.toInt + s.ttl.toNat ≤ now.toInt then .error .expired
      else .ok (s.issue subject scope issued).claims := by
  have hexpires := hfits.toInt_expires
  have hpositive : ¬ issued + s.ttl.toInt64 < 0 := by
    rw [Int64.lt_iff_toInt_lt, hexpires]
    exact Int.not_lt.2 hfits.1
  rw [Signer.decode_issue, if_neg hpositive]
  simp only [Int64.le_iff_toInt_le, hexpires]

/-- What a token says, what it is read as and what it opens, at any second and for any scope. The
token names the second of its expiry; from then on it is expired, whatever it was for. Before that
it is read as its claims, and it opens the scope that it was issued for and no other. -/
theorem validate_until_expiry (hsecret : reader.secret = s.secret) {issued : Int64}
    (hfits : s.Fits issued) (subject scope : String) :
    (∃ expires : Int64, expires.toInt = issued.toInt + s.ttl.toNat ∧
      (s.issue subject scope issued).claims =
        ⟨subject, scope, issued, expires, Claims.proxyIssuer⟩) ∧
    (∀ now : Int64, reader.decode (s.issue subject scope issued).text now =
      if issued.toInt + s.ttl.toNat ≤ now.toInt then .error .expired
      else .ok (s.issue subject scope issued).claims) ∧
    ∀ (required : String) (now : Int64),
      reader.validate (s.issue subject scope issued).text required now =
        if issued.toInt + s.ttl.toNat ≤ now.toInt then .error .expired
        else if scope = required then .ok subject
        else .error (.scopeMismatch required scope) := by
  have hdecode : ∀ now, reader.decode (s.issue subject scope issued).text now =
      if issued.toInt + s.ttl.toNat ≤ now.toInt then .error .expired
      else .ok (s.issue subject scope issued).claims := by
    intro now
    rw [decode_congr hsecret, hfits.decode_issue]
  refine ⟨⟨_, hfits.toInt_expires, rfl⟩, hdecode, ?_⟩
  intro required now
  rw [validate, hdecode]
  by_cases hdead : issued.toInt + s.ttl.toNat ≤ now.toInt
  · rw [if_pos hdead, if_pos hdead]
    rfl
  · rw [if_neg hdead, if_neg hdead]
    rfl

/-- A token that lives to the last second there is. Its subject is empty, and its scope has a quote,
a backslash and a control character. -/
theorem validate_until_last_second :
    let s : Signer := ⟨Bytes.ofText "secret", 9223372036854775797⟩
    let reader : Signer := ⟨Bytes.ofText "secret", 0⟩
    let scope := "\"\\\x01é"
    let token := s.issue "" scope 10
    reader.secret = s.secret ∧ s.Fits 10 ∧
      reader.decode token.text 9223372036854775806 = .ok token.claims ∧
      reader.validate token.text scope 9223372036854775806 = .ok "" ∧
      reader.validate token.text "" 9223372036854775806 = .error (.scopeMismatch "" scope) ∧
      reader.validate token.text scope 9223372036854775807 = .error .expired := by
  intro s reader scope token
  have hfits : s.Fits 10 := by constructor <;> decide
  have hsecret : reader.secret = s.secret := rfl
  obtain ⟨-, hdecode, hvalidate⟩ := validate_until_expiry hsecret hfits "" scope
  refine ⟨hsecret, hfits, ?_, ?_, ?_, ?_⟩
  · rw [hdecode, if_neg (by decide)]
  · rw [hvalidate, if_neg (by decide), if_pos rfl]
  · rw [hvalidate, if_neg (by decide), if_neg (by decide)]
  · rw [hvalidate, if_pos (by decide)]

end Signer

end PullThrough
