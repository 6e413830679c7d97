import PullThrough.Config.Reader
import PullThrough.Gateway.Start
import PullThrough.Proofs.Gateway.Checkpoint
import PullThrough.Proofs.Job.Does
import PullThrough.Proofs.Token.Lifetimes
/-
  The tokens of a configuration.

  A configuration that is fit for use names a lifetime of tokens, and the only lifetime that is
  turned down is zero. Lifetimes are numbers of sixty-four bits without a sign and times are such
  numbers with one, so there are lifetimes that no time can have in it. The main result
  (`Config.opens_iff`) says which lifetimes serve: a token opens its scope in the second of its
  issue just when the second of its expiry is below 2^63. Beyond, the expiry wraps. The token is
  then one that nobody reads, or one that has expired before it was issued, and yet the
  configuration was found fit.

  Seconds of issue are taken from the years up to some 34000, which is far below the edge.
-/
namespace PullThrough

/-! ## What a configuration says of tokens -/

/-- The signer of a configuration, with a secret. -/
def Config.signer (c : Config) (secret : Bytes) : Signer := ⟨secret, UInt64.ofNat c.auth.tokenTtl⟩

/-- The lifetime of a configuration is one of sixty-four bits, as every one that is read. -/
def Config.IsSized (c : Config) : Prop := c.auth.tokenTtl < 2 ^ 64

namespace Datum

theorem lt_of_toUnsigned {bits n : Nat} {d : Datum} (h : toUnsigned bits d = .ok n) :
    n < 2 ^ bits := by
  unfold toUnsigned at h
  split at h
  · split at h
    · next hn =>
      cases h
      exact hn.2
    · cases h
  · cases h

/-- What is read of a field, or its default, passes what both pass. -/
theorem Row.getD_of_forall {row : Row} {name : String} {read : Datum → Except Misfit α}
    {default a : α} {P : α → Prop} (hdefault : P default) (hread : ∀ d a, read d = .ok a → P a)
    (h : row.getD name read default = .ok a) : P a := by
  unfold Row.getD at h
  split at h
  · exact hread _ _ h
  · cases h
    exact hdefault

end Datum

theorem AuthConfig.tokenTtl_lt {d : Datum} {c : AuthConfig} (h : AuthConfig.ofDatum d = .ok c) :
    c.tokenTtl < 2 ^ 64 := by
  simp only [AuthConfig.ofDatum, bind_eq_ok_iff] at h
  obtain ⟨_, -, _, -, ttl, httl, _, -, _, -, heq⟩ := h
  cases heq
  exact Datum.Row.getD_of_forall (P := (· < 2 ^ 64)) (by decide)
    (fun _ _ => Datum.lt_of_toUnsigned) httl

/-- Every configuration that is read is sized. -/
theorem Config.isSized_of_ofDatum {d : Datum} {c : Config} (h : Config.ofDatum d = .ok c) :
    c.IsSized := by
  simp only [Config.ofDatum, bind_eq_ok_iff] at h
  obtain ⟨_, -, _, -, _, -, _, -, auth, hauth, heq⟩ := h
  cases heq
  exact Datum.Row.getD_of_forall (P := fun auth => auth.tokenTtl < 2 ^ 64) (by decide)
    (fun _ _ => AuthConfig.tokenTtl_lt) hauth

/-- Every configuration of a document that is taken is sized and fit for use. -/
theorem Config.isSized_of_ofToml {text : String} {c : Config} (h : Config.ofToml text = .ok c) :
    c.IsSized ∧ c.validate = .ok () := by
  unfold Config.ofToml at h
  split at h
  · cases h
  split at h
  · cases h
  · next config hread =>
    simp only [bind_eq_ok_iff] at h
    obtain ⟨_, hvalid, heq⟩ := h
    cases heq
    exact ⟨Config.isSized_of_ofDatum hread, hvalid⟩

/-- A gateway is set up for a configuration that is fit for use, and signs as the configuration
says. -/
theorem Gateway.signer_of_ofConfig {c : Config} {g : Gateway} {w w' : World}
    (h : (Gateway.ofConfig c).run.run w = (.ok g, w')) :
    c.validate = .ok () ∧ ∃ secret, g.signer = c.signer secret := by
  unfold Gateway.ofConfig at h
  cases hvalid : c.validate with
  | error fault =>
    rw [hvalid] at h
    obtain ⟨_, _, hthrown, -⟩ := Attempt.run_bind_eq_ok h
    cases hthrown
  | ok _ =>
    rw [hvalid] at h
    obtain ⟨secret, _, -, h⟩ := Attempt.run_bind_eq_ok h
    obtain ⟨_, _, -, h⟩ := Attempt.run_bind_eq_ok h
    cases h
    exact ⟨rfl, secret, rfl⟩

/-! ## What tokens open in the second of their issue -/

namespace Config

variable {c : Config} {secret : Bytes} {subject scope : String} {now : Int64}

theorem toNat_ttl (hsized : c.IsSized) (secret : Bytes) :
    (c.signer secret).ttl.toNat = c.auth.tokenTtl :=
  UInt64.toNat_ofNat_of_lt hsized

/-- A configuration that is fit for use has some lifetime of tokens. -/
theorem ttl_pos_of_validate (hvalid : c.validate = .ok ()) : 0 < c.auth.tokenTtl := by
  unfold validate at hvalid
  refine Nat.pos_of_ne_zero fun hzero => ?_
  rw [if_pos hzero] at hvalid
  repeat' split at hvalid
  all_goals cases hvalid

/-- A number of sixty-four bits and somewhat more, as such a number with a sign. -/
theorem bmod_eq_ite {x : Int} (hlow : 0 ≤ x) (hhigh : x < 2 ^ 64 + 2 ^ 63) :
    x.bmod (2 ^ 64) = if x < 2 ^ 63 then x else x - 2 ^ 64 := by
  split
  · exact Int.bmod_eq_of_le (by omega) (by omega)
  · exact (Int.bmod_eq_iff (by decide)).2 ⟨by omega, by omega, -1, by omega⟩

/-- The second of expiry in sixty-four bits. -/
theorem toInt_expires (hsized : c.IsSized) (hnow : 0 ≤ now.toInt ∧ now.toInt < 2 ^ 40)
    (secret : Bytes) (subject scope : String) :
    ((c.signer secret).issue subject scope now).claims.expires.toInt =
      if now.toInt + c.auth.tokenTtl < 2 ^ 63 then now.toInt + c.auth.tokenTtl
      else now.toInt + c.auth.tokenTtl - 2 ^ 64 := by
  have hexpires := (c.signer secret).toInt_expires now
  rw [toNat_ttl hsized] at hexpires
  unfold IsSized at hsized
  exact hexpires.trans (bmod_eq_ite (by omega) (by omega))

/-- The lifetime that the owner of a token is told. -/
theorem toInt_expiresIn (hsized : c.IsSized) :
    ((c.signer secret).issue subject scope now).expiresIn.toInt =
      if c.auth.tokenTtl < 2 ^ 63 then (c.auth.tokenTtl : Int) else c.auth.tokenTtl - 2 ^ 64 := by
  have hdifference : ((c.signer secret).issue subject scope now).expiresIn =
      (c.signer secret).ttl.toInt64 := by
    show now + (c.signer secret).ttl.toInt64 - now = _
    rw [Int64.add_comm, Int64.add_sub_cancel]
  have httl : (c.signer secret).ttl.toInt64.toInt = (c.auth.tokenTtl : Int).bmod (2 ^ 64) := by
    rw [← toNat_ttl hsized secret]
    exact BitVec.toInt_eq_toNat_bmod (c.signer secret).ttl.toBitVec
  unfold IsSized at hsized
  rw [hdifference, httl, bmod_eq_ite (by omega) (by omega)]
  exact if_congr (by omega) rfl rfl

/-- What a token opens in the second of its issue. -/
theorem validate_at_issue (hvalid : c.validate = .ok ()) (hsized : c.IsSized)
    (hnow : 0 ≤ now.toInt ∧ now.toInt < 2 ^ 40) :
    (c.signer secret).validate ((c.signer secret).issue subject scope now).text scope now =
      if now.toInt + c.auth.tokenTtl < 2 ^ 63 then .ok subject
      else if now.toInt + c.auth.tokenTtl < 2 ^ 64 then .error .malformed
      else .error .expired := by
  have hpos := ttl_pos_of_validate hvalid
  have hexpires := toInt_expires hsized hnow secret subject scope
  have hclaims : now + (c.signer secret).ttl.toInt64 =
    ((c.signer secret).issue subject scope now).claims.expires := rfl
  have hzero : (0 : Int64).toInt = 0 := rfl
  unfold IsSized at hsized
  rw [Signer.validate_issue, hclaims]
  simp only [Int64.lt_iff_toInt_lt, Int64.le_iff_toInt_le, hexpires, hzero]
  by_cases hfits : now.toInt + c.auth.tokenTtl < 2 ^ 63
  · rw [if_pos hfits, if_pos hfits, if_neg (by omega), if_neg (by omega), if_pos trivial]
  · rw [if_neg hfits, if_neg hfits]
    by_cases hnegative : now.toInt + c.auth.tokenTtl < 2 ^ 64
    · rw [if_pos (by omega), if_pos hnegative]
    · rw [if_neg (by omega), if_neg hnegative, if_pos (by omega)]

/-- Under a configuration that is fit for use, a token opens its scope in the second of its issue if
and only if its expiry is below 2^63. It then expires as long after its issue as configured, and its
owner is told so. Otherwise the expiry is 2^64 seconds before that, and nobody takes the token: it
cannot be read if the expiry is before 1970, and has expired if not. -/
theorem opens_iff (hvalid : c.validate = .ok ()) (hsized : c.IsSized) (secret : Bytes)
    (hnow : 0 ≤ now.toInt ∧ now.toInt < 2 ^ 40) (subject scope : String) :
    let signer := c.signer secret
    let token := signer.issue subject scope now
    let expiry : Int := now.toInt + c.auth.tokenTtl
    (signer.validate token.text scope now = .ok subject ↔ expiry < 2 ^ 63) ∧
    (expiry < 2 ^ 63 →
      token.claims.expires.toInt = expiry ∧ token.expiresIn.toInt = c.auth.tokenTtl) ∧
    (2 ^ 63 ≤ expiry → token.claims.expires.toInt = expiry - 2 ^ 64 ∧
      signer.validate token.text scope now =
        .error (if expiry < 2 ^ 64 then .malformed else .expired)) ∧
    (2 ^ 63 ≤ c.auth.tokenTtl → token.expiresIn.toInt = c.auth.tokenTtl - 2 ^ 64) := by
  intro signer token expiry
  have hvalidate : signer.validate token.text scope now = _ := validate_at_issue hvalid hsized hnow
  have hexpires : token.claims.expires.toInt = _ := toInt_expires hsized hnow secret subject scope
  have htold : token.expiresIn.toInt = _ := toInt_expiresIn hsized
  refine ⟨?_, ?_, ?_, ?_⟩
  · rw [hvalidate]
    constructor
    · intro h
      by_contra hwrapped
      rw [if_neg hwrapped] at h
      split at h <;> cases h
    · exact fun hfits => if_pos hfits
  · intro hfits
    refine ⟨hexpires.trans (if_pos hfits), htold.trans (if_pos ?_)⟩
    omega
  · intro hwrapped
    refine ⟨hexpires.trans (if_neg (Int.not_lt.2 hwrapped)), ?_⟩
    rw [hvalidate, if_neg (Int.not_lt.2 hwrapped)]
    split <;> rfl
  · exact fun hlong => htold.trans (if_neg (Nat.not_lt.2 hlong))

/-- The longest lifetime there is: the configuration is fit for use, every token is told to live for
minus one second, and has expired when it is issued. With the longest lifetime that a file can carry
tokens are told to live as long as that, and none can be read. -/
theorem expired_of_longest :
    let configured : Nat → Config := fun ttl => { default with auth := { tokenTtl := ttl } }
    let signer : Nat → Signer := fun ttl => (configured ttl).signer (Bytes.ofText "secret")
    let token : Nat → Token := fun ttl => (signer ttl).issue "anonymous" "g/i" 1700000000
    let longest := 18446744073709551615
    let carried := 9223372036854775807
    (configured longest).validate = .ok () ∧ (configured longest).IsSized ∧
      (token longest).expiresIn.toInt = -1 ∧
      (signer longest).validate (token longest).text "g/i" 1700000000 = .error .expired ∧
      (configured carried).validate = .ok () ∧ (configured carried).IsSized ∧
      (token carried).expiresIn.toInt = carried ∧
      (token carried).claims.expires.toInt < 0 ∧
      (signer carried).validate (token carried).text "g/i" 1700000000 = .error .malformed := by
  intro configured signer token longest carried
  have hnow : 0 ≤ (1700000000 : Int64).toInt ∧ (1700000000 : Int64).toInt < 2 ^ 40 := by decide
  have hsecond : (1700000000 : Int64).toInt = 1700000000 := by decide
  have hvalid : (configured longest).validate = .ok () := by decide
  have hsized : (configured longest).IsSized := by
    show 18446744073709551615 < 2 ^ 64
    decide
  have httl : (configured longest).auth.tokenTtl = 18446744073709551615 := rfl
  obtain ⟨-, -, hexpired, hminus⟩ :=
    opens_iff hvalid hsized (Bytes.ofText "secret") hnow "anonymous" "g/i"
  rw [hsecond, httl] at hexpired
  rw [if_neg (by omega)] at hexpired
  rw [httl] at hminus
  have hvalid' : (configured carried).validate = .ok () := by decide
  have hsized' : (configured carried).IsSized := by
    show 9223372036854775807 < 2 ^ 64
    decide
  have httl' : (configured carried).auth.tokenTtl = 9223372036854775807 := rfl
  have htold : (token carried).expiresIn.toInt = _ :=
    (toInt_expiresIn hsized').trans (if_pos (by decide))
  obtain ⟨-, -, hunread, -⟩ :=
    opens_iff hvalid' hsized' (Bytes.ofText "secret") hnow "anonymous" "g/i"
  rw [hsecond, httl'] at hunread
  rw [if_pos (by omega)] at hunread
  obtain ⟨hexpires, hmalformed⟩ := hunread (by omega)
  exact ⟨hvalid, hsized, (hminus (by omega)).trans (by omega), (hexpired (by omega)).2,
    hvalid', hsized', htold, by rw [hexpires]; omega, hmalformed⟩

end Config

end PullThrough
