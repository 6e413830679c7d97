import PullThrough.Proofs.Token.Signer
/-
  What the check of a token can answer, for any text.

  A signer vouches for claims if the text carries them behind a header that names the algorithm,
  under its own signature (`Signer.Vouches`). Those are exactly the texts whose claims get past the
  signature (`Signer.verify_eq_ok_iff`), and only for them do the clock and the scope count. The
  main result is the law of the verdicts (`Signer.validate_law`): every other text is turned down
  for one and the same fault at all times and for all scopes, and if its signature is wrong, that
  fault depends on its header alone. So a forger learns nothing about the claims that were made up.
-/
namespace PullThrough

/-! ## Faults of the parts -/

/-- A text that no signer stands behind has one of these two faults, unless it is empty. -/
def AccessFault.IsRefusal (fault : AccessFault) : Prop :=
  fault = .malformed ∨ fault = .invalidSignature

namespace Token

/-- A header that can be read and names the algorithm in use. -/
def IsHeader (header : List Char) : Prop :=
  ∃ octets document, Base64.decode? .urlSafe header = some octets ∧
    Json.parse? octets = some document ∧ algorithmOf? document = some algorithm

/-- A payload that is read as claims which are for no particular audience. -/
def Says (payload : List Char) (c : Claims) : Prop :=
  ∃ octets document, Base64.decode? .urlSafe payload = some octets ∧
    Json.parse? octets = some document ∧ Claims.ofJson? document = some c ∧
    namesAudience? octets = some false

/-- The check of the first part of a token. -/
def checkFirst (header : List Char) : Except AccessFault Unit :=
  match Base64.decode? .urlSafe header with
  | none => .error .malformed
  | some octets => checkHeader octets

theorem checkHeader_eq_ok_iff {octets : Bytes} :
    checkHeader octets = .ok () ↔ (Json.parse? octets).bind algorithmOf? = some algorithm := by
  rw [checkHeader]
  cases (Json.parse? octets).bind algorithmOf? with
  | none => simp
  | some name => simp

theorem checkFirst_eq_ok_iff {header : List Char} : checkFirst header = .ok () ↔
    IsHeader header := by
  rw [checkFirst, IsHeader]
  cases Base64.decode? .urlSafe header with
  | none => simp
  | some octets => simp [checkHeader_eq_ok_iff, Option.bind_eq_some_iff]

theorem isRefusal_of_checkFirst {header : List Char} {fault : AccessFault}
    (h : checkFirst header = .error fault) : fault.IsRefusal := by
  unfold checkFirst at h
  split at h
  · exact .inl (Except.error.inj h).symm
  unfold checkHeader at h
  split at h
  · exact .inl (Except.error.inj h).symm
  split at h
  · cases h
  · exact .inr (Except.error.inj h).symm

end Token

/-- What claims that are in force mean for a scope. -/
def Claims.verdict (c : Claims) (required : String) : Except AccessFault String :=
  if c.scope = required then .ok c.subject else .error (.scopeMismatch required c.scope)

namespace Signer

variable {s : Signer} {header payload given : List Char} {c : Claims} {fault : AccessFault}

theorem checkClaims_eq_ok_iff {hasAudience : Bool} {c' : Claims} :
    checkClaims hasAudience c' = .ok c ↔
      c' = c ∧ 0 ≤ c.expires ∧ c.issuer = Claims.proxyIssuer ∧ hasAudience = false := by
  unfold checkClaims
  constructor
  · intro h
    split at h
    · cases h
    next hexpires =>
    split at h
    · cases h
    next hissuer =>
    split at h
    · cases h
    next haudience =>
    cases h
    exact ⟨rfl, Int64.not_lt.1 hexpires, Decidable.not_not.1 hissuer, by simpa using haudience⟩
  · rintro ⟨rfl, hexpires, hissuer, rfl⟩
    rw [if_neg (Int64.not_lt.2 hexpires), if_neg (fun h => h hissuer)]
    rfl

theorem isRefusal_of_checkClaims {hasAudience : Bool}
    (h : checkClaims hasAudience c = .error fault) :
    fault.IsRefusal := by
  unfold checkClaims at h
  split at h
  · exact .inl (Except.error.inj h).symm
  split at h
  · exact .inr (Except.error.inj h).symm
  split at h
  · exact .inl (Except.error.inj h).symm
  · cases h

theorem readClaims_eq_ok_iff :
    readClaims payload = .ok c ↔
      Token.Says payload c ∧ 0 ≤ c.expires ∧ c.issuer = Claims.proxyIssuer := by
  constructor
  · intro h
    unfold readClaims at h
    split at h
    · cases h
    next octets hoctets =>
    split at h
    next c' hasAudience hclaims haudience =>
      obtain ⟨document, hdocument, hread⟩ := Option.bind_eq_some_iff.1 hclaims
      obtain ⟨rfl, hexpires, hissuer, rfl⟩ := checkClaims_eq_ok_iff.1 h
      exact ⟨⟨octets, document, hoctets, hdocument, hread, haudience⟩, hexpires, hissuer⟩
    · cases h
  · rintro ⟨⟨octets, document, hoctets, hdocument, hread, haudience⟩, hexpires, hissuer⟩
    unfold readClaims
    simp only [hoctets, hdocument, Option.bind_some, hread, haudience]
    exact checkClaims_eq_ok_iff.2 ⟨rfl, hexpires, hissuer, rfl⟩

theorem isRefusal_of_readClaims (h : readClaims payload = .error fault) : fault.IsRefusal := by
  unfold readClaims at h
  split at h
  · exact .inl (Except.error.inj h).symm
  split at h
  · exact isRefusal_of_checkClaims h
  · exact .inl (Except.error.inj h).symm

/-! ## The signature -/

/-- The text of a token with these parts. -/
def joined (header payload given : List Char) : String :=
  String.ofList (header ++ '.' :: payload ++ '.' :: given)

/-- A token says claims of this proxy, for no particular audience and with an end that is not before
1970, under a header that names the algorithm and under the signature of the signer. -/
def Vouches (s : Signer) (token : String) (c : Claims) : Prop :=
  ∃ header payload, token = joined header payload (s.signature (header ++ '.' :: payload)) ∧
    '.' ∉ payload ∧ Token.IsHeader header ∧ Token.Says payload c ∧
    0 ≤ c.expires ∧ c.issuer = Claims.proxyIssuer

/-- What has fewer than two dots is no token. -/
theorem verify_or_joined (s : Signer) (token : String) :
    s.verify token = .error .malformed ∨
      ∃ header payload given, token = joined header payload given ∧ '.' ∉ payload ∧
        '.' ∉ given := by
  unfold verify
  cases htoken : Text.cutLast? ['.'] token.toList with
  | none => exact .inl rfl
  | some cut =>
    obtain ⟨signed, given⟩ := cut
    dsimp only
    cases hsigned : Text.cutLast? ['.'] signed with
    | none => exact .inl rfl
    | some cut =>
      obtain ⟨header, payload⟩ := cut
      obtain ⟨htext, hgiven⟩ := Text.cutLast?_eq_some_iff.1 htoken
      obtain ⟨rfl, hpayload⟩ := Text.cutLast?_eq_some_iff.1 hsigned
      refine .inr ⟨header, payload, given, ?_, hpayload, hgiven⟩
      rw [joined, ← htext, String.ofList_toList]

/-- The order of the checks: the header, then the signature, then the claims. -/
theorem verify_joined (s : Signer) (header : List Char) (hpayload : '.' ∉ payload)
    (hgiven : '.' ∉ given) :
    s.verify (joined header payload given) = (Token.checkFirst header).bind fun _ =>
      if given = s.signature (header ++ '.' :: payload) then readClaims payload
      else .error .invalidSignature := by
  rw [verify, joined, String.toList_ofList, Text.cutLast?_append hgiven]
  dsimp only
  rw [Text.cutLast?_append hpayload]
  dsimp only
  rw [Token.checkFirst]
  cases Base64.decode? .urlSafe header <;> rfl

/-- Exactly the claims that the signer vouches for get past the signature. -/
theorem verify_eq_ok_iff {token : String} : s.verify token = .ok c ↔ s.Vouches token c := by
  constructor
  · intro h
    rcases s.verify_or_joined token with
      hmalformed | ⟨header, payload, given, rfl, hpayload, hgiven⟩
    · rw [hmalformed] at h
      cases h
    rw [verify_joined s header hpayload hgiven] at h
    cases hheader : Token.checkFirst header with
    | error fault =>
      rw [hheader] at h
      cases h
    | ok =>
      rw [hheader, Except.bind] at h
      by_cases hgood : given = s.signature (header ++ '.' :: payload)
      · rw [if_pos hgood] at h
        obtain ⟨hsaid, hexpires, hissuer⟩ := readClaims_eq_ok_iff.1 h
        exact ⟨header, payload, by rw [← hgood], hpayload,
          Token.checkFirst_eq_ok_iff.1 hheader, hsaid,
          hexpires, hissuer⟩
      · rw [if_neg hgood] at h
        cases h
  · rintro ⟨header, payload, rfl, hpayload, hheader, hsaid, hexpires, hissuer⟩
    rw [verify_joined s header hpayload (s.dot_not_mem_signature _),
      Token.checkFirst_eq_ok_iff.2 hheader, Except.bind, if_pos rfl]
    exact readClaims_eq_ok_iff.2 ⟨hsaid, hexpires, hissuer⟩

theorem isRefusal_of_verify {token : String} (h : s.verify token = .error fault) :
    fault.IsRefusal := by
  rcases s.verify_or_joined token with hmalformed | ⟨header, payload, given, rfl, hpayload, hgiven⟩
  · rw [hmalformed] at h
    exact .inl (Except.error.inj h).symm
  rw [verify_joined s header hpayload hgiven] at h
  cases hheader : Token.checkFirst header with
  | error fault' =>
    rw [hheader] at h
    cases h
    exact Token.isRefusal_of_checkFirst hheader
  | ok =>
    rw [hheader, Except.bind] at h
    split at h
    · exact isRefusal_of_readClaims h
    · exact .inr (Except.error.inj h).symm

/-- A wrong signature is found before the claims are read: the header alone decides on the fault. -/
theorem verify_of_forged (s : Signer) (header : List Char) :
    ∃ fault : AccessFault, fault.IsRefusal ∧ ∀ payload given, '.' ∉ payload → '.' ∉ given →
      given ≠ s.signature (header ++ '.' :: payload) →
      s.verify (joined header payload given) = .error fault := by
  cases hheader : Token.checkFirst header with
  | error fault =>
    refine ⟨fault, Token.isRefusal_of_checkFirst hheader, ?_⟩
    intro payload given hpayload hgiven _
    rw [verify_joined s header hpayload hgiven, hheader]
    rfl
  | ok =>
    refine ⟨.invalidSignature, .inr rfl, ?_⟩
    intro payload given hpayload hgiven hforged
    rw [verify_joined s header hpayload hgiven, hheader, Except.bind, if_neg hforged]

/-! ## Verdicts -/

theorem joined_ne_empty (header payload given : List Char) : joined header payload given ≠ "" := by
  intro hempty
  have := congrArg String.toList hempty
  simp [joined] at this

theorem validate_of_vouches {token : String} (h : s.Vouches token c) (required : String)
    (now : Int64) : s.validate token required now =
      if c.expires ≤ now then .error .expired else c.verdict required := by
  have hne : token ≠ "" := by
    obtain ⟨header, payload, rfl, -⟩ := h
    exact joined_ne_empty _ _ _
  have hdecode : s.decode token now = if c.expires ≤ now then .error .expired else .ok c := by
    rw [decode, if_neg hne, verify_eq_ok_iff.2 h]
    rfl
  rw [validate, hdecode]
  split
  · rfl
  · rfl

theorem validate_of_fault {token : String} (hne : token ≠ "") (h : s.verify token = .error fault)
    (required : String) (now : Int64) : s.validate token required now = .error fault := by
  rw [validate, decode, if_neg hne, h]
  rfl

/-- A text has one fault at all times and for all scopes, or a signer vouches for it and the times
and the scope decide. -/
theorem validate_cases (s : Signer) (token : String) :
    (∃ fault : AccessFault, (fault = .unauthenticated ∨ fault.IsRefusal) ∧
      ∀ required now, s.validate token required now = .error fault) ∨
    ∃ c, s.Vouches token c ∧ ∀ required now, s.validate token required now =
      if c.expires ≤ now then .error .expired else c.verdict required := by
  by_cases hempty : token = ""
  · subst hempty
    exact .inl ⟨.unauthenticated, .inl rfl, fun _ _ => rfl⟩
  cases hverify : s.verify token with
  | error fault =>
    exact .inl ⟨fault, .inr (isRefusal_of_verify hverify), validate_of_fault hempty hverify⟩
  | ok c =>
    have hvouches := verify_eq_ok_iff.1 hverify
    exact .inr ⟨c, hvouches, validate_of_vouches hvouches⟩

theorem checkFirst_header : Token.checkFirst (part Token.header.compact) = .ok () := by
  rw [Token.checkFirst, part, Base64.decode?_encode Base64.Alphabet.isSound_urlSafe]
  exact checkHeader_header

/-- What a signer vouches for is signed by it, whatever the last dot cuts off. -/
theorem Vouches.given_eq {signed : List Char} (hgiven : '.' ∉ given)
    (h : s.Vouches (String.ofList (signed ++ '.' :: given)) c) : given = s.signature signed := by
  obtain ⟨header, payload, htoken, -⟩ := h
  have hcut := congrArg (fun text => Text.cutLast? ['.'] text.toList) htoken
  simp only [joined, String.toList_ofList, Text.cutLast?_append hgiven,
    Text.cutLast?_append (s.dot_not_mem_signature _), Option.some.injEq, Prod.mk.injEq] at hcut
  obtain ⟨rfl, hsignature⟩ := hcut
  exact hsignature

/-- The law of the verdicts. A text is turned down for one fault at all times and for all scopes, or
a signer vouches for its claims: then it is expired from the second on that they say, whatever the
scope, and before it has one verdict for each scope. What is signed opens a scope under one
signature only. And under any other signature no verdict says anything about the claims: the fault
is one for all payloads behind a header. -/
theorem validate_law (s : Signer) :
    (∀ token : String,
      (∃ fault : AccessFault, (fault = .unauthenticated ∨ fault.IsRefusal) ∧
        ∀ required now, s.validate token required now = .error fault) ∨
      ∃ c, s.Vouches token c ∧ ∀ required now, s.validate token required now =
        if c.expires ≤ now then .error .expired else c.verdict required) ∧
    (∀ signed given, '.' ∉ given → ∀ required now subject,
      s.validate (String.ofList (signed ++ '.' :: given)) required now = .ok subject →
        given = s.signature signed) ∧
    ∀ header, ∃ fault : AccessFault, fault.IsRefusal ∧
      ∀ payload given, '.' ∉ payload → '.' ∉ given →
        given ≠ s.signature (header ++ '.' :: payload) → ∀ required now,
          s.validate (joined header payload given) required now = .error fault := by
  refine ⟨s.validate_cases, ?_, ?_⟩
  · intro signed given hgiven required now subject h
    rcases s.validate_cases (String.ofList (signed ++ '.' :: given)) with
      ⟨fault, -, hfault⟩ | ⟨c, hvouches, -⟩
    · rw [hfault] at h
      cases h
    · exact hvouches.given_eq hgiven
  · intro header
    obtain ⟨fault, hrefusal, hforged⟩ := s.verify_of_forged header
    refine ⟨fault, hrefusal, ?_⟩
    intro payload given hpayload hgiven hwrong
    exact validate_of_fault (joined_ne_empty _ _ _) (hforged payload given hpayload hgiven hwrong)

/-- The three verdicts on an issued token, and the one on all that is made up behind its header. -/
theorem validate_law_of_issued :
    let s : Signer := ⟨Bytes.ofText "secret", 300⟩
    let token := s.issue "alice" "team/app" 1000
    let header := part Token.header.compact
    s.validate token.text "team/app" 1299 = .ok "alice" ∧
      s.validate token.text "team/other" 1299 = .error (.scopeMismatch "team/other" "team/app") ∧
      s.validate token.text "team/other" 1300 = .error .expired ∧
      ∀ payload given, '.' ∉ payload → '.' ∉ given →
        given ≠ s.signature (header ++ '.' :: payload) → ∀ required now,
          s.validate (joined header payload given) required now = .error .invalidSignature := by
  intro s token header
  obtain ⟨hcases, -, hforged⟩ := validate_law s
  have hvouches : s.Vouches token.text token.claims :=
    verify_eq_ok_iff.1 (s.verify_issue "alice" "team/app" 1000)
  have hverdict : ∀ required now, s.validate token.text required now =
      if 1300 ≤ now then .error .expired else token.claims.verdict required := by
    rcases hcases token.text with ⟨fault, -, hfault⟩ | ⟨c, hc, hverdict⟩
    · have hlive := hfault "team/app" 0
      rw [validate_of_vouches hvouches, if_neg (by decide)] at hlive
      cases hlive
    · have hsame := (verify_eq_ok_iff.2 hc).symm.trans (verify_eq_ok_iff.2 hvouches)
      cases hsame
      exact hverdict
  obtain ⟨fault, -, hfault⟩ := hforged header
  have hlong : '.' ∉ s.signature (header ++ ['.']) ++ ['x'] := by
    rw [List.mem_append, not_or]
    exact ⟨s.dot_not_mem_signature _, by decide⟩
  have hwrong : s.signature (header ++ ['.']) ++ ['x'] ≠ s.signature (header ++ ['.']) := by simp
  have hinvalid : fault = .invalidSignature := by
    have hverify : s.verify (joined header [] (s.signature (header ++ ['.']) ++ ['x'])) =
        .error .invalidSignature := by
      rw [verify_joined s header (by simp) hlong, checkFirst_header, Except.bind,
        if_neg hwrong]
    have h := hfault [] _ (by simp) hlong hwrong "" 0
    rw [validate_of_fault (joined_ne_empty _ _ _) hverify] at h
    exact (Except.error.inj h).symm
  refine ⟨?_, ?_, ?_, ?_⟩
  · rw [hverdict, if_neg (by decide)]
    rfl
  · rw [hverdict, if_neg (by decide)]
    rfl
  · rw [hverdict, if_pos (by decide)]
  · rw [← hinvalid]
    exact hfault

end Signer

end PullThrough
