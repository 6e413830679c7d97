import PullThrough.Proofs.Json.Documents
import PullThrough.Proofs.Text.Base64
import PullThrough.Proofs.Text.Credentials
import PullThrough.Token.Signer
/-
  What becomes of an issued token.

  The signer takes an issued token apart into the parts that it was made of: the dots are found
  because base 64 has none, the signature is the one that was made, and header and claims are read
  back. What is left are the checks of the times and of the scope (`Signer.validate_issue`). A token
  has no blanks either, so a header can present it (`Signer.presents_issue`).
-/
namespace PullThrough

/-! ## The last place of a character -/

namespace Text

theorem seek?_append {c : Char} {s t : List Char} (h : c ∉ s) (seen : List Char) :
    seek? [c] seen (s ++ c :: t) = some (s.reverse ++ seen, t) := by
  induction s generalizing seen with
  | nil =>
    rw [List.nil_append, seek?, isPrefixOf?_cons_cons, if_pos (beq_self_eq_true c)]
    rfl
  | cons d s ih =>
    have hd : ¬ (c == d) = true := by
      rw [beq_iff_eq]
      rintro rfl
      exact h (by simp)
    rw [List.cons_append, seek?, isPrefixOf?_cons_cons, if_neg hd]
    dsimp only
    rw [ih (fun hc => h (by simp [hc]))]
    simp

theorem cutLast?_append {c : Char} {a b : List Char} (h : c ∉ b) :
    cutLast? [c] (a ++ c :: b) = some (a, b) := by
  have hr : (a ++ c :: b).reverse = b.reverse ++ c :: a.reverse := by simp
  have hs : c ∉ b.reverse := by simpa using h
  rw [cutLast?, List.reverse_singleton, hr, seek?_append hs]
  simp

theorem seek?_eq_some {c : Char} {s seen after before : List Char}
    (h : seek? [c] seen s = some (after, before)) :
    ∃ t, s = t ++ c :: before ∧ c ∉ t ∧ after = t.reverse ++ seen := by
  induction s generalizing seen with
  | nil => cases h
  | cons d s ih =>
    rw [seek?, isPrefixOf?_cons_cons] at h
    by_cases hcd : (c == d) = true
    · rw [if_pos hcd] at h
      cases h
      rw [eq_of_beq hcd]
      exact ⟨[], rfl, List.not_mem_nil, rfl⟩
    · rw [if_neg hcd] at h
      obtain ⟨t, rfl, hc, rfl⟩ := ih h
      refine ⟨d :: t, rfl, ?_, by simp⟩
      rw [List.mem_cons, not_or]
      exact ⟨fun heq => hcd (beq_iff_eq.2 heq), hc⟩

theorem cutLast?_eq_some_iff {c : Char} {s a b : List Char} :
    cutLast? [c] s = some (a, b) ↔ s = a ++ c :: b ∧ c ∉ b := by
  constructor
  · intro h
    obtain ⟨⟨after, before⟩, hseek, heq⟩ := Option.map_eq_some_iff.1 h
    obtain ⟨rfl, rfl⟩ := Prod.mk.inj heq
    obtain ⟨t, hs, hc, rfl⟩ := seek?_eq_some hseek
    have hrev := congrArg List.reverse hs
    rw [List.reverse_reverse, List.reverse_append, List.reverse_cons] at hrev
    refine ⟨by simpa using hrev, by simpa using hc⟩
  · rintro ⟨rfl, hc⟩
    exact cutLast?_append hc

end Text

/-! ## Objects read member by member -/

namespace Json

theorem value?_compact (j : Json) {rest : Bytes} (hr : Ends rest) {n : Nat}
    (hn : 2 * j.compact.length ≤ n) : value? n (j.compact ++ rest) = some (j, rest) := by
  rw [compact_eq 0] at hn ⊢
  exact value?_laidOut (fun _ => allBlank_nil) allBlank_nil 0 j allBlank_nil hr n hn

section Members

variable {read : Bytes → Bytes → Option (Json × Bytes)} {key s rest : Bytes} {j : Json} {n : Nat}

theorem skipBlanks_quoted (key s : Bytes) :
    skipBlanks (quoted key ++ s) = 0x22 :: (key.flatMap escapeOctet ++ 0x22 :: s) := by
  rw [quoted, List.cons_append, skipBlanks_cons (by decide), List.append_assoc]
  rfl

theorem membersBy?_last (h : read key s = some (j, 0x7D :: rest)) :
    membersBy? read (n + 1) (quoted key ++ 0x3A :: s) = some ([(key, j)], rest) := by
  have hcolon : skipBlanks (0x3A :: s) = 0x3A :: s := skipBlanks_cons (by decide) s
  have hclose : skipBlanks (0x7D :: rest) = 0x7D :: rest := skipBlanks_cons (by decide) rest
  simp only [membersBy?, skipBlanks_quoted, string?_quoted, hcolon, h, hclose]

theorem membersBy?_next (h : read key s = some (j, 0x2C :: rest)) :
    membersBy? read (n + 1) (quoted key ++ 0x3A :: s) =
      (membersBy? read n rest).map fun (members, rest) => ((key, j) :: members, rest) := by
  have hcolon : skipBlanks (0x3A :: s) = 0x3A :: s := skipBlanks_cons (by decide) s
  have hcomma : skipBlanks (0x2C :: rest) = 0x2C :: rest := skipBlanks_cons (by decide) rest
  simp only [membersBy?, skipBlanks_quoted, string?_quoted, hcolon, h, hcomma]

/-- Members are read up to the closing brace if each value is read as it was written. -/
theorem membersBy?_compact {members : List (Bytes × Json)} (hne : members ≠ [])
    (hread : ∀ m ∈ members, ∀ rest, Ends rest → read m.1 (m.2.compact ++ rest) = some (m.2, rest))
    (hn : members.length ≤ n) (rest : Bytes) :
    membersBy? read n (joined (compactMembers members) ++ 0x7D :: rest) = some (members, rest) := by
  induction members generalizing n with
  | nil => exact absurd rfl hne
  | cons m members ih =>
    obtain ⟨key, j⟩ := m
    obtain ⟨n, rfl⟩ : ∃ k, n = k + 1 := ⟨n - 1, by simp at hn; omega⟩
    have hj := hread (key, j) (by simp)
    cases members with
    | nil =>
      rw [compactMembers, compactMembers, joined_singleton, List.append_assoc, List.cons_append]
      exact membersBy?_last (hj _ (ends_cons (by decide)))
    | cons next members =>
      have hrest := ih (by simp) (fun m hm => hread m (by simp [hm])) (by simpa using hn)
      obtain ⟨key', j'⟩ := next
      rw [compactMembers, compactMembers, joined_cons_cons, ← compactMembers]
      simp only [List.append_assoc, List.cons_append]
      rw [membersBy?_next (hj _ (ends_comma _)), hrest]
      rfl

theorem length_le_joined (members : List (Bytes × Json)) :
    members.length ≤ (joined (compactMembers members)).length ∧
      ∀ m ∈ members, m.2.compact.length ≤ (joined (compactMembers members)).length := by
  induction members with
  | nil => exact ⟨Nat.zero_le _, fun m hm => by cases hm⟩
  | cons m members ih =>
    obtain ⟨key, j⟩ := m
    cases members with
    | nil =>
      rw [compactMembers, compactMembers, joined_singleton, quoted]
      constructor
      · simp
      · intro m hm
        rw [List.mem_singleton.1 hm]
        simp only [List.length_cons, List.length_append]
        omega
    | cons next members =>
      obtain ⟨key', j'⟩ := next
      obtain ⟨hcount, hparts⟩ := ih
      rw [compactMembers, compactMembers, joined_cons_cons, ← compactMembers]
      constructor
      · simp only [List.length_cons, List.length_append] at hcount ⊢
        omega
      · intro m hm
        rcases List.mem_cons.1 hm with rfl | hm
        · simp only [List.length_cons, List.length_append]
          omega
        · have := hparts m hm
          simp only [List.length_cons, List.length_append]
          omega

theorem length_compact_le {members : List (Bytes × Json)} {m : Bytes × Json} (hm : m ∈ members) :
    m.2.compact.length ≤ (object members).compact.length := by
  have := (length_le_joined members).2 m hm
  rw [compact.eq_def (object members)]
  simp only [List.length_cons, List.length_append]
  omega

/-- An object with a member is read back if each of its values is. -/
theorem objectBy?_compact {members : List (Bytes × Json)} (hne : members ≠ [])
    (hread : ∀ m ∈ members, ∀ rest, Ends rest → read m.1 (m.2.compact ++ rest) = some (m.2, rest)) :
    objectBy? read (object members).compact = some (.object members) := by
  have hlen : members.length ≤ (joined (compactMembers members) ++ [0x7D]).length := by
    have := (length_le_joined members).1
    rw [List.length_append]
    omega
  have hmembers := membersBy?_compact hne hread hlen []
  have hopen : skipBlanks (0x7B :: (joined (compactMembers members) ++ [0x7D])) =
      0x7B :: (joined (compactMembers members) ++ [0x7D]) := skipBlanks_cons (by decide) _
  rw [compact]
  simp only [objectBy?, hopen, hmembers]
  rfl

end Members

end Json

/-! ## Claims -/

namespace Claims

theorem time?_toInt (t : Int64) : time? (.integer t.toInt) = some t := by
  have hlow := t.le_toInt
  have hhigh := t.toInt_lt
  rw [time?, Json.integer?, if_pos ⟨by omega, by omega⟩, Option.map_some, Int64.ofInt_toInt]

theorem fields?_toJson (c : Claims) :
    c.toJson.fields? ["sub", "scope", "iat", "exp", "iss"] = some [some (.text c.subject),
      some (.text c.scope), some (.integer c.issuedAt.toInt), some (.integer c.expires.toInt),
      some (.text c.issuer)] := by
  refine Json.fields?_record ?_
  show ["sub", "scope", "iat", "exp", "iss"].Nodup
  decide

theorem ofJson?_toJson (c : Claims) : ofJson? c.toJson = some c := by
  rw [ofJson?, fields?_toJson]
  simp only [Json.text?_text, time?_toInt, Option.bind_eq_bind, Option.bind_some]

/-- A record without the restricting claims names no audience. -/
theorem namesAudience?_record {members : List (String × Json)} (hne : members ≠ [])
    (haud : "aud" ∉ members.map (·.1)) (hnbf : "nbf" ∉ members.map (·.1)) :
    Token.namesAudience? (Json.record members).compact = some false := by
  have hread : ∀ key j, (key, j) ∈ members → ∀ rest, Json.Ends rest →
      Token.readClaim (2 * (Json.record members).compact.length + 2) (Bytes.ofText key)
        (j.compact ++ rest) = some (j, rest) := by
    intro key j hm rest hr
    have hlen : j.compact.length ≤ (Json.record members).compact.length :=
      Json.length_compact_le (m := (Bytes.ofText key, j)) (List.mem_map.2 ⟨(key, j), hm, rfl⟩)
    have hkey : ∀ other, other ∉ members.map (·.1) → Bytes.ofText key ≠ Bytes.ofText other := by
      intro other hother heq
      rw [Json.ofText_inj.1 heq] at hm
      exact hother (List.mem_map_of_mem hm)
    rw [Token.readClaim, if_neg (hkey _ haud), if_neg (hkey _ hnbf)]
    exact Json.value?_compact j hr (by omega)
  have hfields : (Json.record members).fields? ["nbf", "aud"] = some [none, none] := by
    rw [Json.record, Json.fields?, if_pos]
    · simp only [List.mapM_cons, List.mapM_nil, Json.valuesOf_record_none haud,
        Json.valuesOf_record_none hnbf]
      rfl
    · simp
  have hobject : Json.objectBy? (Token.readClaim (2 * (Json.record members).compact.length + 2))
      (Json.record members).compact = some (Json.record members) := by
    refine Json.objectBy?_compact (by simpa using hne) fun m hm => ?_
    obtain ⟨⟨key, j⟩, hm', rfl⟩ := List.mem_map.1 hm
    exact hread key j hm'
  rw [Token.namesAudience?, hobject, Option.bind_eq_bind, Option.bind_some, hfields]
  rfl

end Claims

/-! ## Tokens -/

namespace Signer

theorem checkHeader_header : Token.checkHeader Token.header.compact = .ok () := by
  have hname : Token.algorithmOf? Token.header = some Token.algorithm := by decide +kernel
  rw [Token.checkHeader, Json.parse?_compact, Option.bind_some, hname]
  exact if_pos rfl

theorem readClaims_part (c : Claims) :
    readClaims (part c.toJson.compact) = checkClaims false c := by
  have haudience : Token.namesAudience? c.toJson.compact = some false :=
    Claims.namesAudience?_record (by simp) (by simp) (by simp)
  rw [readClaims, part, Base64.decode?_encode Base64.Alphabet.isSound_urlSafe]
  dsimp only
  rw [Json.parse?_compact, Option.bind_some, Claims.ofJson?_toJson, haudience]

theorem dot_not_mem_part (b : Bytes) : '.' ∉ part b :=
  Base64.not_mem_encode Base64.Alphabet.isSound_urlSafe (by decide) b

theorem dot_not_mem_signature (s : Signer) (signed : List Char) : '.' ∉ s.signature signed :=
  dot_not_mem_part _

/-- A token gives back the claims that it was issued with, as far as they pass. -/
theorem verify_issue (s : Signer) (subject scope : String) (now : Int64) :
    s.verify (s.issue subject scope now).text =
      checkClaims false (s.claimsAt subject scope now) := by
  generalize hc : s.claimsAt subject scope now = claims
  have hheader : Base64.decode? .urlSafe (part Token.header.compact) = some Token.header.compact :=
    Base64.decode?_encode Base64.Alphabet.isSound_urlSafe _
  have hsigned : Text.cutLast? ['.'] (signedPart claims) =
      some (part Token.header.compact, part claims.toJson.compact) :=
    Text.cutLast?_append (dot_not_mem_part _)
  have htoken : Text.cutLast? ['.'] (signedPart claims ++ '.' :: s.signature (signedPart claims)) =
      some (signedPart claims, s.signature (signedPart claims)) :=
    Text.cutLast?_append (s.dot_not_mem_signature _)
  rw [verify, issue, hc]
  dsimp only
  rw [String.toList_ofList, htoken]
  dsimp only
  rw [hsigned]
  dsimp only
  rw [hheader]
  dsimp only
  rw [checkHeader_header]
  show (if s.signature (signedPart claims) = s.signature (signedPart claims) then
    readClaims (part claims.toJson.compact) else _) = _
  rw [if_pos rfl, readClaims_part]

/-- An issued token is good until it expires, and says what it was issued for. -/
theorem decode_issue (s : Signer) (subject scope : String) (issued now : Int64) :
    s.decode (s.issue subject scope issued).text now =
      if issued + s.ttl.toInt64 < 0 then .error .malformed
      else if issued + s.ttl.toInt64 ≤ now then .error .expired
      else .ok (s.issue subject scope issued).claims := by
  have hne : (s.issue subject scope issued).text ≠ "" := by
    intro h
    have := congrArg String.toList h
    simp [issue] at this
  rw [decode, if_neg hne, verify_issue, checkClaims, claimsAt]
  dsimp only
  split
  · rfl
  · rw [if_neg (fun h => h rfl), if_neg (by decide)]
    rfl

/-- What a token opens, at any time and for any scope. -/
theorem validate_issue (s : Signer) (subject scope required : String) (issued now : Int64) :
    s.validate (s.issue subject scope issued).text required now =
      if issued + s.ttl.toInt64 < 0 then .error .malformed
      else if issued + s.ttl.toInt64 ≤ now then .error .expired
      else if scope = required then .ok subject
      else .error (.scopeMismatch required scope) := by
  rw [validate, decode_issue]
  split
  · rfl
  split
  · rfl
  · rfl

/-! ## Tokens in headers -/

theorem isBlank_of_mem_part {b : Bytes} {c : Char} (h : c ∈ part b) : Text.isBlank c = false := by
  cases hc : Text.isBlank c with
  | false => rfl
  | true =>
    have hnone : Base64.Alphabet.urlSafe.value? c = none :=
      Base64.Alphabet.value?_of_isBlank (by decide) (by decide) hc
    exact absurd h (Base64.not_mem_encode Base64.Alphabet.isSound_urlSafe hnone b)

theorem isBlank_of_mem_issue {s : Signer} {subject scope : String} {now : Int64} {c : Char}
    (h : c ∈ (s.issue subject scope now).text.toList) : Text.isBlank c = false := by
  simp only [issue, signedPart, String.toList_ofList, List.mem_append, List.mem_cons] at h
  rcases h with (h | rfl | h) | rfl | h
  · exact isBlank_of_mem_part h
  · decide
  · exact isBlank_of_mem_part h
  · decide
  · exact isBlank_of_mem_part h

/-- An issued token can be presented. -/
theorem presents_issue (s : Signer) (subject scope : String) (now : Int64) :
    Presents ("Bearer " ++ (s.issue subject scope now).text).toList "bearer"
      (s.issue subject scope now).text.toList := by
  have hne : (s.issue subject scope now).text.toList ≠ [] := by simp [issue]
  have htext : ("Bearer " ++ (s.issue subject scope now).text).toList =
      "Bearer".toList ++ ' ' :: (s.issue subject scope now).text.toList := by simp
  rw [htext]
  exact presents_of_unblank (by decide) hne fun _ hc => isBlank_of_mem_issue hc

end Signer

end PullThrough
