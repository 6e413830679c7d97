import PullThrough.Proofs.Gateway.Access
/-
  Where the subject of a token comes from.

  A token can be exchanged for a token of another scope, and that one again, so the subject of a
  token may have been proved by a call long before. The main result is an invariant of runs
  (`Gateway.authorize_provenance`): in every sequence of calls in which no bearer credential is
  accepted but tokens that the gateway gave before, each subject was proved by a call of the
  sequence, with a password or, where anyone may have tokens, with nothing. One step says what a
  call may rest on (`Gateway.support_of_answer`); the run goes back from exchange to exchange.

  What a call names is read from its texts without an order of reading: the scope by
  `Scope.split?_eq_some_iff`, user name and password by `Gateway.passwordOf?_eq_some_iff`.

  That nothing but issued tokens is accepted is a matter of signatures, and is not claimed here.
-/
namespace PullThrough

/-! ## What a call names -/

namespace Scope

/-- A scope of an image with some actions. -/
def textOf (group image actions : String) : String :=
  "repository:" ++ group ++ "/" ++ image ++ ":" ++ actions

/-- Among the actions, which commas separate, is the one of pulling. -/
def AsksPull (actions : String) : Prop :=
  ':' ∉ actions.toList ∧ action.toList ∈ actions.toList.splitOn ','

theorem toList_textOf (group image actions : String) :
    (textOf group image actions).toList =
      kind.toList ++ (group.toList ++ '/' :: image.toList ++ ':' :: actions.toList) := by
  simp only [textOf, kind, String.toList_append, List.append_assoc]
  rfl

/-- What a scope names, before it is checked. -/
theorem split?_eq_some_iff {scope group image : String} :
    split? scope = some (group, image) ↔
      ∃ actions, scope = textOf group image actions ∧ AsksPull actions ∧ '/' ∉ group.toList := by
  unfold split?
  constructor
  · intro h
    obtain ⟨rest, hrest, hrest'⟩ := Option.bind_eq_some_iff.1 h
    obtain ⟨⟨path, actions⟩, hcut, hcut'⟩ := Option.bind_eq_some_iff.1 hrest'
    obtain ⟨rfl, hcolon⟩ := Text.cutLast?_eq_some_iff.1 hcut
    dsimp only at hcut'
    split at hcut'
    · cases hcut'
    · next hpull =>
      obtain ⟨⟨group', image'⟩, hpath, heq⟩ := Option.bind_eq_some_iff.1 hcut'
      obtain ⟨rfl, hslash⟩ := Text.cutFirst?_eq_some hpath
      cases heq
      refine ⟨String.ofList actions, String.toList_inj.1 ?_, ⟨?_, ?_⟩, ?_⟩
      · rw [toList_textOf, Text.eq_append_of_isPrefixOf? hrest]
        simp
      · simpa using hcolon
      · simpa using hpull
      · simpa using hslash
  · rintro ⟨actions, rfl, ⟨hcolon, hpull⟩, hslash⟩
    have hcontains : (actions.toList.splitOn ',').contains action.toList = true :=
      List.contains_iff_mem.2 hpull
    rw [toList_textOf, Text.isPrefixOf?_append, Option.bind_eq_bind, Option.bind_some,
      Text.cutLast?_append hcolon, Option.bind_eq_bind, Option.bind_some]
    dsimp only
    rw [hcontains, Text.cutFirst?_append hslash]
    simp

/-- A scope that is taken asks for pulling an image under checked names. -/
theorem parse_eq_ok_iff {scope group image : String} :
    parse scope = .ok (group, image) ↔
      (∃ actions, scope = textOf group image actions ∧ AsksPull actions) ∧
        Name.checkGroup group = .ok () ∧ Name.checkImage image = .ok () := by
  constructor
  · intro h
    obtain ⟨hg, hi⟩ := parse_ok h
    unfold parse at h
    cases hs : split? scope with
    | none =>
      rw [hs] at h
      cases h
    | some names =>
      obtain ⟨group', image'⟩ := names
      rw [hs] at h
      simp only [bind_eq_ok_iff] at h
      obtain ⟨_, -, _, -, heq⟩ := h
      cases heq
      obtain ⟨actions, hscope, hpull, -⟩ := split?_eq_some_iff.1 hs
      exact ⟨⟨actions, hscope, hpull⟩, hg, hi⟩
  · rintro ⟨⟨actions, hscope, hpull⟩, hg, hi⟩
    have hslash := Name.slash_not_mem_of_isGroup (Name.isGroup_of_check hg)
    unfold parse
    rw [split?_eq_some_iff.2 ⟨actions, hscope, hpull, hslash⟩]
    dsimp only
    rw [hg, hi]
    rfl

end Scope

namespace Gateway

variable {g : Gateway}

/-- Group and image of a call. The group of the endpoint, if it has one, is the group of the
scope. -/
theorem wantedOf_eq_ok_iff {pathGroup scope : Option String} {group image : String} :
    wantedOf pathGroup scope = .ok (group, image) ↔
      (∃ actions, scope = some (Scope.textOf group image actions) ∧ Scope.AsksPull actions) ∧
        Name.checkGroup group = .ok () ∧ Name.checkImage image = .ok () ∧
        ∀ only, pathGroup = some only → only = group := by
  have hsome : ∀ text, (∃ actions, some text = some (Scope.textOf group image actions) ∧
      Scope.AsksPull actions) ↔
      ∃ actions, text = Scope.textOf group image actions ∧ Scope.AsksPull actions := by
    simp
  cases scope with
  | none =>
    constructor
    · intro h
      cases h
    · rintro ⟨⟨_, h, -⟩, -⟩
      cases h
  | some scope =>
    rw [hsome, ← and_assoc, ← and_assoc, and_assoc (c := Name.checkImage image = .ok ()),
      ← Scope.parse_eq_ok_iff]
    unfold wantedOf
    simp only [bind_eq_ok_iff, Prod.exists]
    constructor
    · rintro ⟨group', image', hparse, h⟩
      cases pathGroup with
      | none =>
        cases h
        exact ⟨hparse, fun _ h => by cases h⟩
      | some only =>
        dsimp only at h
        split at h
        · next honly =>
          cases h
          exact ⟨hparse, fun _ h => Option.some.inj h ▸ honly⟩
        · cases h
    · rintro ⟨hparse, honly⟩
      refine ⟨group, image, hparse, ?_⟩
      cases pathGroup with
      | none => rfl
      | some only => exact if_pos (honly only rfl)

/-- The payload of the basic scheme for a user name and a password. -/
def basicPayload (user password : String) : List Char :=
  Base64.encodePadded .standard (Bytes.ofText (user ++ ":" ++ password))

theorem passwordOf?_eq_some_iff {payload : List Char} {user password : String} :
    passwordOf? payload = some (user, password) ↔
      payload = basicPayload user password ∧ ':' ∉ user.toList := by
  have hdecode : ∀ octets, Base64.decodePadded? .standard payload = some octets ↔
      payload = Base64.encodePadded .standard octets := fun _ =>
    Base64.decodePadded?_eq_some_iff Base64.Alphabet.isSound_standard
      Base64.Alphabet.isExact_standard (by decide)
  unfold passwordOf?
  simp only [Option.bind_eq_bind, Option.bind_eq_some_iff, Prod.exists, hdecode,
    Bytes.text?_eq_some_iff, Text.cutFirst?_eq_some_iff]
  constructor
  · rintro ⟨text, ⟨_, hpayload, rfl⟩, before, behind, ⟨htext, hcolon⟩, heq⟩
    cases heq
    have hjoined : text = String.ofList before ++ ":" ++ String.ofList behind := by
      refine String.toList_inj.1 ?_
      rw [htext]
      simp
    rw [hjoined] at hpayload
    exact ⟨hpayload, by simpa using hcolon⟩
  · rintro ⟨rfl, hcolon⟩
    refine ⟨_, ⟨_, rfl, rfl⟩, user.toList, password.toList, ⟨?_, hcolon⟩, ?_⟩
    · simp
    · simp

end Gateway

/-! ## What a call rests on -/

/-- A call for a token, in the world in which it comes. -/
structure TokenCall where
  pathGroup : Option String
  scope : Option String
  authorization : Option String
  world : World

namespace TokenCall

/-- A call gives a user name and a password. -/
def GivesPassword (c : TokenCall) (user password : String) : Prop :=
  ':' ∉ user.toList ∧ ∃ header, c.authorization = some header ∧
    Presents header.toList "basic" (Gateway.basicPayload user password)

/-- A call gives a token in exchange. -/
def GivesToken (c : TokenCall) (token : String) : Prop :=
  ∃ header, c.authorization = some header ∧ Presents header.toList "bearer" token.toList

variable {c : TokenCall} {user user' password password' token token' : String}

theorem GivesToken.unique (h : c.GivesToken token) (h' : c.GivesToken token') : token = token' := by
  obtain ⟨header, hheader, hpresents⟩ := h
  obtain ⟨header', hheader', hpresents'⟩ := h'
  obtain rfl := Option.some.inj (hheader.symm.trans hheader')
  exact String.toList_inj.1
    (hpresents.unique (by decide) (by decide) (by decide) (by decide) hpresents').2

theorem GivesPassword.unique (h : c.GivesPassword user password)
    (h' : c.GivesPassword user' password') : user = user' ∧ password = password' := by
  obtain ⟨hcolon, header, hheader, hpresents⟩ := h
  obtain ⟨hcolon', header', hheader', hpresents'⟩ := h'
  obtain rfl := Option.some.inj (hheader.symm.trans hheader')
  have hsame := (hpresents.unique (by decide) (by decide) (by decide) (by decide) hpresents').2
  have hread := Gateway.passwordOf?_eq_some_iff.2 ⟨hsame, hcolon'⟩
  rw [Gateway.passwordOf?_eq_some_iff.2 ⟨rfl, hcolon⟩] at hread
  exact Prod.mk.inj (Option.some.inj hread)

/-- A call gives a password or a token, not both. -/
theorem GivesPassword.not_givesToken (h : c.GivesPassword user password) (token : String) :
    ¬ c.GivesToken token := by
  rintro ⟨header', hheader', hpresents'⟩
  obtain ⟨-, header, hheader, hpresents⟩ := h
  obtain rfl := Option.some.inj (hheader.symm.trans hheader')
  have hsame := (hpresents.unique (by decide) (by decide) (by decide) (by decide) hpresents').1
  exact absurd hsame (by decide)

end TokenCall

namespace Gateway

variable {g : Gateway} {c : TokenCall} {token : Token} {subject : String}

/-- How a call is answered. -/
def answer (g : Gateway) (c : TokenCall) : Except Rejection Token :=
  ((g.authorize c.pathGroup c.scope c.authorization).run c.world).1

/-- A call gives the right password of a user. -/
def Identifies (g : Gateway) (c : TokenCall) (user : String) : Prop :=
  ∃ password, c.GivesPassword user password ∧ g.credentials.users.lookup user = some password

/-- A call proves a subject by itself: it is the user whose password it gives or, where anyone may
have tokens, no one in particular. -/
def Proves (g : Gateway) (c : TokenCall) (subject : String) : Prop :=
  (subject = Claims.anonymous ∧ g.allowAnonymous = true ∧ c.authorization = none) ∨
    g.Identifies c subject

/-- What a token may rest on: the call proves the subject, or it gives a token that is good now. -/
theorem subjectOf_eq_ok (h : g.subjectOf c.authorization c.world.now = .ok subject) :
    g.Proves c subject ∨ ∃ text claims, c.GivesToken text ∧
      g.signer.decode text c.world.now = .ok claims ∧ subject = claims.subject := by
  unfold subjectOf at h
  cases hc : c.authorization with
  | none =>
    rw [hc] at h
    dsimp only at h
    split at h
    · next hanyone =>
      cases h
      exact .inl (.inl ⟨rfl, hanyone, hc⟩)
    · cases h
  | some header =>
    rw [hc] at h
    dsimp only at h
    cases hbasic : credentialsOf header.toList "basic" with
    | some payload =>
      rw [hbasic] at h
      dsimp only at h
      split at h
      · next user hverify =>
        cases h
        obtain ⟨⟨user, password⟩, hpassword, hknown⟩ := Option.bind_eq_some_iff.1 hverify
        obtain ⟨hlookup, rfl⟩ := Credentials.verify_eq_some_iff.1 hknown
        obtain ⟨rfl, hcolon⟩ := passwordOf?_eq_some_iff.1 hpassword
        have hpresents := (credentialsOf_eq_some_iff (by decide) (by decide)).1 hbasic
        exact .inl (.inr ⟨password, ⟨hcolon, header, hc, hpresents⟩, hlookup⟩)
      · cases h
    | none =>
      rw [hbasic] at h
      dsimp only at h
      cases hbearer : credentialsOf header.toList "bearer" with
      | none =>
        rw [hbearer] at h
        cases h
      | some credential =>
        rw [hbearer] at h
        dsimp only at h
        rw [mapError_eq_ok_iff] at h
        cases hdecode : g.signer.decode (String.ofList credential) c.world.now with
        | error fault =>
          rw [hdecode] at h
          cases h
        | ok claims =>
          rw [hdecode] at h
          cases h
          have hpresents := (credentialsOf_eq_some_iff (by decide) (by decide)).1 hbearer
          rw [← String.toList_ofList (l := credential)] at hpresents
          exact .inr ⟨_, claims, ⟨header, hc, hpresents⟩, hdecode, rfl⟩

/-- The token of a call: it was issued at the time of the call, for what the call names. -/
theorem token_of_answer (h : g.answer c = .ok token) :
    ∃ group image, wantedOf c.pathGroup c.scope = .ok (group, image) ∧
      token = g.signer.issue token.claims.subject (Name.pullScope group image) c.world.now := by
  obtain ⟨group, image, subject, hwanted, rfl⟩ := token_of_authorize (Prod.ext h rfl)
  exact ⟨group, image, hwanted, rfl⟩

theorem support_of_answer (h : g.answer c = .ok token) :
    g.Proves c token.claims.subject ∨ ∃ text claims, c.GivesToken text ∧
      g.signer.decode text c.world.now = .ok claims ∧ token.claims.subject = claims.subject := by
  have hat : g.authorizeAt c.pathGroup c.scope c.authorization c.world.now = .ok token := h
  simp only [authorizeAt, bind_eq_ok_iff] at hat
  obtain ⟨_, -, subject, hsubject, htoken⟩ := hat
  cases htoken
  exact subjectOf_eq_ok hsubject

/-- A token that was given says what it said then, as long as it is good. -/
theorem claims_of_answer (h : g.answer c = .ok token) {now : Int64} {claims : Claims}
    (hd : g.signer.decode token.text now = .ok claims) : claims = token.claims := by
  obtain ⟨group, image, -, htoken⟩ := token_of_answer h
  rw [htoken, Signer.decode_issue, ← htoken] at hd
  split at hd
  · cases hd
  split at hd
  · cases hd
  · exact (Except.ok.inj hd).symm

/-- A token that is good is taken for its subject. -/
theorem subjectOf_of_givesToken {text : String} {claims : Claims} (hgives : c.GivesToken text)
    (hdecode : g.signer.decode text c.world.now = .ok claims) :
    g.subjectOf c.authorization c.world.now = .ok claims.subject := by
  obtain ⟨header, hheader, hpresents⟩ := hgives
  have hbearer : credentialsOf header.toList "bearer" = some text.toList :=
    (credentialsOf_eq_some_iff (by decide) (by decide)).2 hpresents
  have hbasic : credentialsOf header.toList "basic" = none := by
    refine Option.eq_none_iff_forall_ne_some.2 fun payload hpayload => ?_
    have hother := (credentialsOf_eq_some_iff (by decide) (by decide)).1 hpayload
    have hsame := (hother.unique (by decide) (by decide) (by decide) (by decide) hpresents).1
    exact absurd hsame (by decide)
  unfold subjectOf
  rw [hheader]
  dsimp only
  rw [hbasic, hbearer]
  dsimp only
  rw [String.ofList_toList, hdecode]
  rfl

/-- A token that is good is taken in exchange for one of another scope. -/
theorem answer_of_exchange {old : Token} {scope group image : String} {issued : Int64}
    (hold : old = g.signer.issue subject scope issued) (hlive : old.IsLive c.world.now)
    (hgives : c.GivesToken old.text) (hwanted : wantedOf c.pathGroup c.scope = .ok (group, image)) :
    g.answer c = .ok (g.signer.issue subject (Name.pullScope group image) c.world.now) := by
  have hdecode : g.signer.decode old.text c.world.now = .ok old.claims := by
    obtain ⟨hpos, hlive⟩ := hlive
    rw [hold] at hpos hlive ⊢
    rw [Signer.decode_issue]
    exact (if_neg (Int64.not_lt.2 hpos)).trans (if_neg (Int64.not_le.2 hlive))
  have hsubject : g.subjectOf c.authorization c.world.now = .ok subject := by
    rw [subjectOf_of_givesToken hgives hdecode, hold]
    rfl
  show g.authorizeAt c.pathGroup c.scope c.authorization c.world.now = _
  unfold authorizeAt
  rw [hwanted, hsubject]
  rfl

/-! ## Sequences of calls -/

/-- Tokens that are taken in exchange were given before. -/
def IsChain (g : Gateway) (calls : List TokenCall) : Prop :=
  ∀ earlier c later, calls = earlier ++ c :: later →
    ∀ text, c.GivesToken text → (∃ token, g.answer c = .ok token) →
      ∃ giver ∈ earlier, ∃ old, g.answer giver = .ok old ∧ old.text = text

theorem isChain_nil : g.IsChain [] := by
  intro earlier c later hsplit
  simp at hsplit

theorem IsChain.concat {calls : List TokenCall} (hchain : g.IsChain calls)
    (hlast : ∀ text, c.GivesToken text → (∃ token, g.answer c = .ok token) →
      ∃ giver ∈ calls, ∃ old, g.answer giver = .ok old ∧ old.text = text) :
    g.IsChain (calls ++ [c]) := by
  intro earlier c' later hsplit
  rcases List.eq_nil_or_concat later with rfl | ⟨later, last, rfl⟩
  · obtain ⟨rfl, hc⟩ := List.append_inj' hsplit rfl
    cases hc
    exact hlast
  · rw [List.concat_eq_append, ← List.cons_append, ← List.append_assoc] at hsplit
    exact hchain earlier c' later (List.append_inj' hsplit rfl).1

/-- Every subject was proved by a call that was given a token, the same one or an earlier one. -/
theorem IsChain.proved {calls : List TokenCall} (hchain : g.IsChain calls)
    {earlier later : List TokenCall} (hsplit : calls = earlier ++ c :: later)
    (h : g.answer c = .ok token) :
    ∃ source ∈ earlier ++ [c], g.Proves source token.claims.subject ∧
      ∃ first, g.answer source = .ok first := by
  -- The induction goes back to the call that gave the token which this call exchanges.
  induction hn : earlier.length using Nat.strongRecOn generalizing earlier c later token with
  | ind n ih =>
    rcases support_of_answer h with hproves | ⟨text, claims, hgives, hdecode, hsubject⟩
    · exact ⟨c, by simp, hproves, token, h⟩
    · obtain ⟨giver, hgiver, old, hold, rfl⟩ := hchain earlier c later hsplit text hgives ⟨token, h⟩
      obtain ⟨before, between, rfl⟩ := List.append_of_mem hgiver
      have hshort : before.length < n := by
        rw [← hn]
        simp
      have hsplit' : calls = before ++ giver :: (between ++ c :: later) := by
        rw [hsplit]
        simp
      obtain ⟨source, hsource, hproves, hfirst⟩ := ih before.length hshort hsplit' hold rfl
      refine ⟨source, ?_, ?_, hfirst⟩
      · rw [List.mem_append, List.mem_singleton] at hsource
        rcases hsource with hmem | rfl
        · simp [hmem]
        · simp
      · rwa [hsubject, claims_of_answer hold hdecode]

/-- In every sequence of calls in which no token is taken in exchange but those given before, at
whatever times the calls come: the subject of a token was proved by the same call or an earlier one
that was given a token, its scope is what its own call names, within the group of the endpoint, and
where not everyone may have tokens no one has any until a user gives the right password. -/
theorem authorize_provenance (g : Gateway) (calls : List TokenCall) (hchain : g.IsChain calls) :
    (∀ earlier c later token, calls = earlier ++ c :: later → g.answer c = .ok token →
      (∃ source ∈ earlier ++ [c], g.Proves source token.claims.subject ∧
        ∃ first, g.answer source = .ok first) ∧
      ∃ group image actions, c.scope = some (Scope.textOf group image actions) ∧
        Scope.AsksPull actions ∧ Name.checkGroup group = .ok () ∧ Name.checkImage image = .ok () ∧
        (∀ only, c.pathGroup = some only → only = group) ∧
        token.claims.scope = group ++ "/" ++ image) ∧
    (g.allowAnonymous = false → (∀ c ∈ calls, ∀ user, ¬ g.Identifies c user) →
      ∀ c ∈ calls, ∀ token, g.answer c ≠ .ok token) := by
  constructor
  · intro earlier c later token hsplit h
    obtain ⟨group, image, hwanted, htoken⟩ := token_of_answer h
    obtain ⟨⟨actions, hscope, hpull⟩, hg, hi, honly⟩ := wantedOf_eq_ok_iff.1 hwanted
    refine ⟨hchain.proved hsplit h, group, image, actions, hscope, hpull, hg, hi, honly, ?_⟩
    rw [htoken]
    rfl
  · intro hsome hnone c hc token h
    obtain ⟨earlier, later, rfl⟩ := List.append_of_mem hc
    obtain ⟨source, hsource, hproves, -⟩ := hchain.proved rfl h
    have hmem : source ∈ earlier ++ c :: later := by
      rw [List.mem_append, List.mem_singleton] at hsource
      rcases hsource with hmem | rfl
      · simp [hmem]
      · simp
    rcases hproves with ⟨-, hanyone, -⟩ | hknown
    · rw [hsome] at hanyone
      cases hanyone
    · exact hnone source hmem _ hknown

/-- A user gives a password, and then exchanges tokens twice. When the last one is given,
the first has expired. -/
theorem authorize_provenance_of_exchange :
    let g : Gateway :=
      ⟨⟨Bytes.ofText "secret", 300⟩, ⟨{ base := [""] }, ⟨"registry", "token", "service", 1, none⟩⟩,
        ⟨[("u", "p:q")]⟩, false, "proxy"⟩
    let world : Int → World := fun seconds =>
      { clock := fun _ => ⟨seconds, 0⟩, origin := fun _ _ => .failed }
    let bearer : Token → Option String := fun token => some ("Bearer " ++ token.text)
    let first : TokenCall := ⟨none, some "repository:g/i:pull", some "Basic dTpwOnE=", world 0⟩
    let old := g.signer.issue "u" "g/i" 0
    let second : TokenCall :=
      ⟨some "h", some "repository:h/library/j:push,pull", bearer old, world 200⟩
    let newer := g.signer.issue "u" "h/library/j" 200
    let third : TokenCall := ⟨none, some "repository:g/k:pull", bearer newer, world 400⟩
    g.IsChain [first, second, third] ∧ ¬ old.IsLive third.world.now ∧
      g.answer third = .ok (g.signer.issue "u" "g/k" 400) ∧
      ∃ source ∈ [first, second, third], g.Proves source "u" := by
  intro g world bearer first old second newer third
  have hold : old = g.signer.issue "u" "g/i" 0 := rfl
  have hnewer : newer = g.signer.issue "u" "h/library/j" 200 := rfl
  clear_value old newer
  have hnow₂ : second.world.now = 200 := rfl
  have hnow₃ : third.world.now = 400 := rfl
  have hanswer₁ : g.answer first = .ok old := by
    have hwanted : wantedOf none (some "repository:g/i:pull") = .ok ("g", "i") := by decide +kernel
    have hsubject : g.subjectOf (some "Basic dTpwOnE=") 0 = .ok "u" := by decide +kernel
    have hat : g.authorizeAt none (some "repository:g/i:pull") (some "Basic dTpwOnE=") 0 =
        .ok old := by
      rw [authorizeAt, hwanted, hsubject, hold]
      rfl
    exact hat
  have hgives₁ : ∀ text, ¬ first.GivesToken text := by
    rintro text ⟨header, hheader, hpresents⟩
    cases hheader
    have hnone : credentialsOf "Basic dTpwOnE=".toList "bearer" = none := by decide +kernel
    rw [(credentialsOf_eq_some_iff (by decide) (by decide)).2 hpresents] at hnone
    cases hnone
  have hgives₂ : second.GivesToken old.text :=
    ⟨_, rfl, hold ▸ g.signer.presents_issue "u" "g/i" 0⟩
  have hgives₃ : third.GivesToken newer.text :=
    ⟨_, rfl, hnewer ▸ g.signer.presents_issue "u" "h/library/j" 200⟩
  have hlive₂ : old.IsLive 200 := by
    rw [hold]
    constructor <;> decide +kernel
  have hlive₃ : newer.IsLive 400 := by
    rw [hnewer]
    constructor <;> decide +kernel
  have hanswer₂ : g.answer second = .ok newer := by
    have hwanted : wantedOf (some "h") (some "repository:h/library/j:push,pull") =
        .ok ("h", "library/j") := by decide +kernel
    have hscope : Name.pullScope "h" "library/j" = "h/library/j" := by decide +kernel
    rw [answer_of_exchange hold (hnow₂ ▸ hlive₂) hgives₂ hwanted, hnow₂, hscope, hnewer]
  have hanswer₃ : g.answer third = .ok (g.signer.issue "u" "g/k" 400) := by
    have hwanted : wantedOf none (some "repository:g/k:pull") = .ok ("g", "k") := by decide +kernel
    have hscope : Name.pullScope "g" "k" = "g/k" := by decide +kernel
    rw [answer_of_exchange hnewer (hnow₃ ▸ hlive₃) hgives₃ hwanted, hnow₃, hscope]
  have hchain : g.IsChain [first, second, third] := by
    have h₁ : g.IsChain [first] :=
      isChain_nil.concat fun text hgives _ => absurd hgives (hgives₁ text)
    have h₂ : g.IsChain [first, second] := h₁.concat fun text hgives _ =>
      ⟨first, by simp, old, hanswer₁, (hgives₂.unique hgives)⟩
    exact h₂.concat fun text hgives _ => ⟨second, by simp, newer, hanswer₂, hgives₃.unique hgives⟩
  refine ⟨hchain, ?_, hanswer₃, ?_⟩
  · rintro ⟨-, hlive⟩
    rw [hnow₃, hold] at hlive
    exact absurd hlive (by decide +kernel)
  · obtain ⟨⟨source, hsource, hproves, -⟩, -⟩ :=
      (authorize_provenance g _ hchain).1 [first, second] third [] _ rfl hanswer₃
    exact ⟨source, hsource, hproves⟩

end Gateway

end PullThrough
