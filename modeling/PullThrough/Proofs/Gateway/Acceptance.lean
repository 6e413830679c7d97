import PullThrough.Proofs.Gateway.Provenance
/-
  Which calls for a token are answered with one.

  A call is answered with a token just when its scope asks for pulling an image under valid names
  (`TokenCall.Names`), the endpoint is not that of another group (`TokenCall.IsWithin`) and the call
  may have a token for some subject (`Gateway.Admits`). All three are said of the texts of the call
  without an order of reading. The main result (`Gateway.authorize_iff`) is this equivalence, with
  the refusals: whoever names nothing that can be given is told so whatever credentials come along,
  and only then is anyone asked for a password.

  Times are added in sixty-four bits that wrap, so nothing is assumed about the lifetime of tokens.
  Whether a token lives long enough to be of use is another matter (`Signer.Fits`).
-/
namespace PullThrough

namespace TokenCall

/-- A call names an image by its scope. -/
def Names (c : TokenCall) (group image : String) : Prop :=
  (∃ actions, c.scope = some (Scope.textOf group image actions) ∧ Scope.AsksPull actions) ∧
    Name.checkGroup group = .ok () ∧ Name.checkImage image = .ok ()

/-- The endpoint of a call is that of a group or that of all groups. -/
def IsWithin (c : TokenCall) (group : String) : Prop :=
  c.pathGroup = none ∨ c.pathGroup = some group

variable {c : TokenCall} {group image : String}

theorem wantedOf_iff : Gateway.wantedOf c.pathGroup c.scope = .ok (group, image) ↔
    c.Names group image ∧ c.IsWithin group := by
  have honly : (∀ only, c.pathGroup = some only → only = group) ↔ c.IsWithin group := by
    unfold IsWithin
    cases c.pathGroup <;> simp
  rw [Gateway.wantedOf_eq_ok_iff, honly, Names, and_assoc, and_assoc]

/-- A scope names one image. -/
theorem Names.unique {group' image' : String} (h : c.Names group image)
    (h' : c.Names group' image') : group = group' ∧ image = image' := by
  have hread : ∀ {group image}, c.Names group image →
      Gateway.wantedOf none c.scope = .ok (group, image) := fun h =>
    Gateway.wantedOf_eq_ok_iff.2 ⟨h.1, h.2.1, h.2.2, fun _ hnone => by cases hnone⟩
  exact Prod.mk.inj (Except.ok.inj ((hread h).symm.trans (hread h')))

end TokenCall

namespace Gateway

variable {g : Gateway} {c : TokenCall} {subject : String}

/-! ## Who may have a token -/

/-- A call may have a token for a subject: it proves the subject, or it gives a token of the subject
that is good now. -/
def Admits (g : Gateway) (c : TokenCall) (subject : String) : Prop :=
  g.Proves c subject ∨ ∃ text claims, c.GivesToken text ∧
    g.signer.decode text c.world.now = .ok claims ∧ subject = claims.subject

theorem subjectOf_of_identifies (h : g.Identifies c subject) :
    g.subjectOf c.authorization c.world.now = .ok subject := by
  obtain ⟨password, ⟨hcolon, header, hheader, hpresents⟩, hlookup⟩ := h
  have hbasic := (credentialsOf_eq_some_iff (by decide) (by decide)).2 hpresents
  have hpassword : passwordOf? (basicPayload subject password) = some (subject, password) :=
    passwordOf?_eq_some_iff.2 ⟨rfl, hcolon⟩
  have hverify := Credentials.verify_eq_some_iff.2 ⟨hlookup, rfl⟩
  unfold subjectOf
  rw [hheader]
  dsimp only
  rw [hbasic]
  dsimp only
  rw [hpassword, Option.bind_some, hverify]

theorem subjectOf_eq_ok_iff :
    g.subjectOf c.authorization c.world.now = .ok subject ↔ g.Admits c subject := by
  constructor
  · exact subjectOf_eq_ok
  · rintro ((⟨rfl, hanyone, hnone⟩ | hknown) | ⟨text, claims, hgives, hdecode, rfl⟩)
    · rw [hnone]
      exact if_pos hanyone
    · exact subjectOf_of_identifies hknown
    · exact subjectOf_of_givesToken hgives hdecode

/-- A call that presents a user name and a password is admitted for them or not at all. -/
theorem admits_iff_of_givesPassword {user password : String} (h : c.GivesPassword user password) :
    (∃ subject, g.Admits c subject) ↔ g.credentials.users.lookup user = some password := by
  constructor
  · rintro ⟨subject, (⟨-, -, hnone⟩ | ⟨password', hgives, hlookup⟩) | ⟨text, claims, hgives, -⟩⟩
    · obtain ⟨-, header, hheader, -⟩ := h
      rw [hheader] at hnone
      cases hnone
    · obtain ⟨rfl, rfl⟩ := h.unique hgives
      exact hlookup
    · exact absurd hgives (h.not_givesToken text)
  · exact fun hlookup => ⟨user, .inl (.inr ⟨password, h, hlookup⟩)⟩

/-- User name and password in the header that clients send for them. -/
def basicHeader (user password : String) : String :=
  "Basic " ++ String.ofList (basicPayload user password)

theorem isBlank_of_mem_basicPayload {user password : String} {d : Char}
    (h : d ∈ basicPayload user password) : Text.isBlank d = false := by
  rcases List.mem_append.1 h with h | h
  · cases hd : Text.isBlank d with
    | false => rfl
    | true =>
      have hnone : Base64.Alphabet.standard.value? d = none :=
        Base64.Alphabet.value?_of_isBlank (by decide) (by decide) hd
      exact absurd h (Base64.not_mem_encode Base64.Alphabet.isSound_standard hnone _)
  · obtain rfl := List.eq_of_mem_replicate h
    decide

theorem presents_basicHeader (user password : String) :
    Presents (basicHeader user password).toList "basic" (basicPayload user password) := by
  have htext : (basicHeader user password).toList =
      "Basic".toList ++ ' ' :: basicPayload user password := by simp [basicHeader]
  have hne : basicPayload user password ≠ [] := by
    intro hnil
    -- An empty payload would be read as an empty text, and the text has a colon.
    have hread := Base64.decodePadded?_eq_some_iff Base64.Alphabet.isSound_standard
      Base64.Alphabet.isExact_standard (by decide) |>.2 hnil.symm
    have hempty : Base64.decodePadded? .standard [] = some [] := by decide
    have hcolon : Bytes.ofText ":" = [0x3A] := by decide +kernel
    rw [hempty] at hread
    simp [hcolon] at hread
  rw [htext]
  exact presents_of_unblank (by decide) hne fun _ hd => isBlank_of_mem_basicPayload hd

/-- The header of a user name without a colon and a password gives these two. -/
theorem givesPassword_basicHeader {user password : String} (hcolon : ':' ∉ user.toList)
    (h : c.authorization = some (basicHeader user password)) : c.GivesPassword user password :=
  ⟨hcolon, _, h, presents_basicHeader user password⟩

/-! ## How a call is refused -/

/-- A rejection says that the request itself cannot be granted to anyone. -/
def IsBadRequest (rejection : Rejection) : Prop :=
  ∃ code message, rejection = .badRequest code message

theorem isBadRequest_of_check {name : Except NameFault Unit} {code : String} {rejection : Rejection}
    (h : name.mapError (.ofName code) = .error rejection) : IsBadRequest rejection := by
  obtain ⟨fault, -, rfl⟩ := mapError_eq_error_iff.1 h
  exact ⟨_, _, rfl⟩

theorem isBadRequest_of_parse {scope : String} {rejection : Rejection}
    (h : Scope.parse scope = .error rejection) : IsBadRequest rejection := by
  unfold Scope.parse at h
  split at h
  · cases h
    exact ⟨_, _, rfl⟩
  rcases bind_eq_error_iff.1 h with hgroup | ⟨_, -, h⟩
  · exact isBadRequest_of_check hgroup
  rcases bind_eq_error_iff.1 h with himage | ⟨_, -, h⟩
  · exact isBadRequest_of_check himage
  · cases h

theorem isBadRequest_of_wantedOf {pathGroup scope : Option String} {rejection : Rejection}
    (h : wantedOf pathGroup scope = .error rejection) : IsBadRequest rejection := by
  unfold wantedOf at h
  split at h
  · cases h
    exact ⟨_, _, rfl⟩
  rcases bind_eq_error_iff.1 h with hparse | ⟨⟨group, image⟩, -, h⟩
  · exact isBadRequest_of_parse hparse
  dsimp only at h
  split at h
  · split at h
    · cases h
    · cases h
      exact ⟨_, _, rfl⟩
  · cases h

/-- Who may have no token is asked for a password. -/
theorem askPassword_of_subjectOf {authorization : Option String} {now : Int64}
    {rejection : Rejection} (h : g.subjectOf authorization now = .error rejection) :
    ∃ fault, rejection = askPassword fault := by
  unfold subjectOf at h
  split at h
  · split at h
    · cases h
    · cases h
      exact ⟨_, rfl⟩
  split at h
  · split at h
    · cases h
    · cases h
      exact ⟨_, rfl⟩
  split at h
  · obtain ⟨fault, -, rfl⟩ := mapError_eq_error_iff.1 h
    exact ⟨fault, rfl⟩
  · cases h
    exact ⟨_, rfl⟩

/-! ## Answers -/

/-- What a call names is read before its credentials are. -/
theorem answer_eq (g : Gateway) (c : TokenCall) :
    g.answer c = (wantedOf c.pathGroup c.scope >>= fun wanted =>
      g.subjectOf c.authorization c.world.now >>= fun subject =>
        .ok (g.signer.issue subject (Name.pullScope wanted.1 wanted.2) c.world.now)) := rfl

variable {group image : String}

/-- The token of a call, where the call names what can be given and may have it. -/
theorem answer_of_admits (hnames : c.Names group image) (hwithin : c.IsWithin group)
    (hadmits : g.Admits c subject) :
    g.answer c = .ok (g.signer.issue subject (Name.pullScope group image) c.world.now) := by
  rw [answer_eq, TokenCall.wantedOf_iff.2 ⟨hnames, hwithin⟩]
  show (g.subjectOf c.authorization c.world.now >>= _) = _
  rw [subjectOf_eq_ok_iff.2 hadmits]
  rfl

theorem answer_eq_ok_iff : (∃ token, g.answer c = .ok token) ↔
    (∃ group image, c.Names group image ∧ c.IsWithin group) ∧ ∃ subject, g.Admits c subject := by
  constructor
  · rintro ⟨token, h⟩
    obtain ⟨group, image, hwanted, -⟩ := token_of_answer h
    exact ⟨⟨group, image, TokenCall.wantedOf_iff.1 hwanted⟩, _, support_of_answer h⟩
  · rintro ⟨⟨group, image, hnames, hwithin⟩, subject, hadmits⟩
    exact ⟨_, answer_of_admits hnames hwithin hadmits⟩

/-- What the token of a call says. -/
theorem claims_of_names {token : Token} (hnames : c.Names group image)
    (h : g.answer c = .ok token) :
    token.claims.scope = group ++ "/" ++ image ∧ g.Admits c token.claims.subject := by
  obtain ⟨group', image', hwanted, htoken⟩ := token_of_answer h
  obtain ⟨rfl, rfl⟩ := hnames.unique (TokenCall.wantedOf_iff.1 hwanted).1
  refine ⟨?_, support_of_answer h⟩
  rw [htoken]
  rfl

/-- A call that names nothing that can be given is a bad request, whatever its credentials are. -/
theorem answer_of_not_names (h : ¬ ∃ group image, c.Names group image ∧ c.IsWithin group) :
    ∃ code message, ∀ (g : Gateway) (authorization : Option String) (world : World),
      g.answer { c with authorization, world } = .error (.badRequest code message) := by
  cases hwanted : wantedOf c.pathGroup c.scope with
  | ok wanted => exact absurd ⟨wanted.1, wanted.2, TokenCall.wantedOf_iff.1 hwanted⟩ h
  | error rejection =>
    obtain ⟨code, message, rfl⟩ := isBadRequest_of_wantedOf hwanted
    refine ⟨code, message, fun g authorization world => ?_⟩
    rw [answer_eq, hwanted]
    rfl

/-- A call that may have no token, and names what could be given, is asked for a password. -/
theorem answer_of_not_admits (hnames : c.Names group image) (hwithin : c.IsWithin group)
    (h : ¬ ∃ subject, g.Admits c subject) :
    ∃ fault, g.answer c = .error (.unauthorized fault (.basic serviceName)) := by
  cases hsubject : g.subjectOf c.authorization c.world.now with
  | ok subject => exact absurd ⟨subject, subjectOf_eq_ok_iff.1 hsubject⟩ h
  | error rejection =>
    obtain ⟨fault, rfl⟩ := askPassword_of_subjectOf hsubject
    refine ⟨fault, ?_⟩
    rw [answer_eq, TokenCall.wantedOf_iff.2 ⟨hnames, hwithin⟩]
    show (g.subjectOf c.authorization c.world.now >>= _) = _
    rw [hsubject]
    rfl

/-- A call is answered with a token if and only if its scope names an image, its endpoint serves the
group and it may have a token for some subject. The image is the only one that the scope names, and
the token is for it and for such a subject. A call that fails of the first two is a bad request
whoever makes it, one that fails of the third only is unauthorized. Among the headers of users whose
names have no colon, those of their passwords are taken. -/
theorem authorize_iff (g : Gateway) (c : TokenCall) :
    ((∃ token, g.answer c = .ok token) ↔
      (∃ group image, c.Names group image ∧ c.IsWithin group) ∧ ∃ subject, g.Admits c subject) ∧
    (∀ group image group' image', c.Names group image → c.Names group' image' →
      group = group' ∧ image = image') ∧
    (∀ group image token, c.Names group image → g.answer c = .ok token →
      token.claims.scope = group ++ "/" ++ image ∧ g.Admits c token.claims.subject) ∧
    ((¬ ∃ group image, c.Names group image ∧ c.IsWithin group) →
      ∃ code message, ∀ (g' : Gateway) (authorization : Option String) (world : World),
        g'.answer { c with authorization, world } = .error (.badRequest code message)) ∧
    (∀ group image, c.Names group image → c.IsWithin group → (¬ ∃ subject, g.Admits c subject) →
      ∃ fault, g.answer c = .error (.unauthorized fault (.basic serviceName))) ∧
    (∀ group image user password, c.Names group image → c.IsWithin group → ':' ∉ user.toList →
      c.authorization = some (basicHeader user password) →
        ((∃ token, g.answer c = .ok token) ↔
          g.credentials.users.lookup user = some password)) := by
  refine ⟨answer_eq_ok_iff, fun _ _ _ _ h h' => h.unique h', fun _ _ _ => claims_of_names,
    answer_of_not_names, fun _ _ => answer_of_not_admits, ?_⟩
  intro group image user password hnames hwithin hcolon hheader
  rw [answer_eq_ok_iff, admits_iff_of_givesPassword (givesPassword_basicHeader hcolon hheader)]
  exact and_iff_right ⟨group, image, hnames, hwithin⟩

/-- A password may have colons. What stands before the last of them is another password. -/
theorem authorize_iff_of_colon_in_password :
    let g : Gateway :=
      ⟨⟨Bytes.ofText "secret", 300⟩, ⟨{ base := [""] }, ⟨"registry", "token", "service", 1, none⟩⟩,
        ⟨[("u", "p:q")]⟩, true, "proxy"⟩
    let world : World := { clock := fun _ => ⟨0, 0⟩, origin := fun _ _ => .failed }
    let call : String → TokenCall := fun password =>
      ⟨some "g", some "repository:g/library/i:push,pull", some (basicHeader "u" password), world⟩
    (∃ token, g.answer (call "p:q") = .ok token) ∧ ¬ ∃ token, g.answer (call "p") = .ok token := by
  intro g world call
  have hnames : ∀ password, (call password).Names "g" "library/i" := fun password =>
    ⟨⟨"push,pull", congrArg some (by decide +kernel), by decide +kernel, by decide +kernel⟩,
      by decide +kernel, by decide +kernel⟩
  have hwithin : ∀ password, (call password).IsWithin "g" := fun password => .inr rfl
  have hright := (authorize_iff g (call "p:q")).2.2.2.2.2 "g" "library/i" "u" "p:q" (hnames _)
    (hwithin _) (by decide) rfl
  have hwrong := (authorize_iff g (call "p")).2.2.2.2.2 "g" "library/i" "u" "p" (hnames _)
    (hwithin _) (by decide) rfl
  refine ⟨hright.2 (by decide), fun h => ?_⟩
  exact absurd (hwrong.1 h) (by decide)

end Gateway

end PullThrough
