import PullThrough.Proofs.Gateway.Checkpoint
import PullThrough.Proofs.Token.Lifetimes
/-
  From a challenge to access.

  A request that is turned down for lack of access is told where to ask for a token, and by which
  scope. The main result is that this is true: the token endpoint of the realm takes the scope from
  anyone, if anyone may have tokens, and the token that it gives opens the image until it expires,
  and not from then on (`Gateway.handle_challenge_opens`). Four forms of one pair of names have to
  agree for this: what the challenge says, what the scope asks for, what the token grants and what
  the check wants. They do because no group has a slash and the action has no colon.

  Times are seconds in sixty-four bits. Nothing is claimed about a lifetime that leads out of them
  (`Signer.Fits`).
-/
namespace PullThrough

/-! ## What a challenge names -/

/-- The text of a challenge sends the client to a realm with a scope. A remark on the token that was
presented may follow. -/
def Challenge.Names (challenge : Challenge) (realm scope : String) : Prop :=
  ∃ remark, (remark = "" ∨ remark = ",error=\"invalid_token\"") ∧
    challenge.text = "Bearer realm=\"" ++ realm ++ "\",service=\"dependency_proxy\",scope=\"" ++
      scope ++ "\"" ++ remark

/-- The scope by which pulling an image is asked for. -/
def Scope.request (group image : String) : String :=
  "repository:" ++ Name.pullScope group image ++ ":pull"

namespace Scope

variable {group image : String}

theorem split?_request (hg : Name.isGroup group = true) :
    split? (request group image) = some (group, image) := by
  have hscope : (Name.pullScope group image).toList = group.toList ++ '/' :: image.toList := by
    simp [Name.pullScope]
  have htext : (request group image).toList =
      kind.toList ++ (group.toList ++ '/' :: image.toList ++ ':' :: action.toList) := by
    rw [request, String.toList_append, String.toList_append, hscope, List.append_assoc]
    rfl
  have hcolon : ':' ∉ action.toList := by decide
  have haction : (action.toList.splitOn ',').contains action.toList = true := by decide
  unfold split?
  rw [htext, Text.isPrefixOf?_append, Option.bind_eq_bind, Option.bind_some,
    Text.cutLast?_append hcolon, Option.bind_eq_bind, Option.bind_some]
  dsimp only
  rw [haction, Text.cutFirst?_append (Name.slash_not_mem_of_isGroup hg)]
  simp

/-- A request for checked names is read as these names. -/
theorem parse_request (hg : Name.checkGroup group = .ok ()) (hi : Name.checkImage image = .ok ()) :
    parse (request group image) = .ok (group, image) := by
  unfold parse
  rw [split?_request (Name.isGroup_of_check hg)]
  dsimp only
  rw [hg, hi]
  rfl

end Scope

namespace Gateway

variable {g : Gateway} {r : PullRequest}

/-! ## Answers of lacking access -/

/-- A rejection is for lack of access. -/
def IsForAccess : Rejection → Prop
  | .unauthorized _ _ => True
  | _ => False

theorem not_isForAccess_ofName (code : String) (fault : NameFault) :
    ¬ IsForAccess (.ofName code fault) := id

theorem not_isForAccess_ofFailure (code : String) (failure : Failure) :
    ¬ IsForAccess (.ofFailure code failure) := by
  cases failure <;> exact id

/-- Behind the check no answer is for lack of access. -/
theorem serve_not_isForAccess (g : Gateway) (r : PullRequest) {w w' : World} {rejection : Rejection}
    (h : (g.serve r).run w = (.error rejection, w')) : ¬ IsForAccess rejection := by
  unfold serve at h
  cases hr : r.resource with
  | manifest tag =>
    rw [hr] at h
    dsimp only at h
    unfold serveManifest at h
    cases ht : Name.checkTag tag with
    | error fault =>
      rw [ht] at h
      cases h
      exact not_isForAccess_ofName _ _
    | ok _ =>
      rw [ht] at h
      dsimp only at h
      rw [Job.run_bind] at h
      generalize (g.cache.resolveManifest r.group r.image tag).run.run w = found at h
      obtain ⟨failure | found, w₁⟩ := found
      · cases h
        exact not_isForAccess_ofFailure _ _
      · cases h
  | blob digest =>
    rw [hr] at h
    dsimp only at h
    unfold serveBlob digestOf at h
    cases hd : Digest.parse digest with
    | error fault =>
      rw [hd] at h
      cases h
      exact not_isForAccess_ofName _ _
    | ok digest =>
      rw [hd] at h
      dsimp only [Except.mapError] at h
      rw [Job.run_bind] at h
      generalize (g.cache.resolveBlob r.group r.image digest).run.run w = found at h
      obtain ⟨failure | found, w₁⟩ := found
      · cases h
        exact not_isForAccess_ofFailure _ _
      · cases h

/-- A request that is turned down for lack of access has checked names, and is told
which scope to ask for. -/
theorem refuse_of_permit {now : Int64} {fault : AccessFault} {challenge : Challenge}
    (h : g.permit r now = .error (.unauthorized fault challenge)) :
    Name.checkGroup r.group = .ok () ∧ Name.checkImage r.image = .ok () ∧
      Rejection.unauthorized fault challenge =
        g.refuse r.group (Name.pullScope r.group r.image) fault := by
  cases hg : Name.checkGroup r.group with
  | error fault' =>
    unfold permit at h
    rw [hg] at h
    cases h
  | ok _ =>
    cases hi : Name.checkImage r.image with
    | error fault' =>
      unfold permit at h
      rw [hg, hi] at h
      cases h
    | ok _ =>
      rw [permit_of_names hg hi] at h
      cases ha : g.authenticate r.authorization (Name.pullScope r.group r.image) now with
      | ok subject =>
        rw [ha] at h
        cases h
      | error fault' =>
        rw [ha] at h
        have heq : g.refuse r.group (Name.pullScope r.group r.image) fault' =
            .unauthorized fault challenge := by simpa using h
        have hfault : fault' = fault := (Rejection.unauthorized.inj heq).1
        rw [hfault] at heq
        exact ⟨rfl, rfl, heq.symm⟩

theorem refuse_of_handle {w w' : World} {fault : AccessFault} {challenge : Challenge}
    (h : (g.handle r).run w = (.error (.unauthorized fault challenge), w')) :
    Name.checkGroup r.group = .ok () ∧ Name.checkImage r.image = .ok () ∧
      Rejection.unauthorized fault challenge =
        g.refuse r.group (Name.pullScope r.group r.image) fault := by
  cases hp : g.permit r w.now with
  | error rejection =>
    have hdown := (isTurnedDown_of_permit hp g.cache w rfl).1
    have hsame : rejection = .unauthorized fault challenge := by
      have hrun : (.error rejection, w.ticked) = ((.error (.unauthorized fault challenge), w') :
        Except Rejection PullResponse × World) := hdown.symm.trans h
      simpa using congrArg Prod.fst hrun
    rw [hsame] at hp
    exact refuse_of_permit hp
  | ok _ =>
    have hserved := (isServed_of_permit hp).1
    rw [h] at hserved
    exact absurd trivial (g.serve_not_isForAccess r hserved.symm)

/-- The realm to which requests for a group are sent. -/
def realmOf (g : Gateway) (group : String) : String := g.externalUrl ++ "/" ++ group ++ "/authorize"

theorem names_of_refuse {group image : String} {fault : AccessFault} {challenge : Challenge}
    (h : Rejection.unauthorized fault challenge =
      g.refuse group (Name.pullScope group image) fault) :
    challenge.Names (g.realmOf group) (Scope.request group image) := by
  have hchallenge := (Rejection.unauthorized.inj h).2
  have hscope : ∀ remark : Option String,
      (Challenge.bearer (g.realmOf group) serviceName (some (Name.pullScope group image))
        remark).text =
        "Bearer realm=\"" ++ g.realmOf group ++ "\",service=\"dependency_proxy\",scope=\"" ++
          Scope.request group image ++ "\"" ++
          (remark.elim "" fun remark => ",error=" ++ Challenge.inQuotes remark) := by
    intro remark
    have hhead : "Bearer realm=\"" = "Bearer realm=" ++ "\"" := by decide
    have hmiddle : "\",service=\"dependency_proxy\",scope=\"" =
        "\"" ++ ",service=" ++ "\"" ++ "dependency_proxy" ++ "\"" ++ ",scope=" ++ "\"" := by decide
    rw [hhead, hmiddle]
    unfold Challenge.text Challenge.inQuotes Scope.request serviceName
    cases remark with
    | some remark => simp only [Option.elim_some, String.append_assoc]
    | none => simp only [Option.elim_none, String.append_assoc]
  by_cases hf : fault = .unauthenticated
  · rw [if_pos hf] at hchallenge
    rw [hchallenge]
    exact ⟨"", .inl rfl, hscope none⟩
  · rw [if_neg hf] at hchallenge
    rw [hchallenge]
    exact ⟨",error=\"invalid_token\"", .inr rfl, hscope (some "invalid_token")⟩

/-! ## Tokens for anyone -/

/-- A token for an image, for anyone. -/
theorem authorize_of_anonymous (hanyone : g.allowAnonymous = true) {group image : String}
    (hg : Name.checkGroup group = .ok ()) (hi : Name.checkImage image = .ok ()) (w : World) :
    (g.authorize (some group) (some (Scope.request group image)) none).run w =
      (.ok (g.signer.issue Claims.anonymous (Name.pullScope group image) w.now), w.ticked) := by
  have hwanted : wantedOf (some group) (some (Scope.request group image)) = .ok (group, image) := by
    unfold wantedOf
    dsimp only
    rw [Scope.parse_request hg hi]
    exact if_pos rfl
  have hsubject : g.subjectOf none w.now = .ok Claims.anonymous := by
    unfold subjectOf
    exact if_pos hanyone
  have hat : g.authorizeAt (some group) (some (Scope.request group image)) none w.now =
      .ok (g.signer.issue Claims.anonymous (Name.pullScope group image) w.now) := by
    unfold authorizeAt
    rw [hwanted]
    show (g.subjectOf none w.now >>= _) = _
    rw [hsubject]
    rfl
  exact Prod.ext hat rfl

/-- A header in which a token stands behind the name of the scheme. -/
def Carries (header : String) (token : Token) : Prop :=
  ∃ pad name gap pad', header.toList = pad ++ name ++ ' ' :: gap ++ token.text.toList ++ pad' ∧
    Text.AllBlank pad ∧ name.map Char.toLower = "bearer".toList ∧ Text.AllBlank gap ∧
      Text.AllBlank pad'

theorem presents_of_carries {header subject scope : String} {issued : Int64}
    (h : Carries header (g.signer.issue subject scope issued)) :
    Presents header.toList "bearer" (g.signer.issue subject scope issued).text.toList := by
  obtain ⟨pad, name, gap, pad', hheader, hpad, hname, hgap, hpad'⟩ := h
  have hblank : ∀ c ∈ (g.signer.issue subject scope issued).text.toList, Text.isBlank c = false :=
    fun c hc => Signer.isBlank_of_mem_issue hc
  have hne : (g.signer.issue subject scope issued).text.toList ≠ [] := by
    simp [Signer.issue]
  refine ⟨pad, name, gap, pad', hheader, hpad, ?_, hgap, hne, ⟨?_, ?_⟩, hpad'⟩
  · rw [hname]
    decide
  · intro c hc
    exact hblank c (List.mem_of_mem_head? hc)
  · intro c hc
    exact hblank c (List.mem_of_getLast? hc)

/-- What an issued token does for the image that it was issued for: it opens it until it expires. -/
theorem permit_of_carried {group image header subject : String} {issued : Int64}
    (hg : Name.checkGroup r.group = .ok ()) (hi : Name.checkImage r.image = .ok ())
    (hgroup : r.group = group) (himage : r.image = image) (hfits : g.signer.Fits issued)
    (hh : r.authorization = some header)
    (hc : Carries header (g.signer.issue subject (Name.pullScope group image) issued))
    (now : Int64) : g.permit r now =
      if now.toInt < issued.toInt + g.signer.ttl.toNat then .ok ()
      else .error (g.refuse group (Name.pullScope group image) .expired) := by
  subst hgroup
  subst himage
  have hexpires : (g.signer.issue subject (Name.pullScope r.group r.image) issued).claims.expires =
      issued + g.signer.ttl.toInt64 := rfl
  have hvalue := hfits.toInt_expires
  have hpositive : ¬ (issued + g.signer.ttl.toInt64 < 0) := by
    rw [Int64.lt_iff_toInt_lt, hvalue]
    have hlow := hfits.1
    have hzero : (0 : Int64).toInt = 0 := rfl
    omega
  have hdead : issued + g.signer.ttl.toInt64 ≤ now ↔
      ¬ now.toInt < issued.toInt + g.signer.ttl.toNat := by
    rw [Int64.le_iff_toInt_le, hvalue]
    omega
  rw [permit_of_issued hg hi hg ⟨subject, issued, rfl⟩ hh (presents_of_carries hc), hexpires,
    if_neg hpositive]
  by_cases hlive : now.toInt < issued.toInt + g.signer.ttl.toNat
  · rw [if_neg (fun h => hdead.1 h hlive), if_pos hlive, if_pos ⟨rfl, rfl⟩]
  · rw [if_pos (hdead.2 hlive), if_neg hlive]

/-- A request for a part of an image, with a token for this image that anyone was issued. -/
def withToken (g : Gateway) (group image : String) (resource : Resource) (issued : Int64) :
    PullRequest :=
  ⟨group, image, resource, some ("Bearer " ++
    (g.signer.issue Claims.anonymous (Name.pullScope group image) issued).text)⟩

/-- A token opens its image for the common form of the header. -/
theorem permit_withToken {group image : String} {issued now : Int64}
    (hg : Name.checkGroup group = .ok ()) (hi : Name.checkImage image = .ok ())
    (hfits : g.signer.Fits issued) (hlive : now.toInt < issued.toInt + g.signer.ttl.toNat)
    (resource : Resource) : g.permit (g.withToken group image resource issued) now = .ok () := by
  have hblank : Text.AllBlank [] := fun _ h => absurd h List.not_mem_nil
  have hcarries (token : Token) : Carries ("Bearer " ++ token.text) token :=
    ⟨[], "Bearer".toList, [], [], by simp, hblank, by decide, hblank, hblank⟩
  rw [permit_of_carried (r := g.withToken group image resource issued) hg hi rfl rfl hfits rfl
    (hcarries _), if_pos hlive]

/-- While the token lives, the request is served, and the token plays no further part. -/
theorem run_withToken {group image : String} {issued : Int64} {w : World}
    (hg : Name.checkGroup group = .ok ()) (hi : Name.checkImage image = .ok ())
    (hfits : g.signer.Fits issued) (hlive : w.now.toInt < issued.toInt + g.signer.ttl.toNat)
    (resource : Resource) :
    (g.handle (g.withToken group image resource issued)).run w =
      (g.serve ⟨group, image, resource, none⟩).run w.ticked :=
  (isServed_of_permit (permit_withToken hg hi hfits hlive resource)).1

/-- A request without a token is turned down for lack of access. -/
theorem handle_of_no_token (hg : Name.checkGroup r.group = .ok ())
    (hi : Name.checkImage r.image = .ok ()) (hr : r.authorization = none) (w : World) :
    ∃ challenge, (g.handle r).run w =
      (.error (.unauthorized .unauthenticated challenge), w.ticked) := by
  have hpermit : g.permit r w.now =
      .error (g.refuse r.group (Name.pullScope r.group r.image) .unauthenticated) := by
    rw [permit_of_names hg hi, authenticate, hr]
    rfl
  exact ⟨_, (isTurnedDown_of_permit hpermit g.cache w rfl).1⟩

/-- A gateway that gives tokens to anyone keeps what its challenges say. Whoever is turned down for
lack of access is sent to the token endpoint of the group with a scope that it takes, whatever the
resource. The token that it gives, in any header that carries it, opens every resource of the image
at any time before it expires, and at any time from then on it is answered that it expired. -/
theorem handle_challenge_opens (g : Gateway) (hanyone : g.allowAnonymous = true) (r : PullRequest)
    (hg : Name.checkGroup r.group = .ok ()) (hi : Name.checkImage r.image = .ok ()) :
    (r.authorization = none → ∀ w, ∃ fault challenge,
      (g.handle r).run w = (.error (.unauthorized fault challenge), w.ticked)) ∧
    (∀ w fault challenge w', (g.handle r).run w = (.error (.unauthorized fault challenge), w') →
      challenge.Names (g.externalUrl ++ "/" ++ r.group ++ "/authorize")
        (Scope.request r.group r.image)) ∧
    ∀ w₁ : World, g.signer.Fits w₁.now → ∃ token,
      (g.authorize (some r.group) (some (Scope.request r.group r.image)) none).run w₁ =
          (.ok token, w₁.ticked) ∧
        token.claims.issuedAt = w₁.now ∧ ∀ resource header, Carries header token → ∀ w₂ : World,
          (w₂.now.toInt < w₁.now.toInt + g.signer.ttl.toNat →
            g.IsServed ⟨r.group, r.image, resource, some header⟩ w₂) ∧
          (w₁.now.toInt + g.signer.ttl.toNat ≤ w₂.now.toInt → ∃ challenge,
            g.IsTurnedDown ⟨r.group, r.image, resource, some header⟩ w₂.now
              (.unauthorized .expired challenge)) := by
  refine ⟨?_, ?_, ?_⟩
  · intro hr w
    exact ⟨_, handle_of_no_token hg hi hr w⟩
  · intro w fault challenge w' h
    obtain ⟨-, -, hrefuse⟩ := refuse_of_handle h
    exact names_of_refuse hrefuse
  · intro w₁ hfits
    refine ⟨_, authorize_of_anonymous hanyone hg hi w₁, rfl, ?_⟩
    intro resource header hc w₂
    have hpermit := fun now => permit_of_carried
      (r := ⟨r.group, r.image, resource, some header⟩) hg hi rfl rfl hfits rfl hc now
    constructor
    · intro hlive
      refine isServed_of_permit ?_
      rw [hpermit, if_pos hlive]
    · intro hdead
      have hexpired := hpermit w₂.now
      rw [if_neg (by omega)] at hexpired
      exact ⟨_, isTurnedDown_of_permit hexpired⟩

/-- The way from a challenge to an image with a slash in its name. The token opens the image in its
last second, and no more in the next. -/
theorem handle_challenge_opens_of_new :
    let g : Gateway :=
      ⟨⟨Bytes.ofText "secret", 300⟩, ⟨{ base := [""] }, ⟨"registry", "token", "service", 1, none⟩⟩,
        ⟨[]⟩, true, "proxy"⟩
    let world : Int → World := fun seconds =>
      { clock := fun _ => ⟨seconds, 0⟩, origin := fun _ _ => .failed }
    (∃ fault challenge,
      (g.handle ⟨"g", "library/i", .blob "d", none⟩).run (world 0) =
        (.error (.unauthorized fault challenge), (world 0).ticked) ∧
      challenge.Names "proxy/g/authorize" "repository:g/library/i:pull") ∧
    ∃ token, (g.authorize (some "g") (some "repository:g/library/i:pull") none).run (world 1000) =
        (.ok token, (world 1000).ticked) ∧
      let header := " bEARER  " ++ token.text ++ " "
      g.IsServed ⟨"g", "library/i", .blob "d", some header⟩ (world 1299) ∧
        ∃ challenge, g.IsTurnedDown ⟨"g", "library/i", .manifest "t", some header⟩ (world 1300).now
          (.unauthorized .expired challenge) := by
  intro g world
  have hg : Name.checkGroup "g" = .ok () := by decide +kernel
  have hi : Name.checkImage "library/i" = .ok () := by decide +kernel
  have hscope : Scope.request "g" "library/i" = "repository:g/library/i:pull" := by decide +kernel
  have hrealm : g.externalUrl ++ "/" ++ "g" ++ "/authorize" = "proxy/g/authorize" := by
    decide +kernel
  have hfits : g.signer.Fits (world 1000).now := by
    constructor <;> decide +kernel
  obtain ⟨hnone, hnames, hopens⟩ :=
    handle_challenge_opens g rfl ⟨"g", "library/i", .blob "d", none⟩ hg hi
  rw [hscope] at hopens
  rw [hscope, hrealm] at hnames
  obtain ⟨token, hauthorize, -, htoken⟩ := hopens (world 1000) hfits
  have hcarries : Carries (" bEARER  " ++ token.text ++ " ") token := by
    have hblank : Text.AllBlank [' '] := by
      intro c hc
      rw [List.mem_singleton.1 hc]
      decide
    exact ⟨[' '], "bEARER".toList, [' '], [' '], by simp, hblank, by decide, hblank, hblank⟩
  refine ⟨?_, token, hauthorize, ?_, ?_⟩
  · obtain ⟨fault, challenge, hrun⟩ := hnone rfl (world 0)
    exact ⟨fault, challenge, hrun, hnames _ _ _ _ hrun⟩
  · exact (htoken _ _ hcarries (world 1299)).1 (by decide +kernel)
  · exact (htoken _ _ hcarries (world 1300)).2 (by decide +kernel)

end Gateway

end PullThrough
