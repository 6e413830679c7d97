import PullThrough.Gateway.Basic
import PullThrough.Proofs.Job.Does
import PullThrough.Proofs.Name.Parts
import PullThrough.Proofs.Token.Signer
/-
  The one check that every request for an image passes.

  A request reads the clock once, and then `Gateway.permit` lets it pass or turns it down. It passes
  just if it is authorized (`Gateway.IsAuthorized`), and what is turned down has seen neither cache
  nor origin. An issued token opens the one image that it was issued for, because a group has no
  slash and so a scope says which group and which image it names (`Name.pullScope_inj`).
-/
namespace PullThrough

/-- The time that the next reading of the clock gives, in seconds. -/
def World.now (w : World) : Int64 := Int64.ofInt (w.clock w.readings).seconds

/-- The world after a reading of the clock. -/
def World.ticked (w : World) : World := { w with readings := w.readings + 1 }

/-- A token is good until it expires. Times before 1970 are no times of a token. -/
def Token.IsLive (t : Token) (now : Int64) : Prop := 0 ≤ t.claims.expires ∧ now < t.claims.expires

/-! ## Chains of checks -/

/-- A chain of checks is passed if each of them is. -/
theorem bind_eq_ok_iff {ε α β : Type} {x : Except ε α} {f : α → Except ε β} {b : β} :
    x >>= f = .ok b ↔ ∃ a, x = .ok a ∧ f a = .ok b := by
  cases x with
  | error e =>
    constructor
    · intro h
      cases h
    · rintro ⟨_, h, _⟩
      cases h
  | ok a =>
    constructor
    · intro h
      exact ⟨a, rfl, h⟩
    · rintro ⟨_, ha, h⟩
      cases ha
      exact h

/-- A chain of checks fails where the first of them fails. -/
theorem bind_eq_error_iff {ε α β : Type} {x : Except ε α} {f : α → Except ε β} {e : ε} :
    x >>= f = .error e ↔ x = .error e ∨ ∃ a, x = .ok a ∧ f a = .error e := by
  cases x with
  | error e' =>
    constructor
    · intro h
      cases h
      exact .inl rfl
    · rintro (h | ⟨_, h, _⟩)
      · cases h
        rfl
      · cases h
  | ok a =>
    constructor
    · exact fun h => .inr ⟨a, rfl, h⟩
    · rintro (h | ⟨_, ha, h⟩)
      · cases h
      · cases ha
        exact h

theorem mapError_eq_ok_iff {ε ε' α : Type} {x : Except ε α} {f : ε → ε'} {a : α} :
    x.mapError f = .ok a ↔ x = .ok a := by
  cases x <;> simp [Except.mapError]

theorem mapError_eq_error_iff {ε ε' α : Type} {x : Except ε α} {f : ε → ε'} {e : ε'} :
    x.mapError f = .error e ↔ ∃ fault, x = .error fault ∧ e = f fault := by
  cases x <;> simp [Except.mapError, eq_comm]

/-! ## Scopes -/

namespace Name

/-- A scope names one group and one image. -/
theorem pullScope_inj {group image group' image' : String} (hg : isGroup group = true)
    (hg' : isGroup group' = true) :
    pullScope group image = pullScope group' image' ↔ group = group' ∧ image = image' := by
  have hlist : ∀ g i : String, (pullScope g i).toList = g.toList ++ '/' :: i.toList := by
    intro g i
    simp [pullScope]
  constructor
  · intro h
    have hcut := Text.cutFirst?_append (b := image.toList) (slash_not_mem_of_isGroup hg)
    rw [← hlist, h, hlist, Text.cutFirst?_append (slash_not_mem_of_isGroup hg')] at hcut
    simp only [Option.some.injEq, Prod.mk.injEq, String.toList_inj] at hcut
    exact ⟨hcut.1.symm, hcut.2.symm⟩
  · rintro ⟨rfl, rfl⟩
    rfl

end Name

theorem Scope.parse_ok {scope group image : String} (h : Scope.parse scope = .ok (group, image)) :
    Name.checkGroup group = .ok () ∧ Name.checkImage image = .ok () := by
  unfold Scope.parse at h
  split at h
  · cases h
  · simp only [bind_eq_ok_iff, mapError_eq_ok_iff] at h
    obtain ⟨_, hg, _, hi, heq⟩ := h
    cases heq
    exact ⟨hg, hi⟩

namespace Gateway

variable {g : Gateway} {r : PullRequest} {now : Int64}

/-! ## Who may pass -/

/-- The names are valid, and a bearer token is presented that grants the scope of the image now. -/
structure IsAuthorized (g : Gateway) (r : PullRequest) (now : Int64) : Prop where
  group : Name.checkGroup r.group = .ok ()
  image : Name.checkImage r.image = .ok ()
  token : ∃ header token subject, r.authorization = some header ∧
    Presents header.toList "bearer" token.toList ∧
    g.signer.validate token (Name.pullScope r.group r.image) now = .ok subject

theorem bearerToken_eq_some_iff {authorization : Option String} {token : String} :
    bearerToken authorization = some token ↔
      ∃ header, authorization = some header ∧ Presents header.toList "bearer" token.toList := by
  have hiff : ∀ header : String, (credentialsOf header.toList "bearer").map String.ofList =
      some token ↔ Presents header.toList "bearer" token.toList := by
    intro header
    rw [← credentialsOf_eq_some_iff (by decide) (by decide), Option.map_eq_some_iff]
    constructor
    · rintro ⟨credential, hc, rfl⟩
      rw [hc, String.toList_ofList]
    · intro hc
      exact ⟨_, hc, String.ofList_toList⟩
  cases authorization with
  | none => simp [bearerToken]
  | some header => simpa [bearerToken] using hiff header

theorem permit_of_names (hg : Name.checkGroup r.group = .ok ())
    (hi : Name.checkImage r.image = .ok ()) :
    g.permit r now =
      match g.authenticate r.authorization (Name.pullScope r.group r.image) now with
      | .ok _ => .ok ()
      | .error fault => .error (g.refuse r.group (Name.pullScope r.group r.image) fault) := by
  unfold permit
  rw [hg, hi]
  cases h : g.authenticate r.authorization (Name.pullScope r.group r.image) now with
  | error fault => simp only [h]; rfl
  | ok subject => simp only [h]; rfl

theorem names_of_permit {u : Unit} (h : g.permit r now = .ok u) :
    Name.checkGroup r.group = .ok () ∧ Name.checkImage r.image = .ok () := by
  simp only [permit, bind_eq_ok_iff, mapError_eq_ok_iff] at h
  obtain ⟨_, hg, _, hi, _⟩ := h
  exact ⟨hg, hi⟩

theorem authenticate_eq_ok_iff {authorization : Option String} {scope subject : String} :
    g.authenticate authorization scope now = .ok subject ↔
      ∃ header token, authorization = some header ∧ Presents header.toList "bearer" token.toList ∧
        g.signer.validate token scope now = .ok subject := by
  unfold authenticate
  constructor
  · intro h
    cases hb : bearerToken authorization with
    | none => rw [hb] at h; cases h
    | some token =>
      rw [hb] at h
      obtain ⟨header, hh, hp⟩ := bearerToken_eq_some_iff.1 hb
      exact ⟨header, token, hh, hp, h⟩
  · rintro ⟨header, token, hh, hp, hv⟩
    rw [bearerToken_eq_some_iff.2 ⟨header, hh, hp⟩]
    exact hv

/-- A request passes just if it is authorized. -/
theorem permit_eq_ok_iff : g.permit r now = .ok () ↔ g.IsAuthorized r now := by
  constructor
  · intro h
    obtain ⟨hg, hi⟩ := names_of_permit h
    rw [permit_of_names hg hi] at h
    cases ha : g.authenticate r.authorization (Name.pullScope r.group r.image) now with
    | error fault => rw [ha] at h; cases h
    | ok subject =>
      obtain ⟨header, token, hh, hp, hv⟩ := authenticate_eq_ok_iff.1 ha
      exact ⟨hg, hi, header, token, subject, hh, hp, hv⟩
  · rintro ⟨hg, hi, header, token, subject, hh, hp, hv⟩
    rw [permit_of_names hg hi, authenticate_eq_ok_iff.2 ⟨header, token, hh, hp, hv⟩]

/-- What the token that a request presents is worth, decides about the request. -/
theorem permit_of_presented (hg : Name.checkGroup r.group = .ok ())
    (hi : Name.checkImage r.image = .ok ()) {header token : String}
    (hh : r.authorization = some header) (hp : Presents header.toList "bearer" token.toList) :
    g.permit r now =
      match g.signer.validate token (Name.pullScope r.group r.image) now with
      | .ok _ => .ok ()
      | .error fault => .error (g.refuse r.group (Name.pullScope r.group r.image) fault) := by
  rw [permit_of_names hg hi, authenticate, bearerToken_eq_some_iff.2 ⟨header, hh, hp⟩]

/-! ## What a request does -/

/-- What a request comes to behind the check. -/
def serve (g : Gateway) (r : PullRequest) : Job (Except Rejection PullResponse) :=
  match r.resource with
  | .manifest tag => g.serveManifest r.group r.image tag
  | .blob digest => g.serveBlob r.group r.image digest

/-- A request reads the clock once, and is then turned down or served. -/
theorem handle_eq (g : Gateway) (r : PullRequest) :
    g.handle r = .step .clock fun x =>
      match g.permit r (Int64.ofInt (Instant.seconds x)) with
      | .error rejection => .done (.error rejection)
      | .ok _ => g.serve r := rfl

/-- A request is served once the clock has been read. -/
def IsServed (g : Gateway) (r : PullRequest) (w : World) : Prop :=
  (g.handle r).run w = (g.serve r).run w.ticked ∧
    (g.handle r).steps w = .clock :: (g.serve r).steps w.ticked

/-- A request is turned down once the clock has been read, with one answer for all caches, all
origins and all disks. -/
def IsTurnedDown (g : Gateway) (r : PullRequest) (now : Int64) (rejection : Rejection) : Prop :=
  ∀ (c : Cache) (w : World), w.now = now →
    ({ g with cache := c }.handle r).run w = (.error rejection, w.ticked) ∧
      ({ g with cache := c }.handle r).steps w = [.clock]

theorem isServed_of_permit {w : World} (h : g.permit r w.now = .ok ()) : g.IsServed r w := by
  rw [World.now] at h
  unfold IsServed
  rw [handle_eq, Job.run_step, Job.steps]
  dsimp only [World.perform]
  rw [h]
  exact ⟨rfl, rfl⟩

theorem isTurnedDown_of_permit {rejection : Rejection} (h : g.permit r now = .error rejection) :
    g.IsTurnedDown r now rejection := by
  rintro c w rfl
  have hc : ({ g with cache := c } : Gateway).permit r w.now = .error rejection := h
  rw [World.now] at hc
  rw [handle_eq, Job.run_step, Job.steps]
  dsimp only [World.perform]
  rw [hc]
  exact ⟨rfl, rfl⟩

/-! ## Issued tokens -/

theorem names_of_wanted {pathGroup scope : Option String} {group image : String}
    (h : wantedOf pathGroup scope = .ok (group, image)) :
    Name.checkGroup group = .ok () ∧ Name.checkImage image = .ok () := by
  unfold wantedOf at h
  cases scope with
  | none => cases h
  | some scope =>
    simp only [bind_eq_ok_iff, Prod.exists] at h
    obtain ⟨group', image', hparse, h⟩ := h
    have hnames := Scope.parse_ok hparse
    suffices heq : group' = group ∧ image' = image by rwa [heq.1, heq.2] at hnames
    cases pathGroup with
    | none =>
      cases h
      exact ⟨rfl, rfl⟩
    | some pathGroup =>
      dsimp only at h
      split at h
      · cases h
        exact ⟨rfl, rfl⟩
      · cases h

theorem token_of_authorize {pathGroup scope authorization : Option String} {token : Token}
    {w w' : World} (h : (g.authorize pathGroup scope authorization).run w = (.ok token, w')) :
    ∃ group image subject, wantedOf pathGroup scope = .ok (group, image) ∧
      token = g.signer.issue subject (Name.pullScope group image) w.now := by
  have hat : g.authorizeAt pathGroup scope authorization w.now = .ok token := (Prod.mk.inj h).1
  simp only [authorizeAt, bind_eq_ok_iff, Prod.exists] at hat
  obtain ⟨group, image, hwanted, subject, -, htoken⟩ := hat
  cases htoken
  exact ⟨group, image, subject, hwanted, rfl⟩

/-- What the check says to a request that presents an issued token. -/
theorem permit_of_issued (hg : Name.checkGroup r.group = .ok ())
    (hi : Name.checkImage r.image = .ok ()) {group image header : String} {token : Token}
    (hgroup : Name.checkGroup group = .ok ())
    (ht : ∃ subject issued, token = g.signer.issue subject (Name.pullScope group image) issued)
    (hh : r.authorization = some header)
    (hp : Presents header.toList "bearer" token.text.toList) :
    g.permit r now =
      if token.claims.expires < 0 then
        .error (g.refuse r.group (Name.pullScope r.group r.image) .malformed)
      else if token.claims.expires ≤ now then
        .error (g.refuse r.group (Name.pullScope r.group r.image) .expired)
      else if group = r.group ∧ image = r.image then .ok ()
      else .error (g.refuse r.group (Name.pullScope r.group r.image)
        (.scopeMismatch (Name.pullScope r.group r.image) (Name.pullScope group image))) := by
  obtain ⟨subject, issued, rfl⟩ := ht
  have hscope : Name.pullScope group image = Name.pullScope r.group r.image ↔
      group = r.group ∧ image = r.image :=
    Name.pullScope_inj (Name.isGroup_of_check hgroup) (Name.isGroup_of_check hg)
  have hexpires : (g.signer.issue subject (Name.pullScope group image) issued).claims.expires =
      issued + g.signer.ttl.toInt64 := rfl
  rw [permit_of_presented hg hi hh hp, Signer.validate_issue, hexpires]
  by_cases hneg : issued + g.signer.ttl.toInt64 < 0
  · rw [if_pos hneg, if_pos hneg]
  rw [if_neg hneg, if_neg hneg]
  by_cases hdead : issued + g.signer.ttl.toInt64 ≤ now
  · rw [if_pos hdead, if_pos hdead]
  rw [if_neg hdead, if_neg hdead]
  by_cases hsame : Name.pullScope group image = Name.pullScope r.group r.image
  · rw [if_pos hsame, if_pos (hscope.1 hsame)]
  · rw [if_neg hsame, if_neg fun h => hsame (hscope.2 h)]

/-- The check is all that stands before cache and origin, and it lets pass just what is
authorized. A live token that was issued for an image authorizes requests for that image, and is
of no use for any other. -/
theorem handle_checkpoint (g : Gateway) (r : PullRequest) (w : World) :
    (g.permit r w.now = .ok () ↔ g.IsAuthorized r w.now) ∧
    (g.IsAuthorized r w.now → g.IsServed r w) ∧
    (¬ g.IsAuthorized r w.now → ∃ rejection, g.IsTurnedDown r w.now rejection) ∧
    ∀ pathGroup scope authorization token w₁ w₂,
      (g.authorize pathGroup scope authorization).run w₁ = (.ok token, w₂) →
      ∃ group image, wantedOf pathGroup scope = .ok (group, image) ∧
        Name.checkGroup group = .ok () ∧ Name.checkImage image = .ok () ∧
        ∀ header, r.authorization = some header →
          Presents header.toList "bearer" token.text.toList →
          Name.checkGroup r.group = .ok () → Name.checkImage r.image = .ok () →
          (token.IsLive w.now →
            (g.IsAuthorized r w.now ↔ group = r.group ∧ image = r.image) ∧
            (¬ (group = r.group ∧ image = r.image) →
              g.IsTurnedDown r w.now (g.refuse r.group (Name.pullScope r.group r.image)
                (.scopeMismatch (Name.pullScope r.group r.image) (Name.pullScope group image))))) ∧
          (¬ token.IsLive w.now →
            g.IsTurnedDown r w.now (g.refuse r.group (Name.pullScope r.group r.image)
              (if token.claims.expires < 0 then .malformed else .expired))) := by
  refine ⟨permit_eq_ok_iff, fun h => isServed_of_permit (permit_eq_ok_iff.2 h), fun h => ?_, ?_⟩
  · cases hp : g.permit r w.now with
    | ok _ => exact absurd (permit_eq_ok_iff.1 hp) h
    | error rejection => exact ⟨rejection, isTurnedDown_of_permit hp⟩
  · intro pathGroup scope authorization token w₁ w₂ h
    obtain ⟨group, image, subject, hwanted, htoken⟩ := token_of_authorize h
    obtain ⟨hgroup, himage⟩ := names_of_wanted hwanted
    refine ⟨group, image, hwanted, hgroup, himage, fun header hh hp hg hi => ?_⟩
    have hpermit : g.permit r w.now = _ :=
      permit_of_issued hg hi hgroup ⟨subject, w₁.now, htoken⟩ hh hp
    constructor
    · rintro ⟨hpos, hlive⟩
      rw [if_neg (Int64.not_lt.2 hpos), if_neg (Int64.not_le.2 hlive)] at hpermit
      constructor
      · rw [← permit_eq_ok_iff, hpermit]
        split
        · next hsame => simp [hsame]
        · next hother => simp [hother]
      · intro hother
        rw [if_neg hother] at hpermit
        exact isTurnedDown_of_permit hpermit
    · intro hdead
      refine isTurnedDown_of_permit (hpermit.trans ?_)
      split
      · rfl
      · next hpos =>
        rw [if_pos]
        exact Int64.not_lt.1 fun hlive => hdead ⟨Int64.not_lt.1 hpos, hlive⟩

/-- A token for one image, presented for that image and for another. -/
theorem handle_checkpoint_of_issued :
    let g : Gateway :=
      ⟨⟨Bytes.ofText "secret", 300⟩, ⟨{ base := [""] }, ⟨"registry", "token", "service", 1, none⟩⟩,
        ⟨[]⟩, true, "proxy"⟩
    let w : World := { clock := fun _ => ⟨0, 0⟩, origin := fun _ _ => .failed }
    let token := g.signer.issue Claims.anonymous "g/i" 0
    let header := "Bearer " ++ token.text
    (g.authorize none (some "repository:g/i:pull") none).run w = (.ok token, w.ticked) ∧
      Presents header.toList "bearer" token.text.toList ∧ token.IsLive w.now ∧
      g.IsServed ⟨"g", "i", .manifest "t", some header⟩ w ∧
      g.IsTurnedDown ⟨"g", "j", .manifest "t", some header⟩ w.now
        (g.refuse "g" "g/j" (.scopeMismatch "g/j" "g/i")) := by
  intro g w token header
  have hwanted : wantedOf none (some "repository:g/i:pull") = .ok ("g", "i") := by decide +kernel
  have hauth : (g.authorize none (some "repository:g/i:pull") none).run w =
      (.ok token, w.ticked) := by
    have hat : g.authorizeAt none (some "repository:g/i:pull") none 0 = .ok token := by
      rw [authorizeAt, hwanted]
      rfl
    exact Prod.ext hat rfl
  have hp : Presents header.toList "bearer" token.text.toList := g.signer.presents_issue _ _ _
  have hlive : token.IsLive w.now := by
    constructor <;> decide +kernel
  refine ⟨hauth, hp, hlive, ?_, ?_⟩
  · obtain ⟨-, hserved, -, hissued⟩ := handle_checkpoint g ⟨"g", "i", .manifest "t", some header⟩ w
    obtain ⟨group, image, hw, -, -, h⟩ := hissued _ _ _ _ _ _ hauth
    obtain ⟨rfl, rfl⟩ : "g" = group ∧ "i" = image := by simpa [hwanted] using hw
    exact hserved
      (((h header rfl hp (by decide +kernel) (by decide +kernel)).1 hlive).1.2 ⟨rfl, rfl⟩)
  · obtain ⟨-, -, -, hissued⟩ := handle_checkpoint g ⟨"g", "j", .manifest "t", some header⟩ w
    obtain ⟨group, image, hw, -, -, h⟩ := hissued _ _ _ _ _ _ hauth
    obtain ⟨rfl, rfl⟩ : "g" = group ∧ "i" = image := by simpa [hwanted] using hw
    exact ((h header rfl hp (by decide +kernel) (by decide +kernel)).1 hlive).2 (by decide)

end Gateway

end PullThrough
