import PullThrough.Http.Server
import PullThrough.Proofs.Gateway.Access
import PullThrough.Proofs.Json.Scalars
import PullThrough.Proofs.Name.Parts
/-
  Paths and places.

  Every place has a pattern of path segments, and some paths fit more than one of them. The place of
  a path is the one whose pattern fits and is preferred at the first difference: a segment as it
  stands to any segment, and any segment to all that is left (`Route.ofPath?_eq_some_iff`). The main
  result is what follows for the token endpoints that challenges name. Every group has its own, and
  what is answered there is the answer of the gateway to that group, except for the group that is
  named like the registry's root: the path of its endpoint lies below that root, and the registry
  turns it down (`Gateway.respond_tokenEndpoint`).
-/
namespace PullThrough

/-! ## Patterns -/

namespace Route

/-- A part of a pattern: a segment as it stands, any segment, or all that is left. -/
inductive Part where
  | exact (segment : List Char)
  | any
  | all
  deriving DecidableEq, Repr

/-- A path fits a pattern with some segments left open. -/
inductive Fits : List Part → List Char → List (List Char) → Prop
  | nil : Fits [] [] []
  | exact {segment path : List Char} {parts : List Part} {free : List (List Char)}
      (h : Fits parts path free) : Fits (.exact segment :: parts) ('/' :: (segment ++ path)) free
  | any {segment path : List Char} {parts : List Part} {free : List (List Char)}
      (hslash : '/' ∉ segment) (h : Fits parts path free) :
      Fits (.any :: parts) ('/' :: (segment ++ path)) (segment :: free)
  | all {path : List Char} (hne : path ≠ []) : Fits [.all] ('/' :: path) []

/-- The rank of a part among those that may stand in its place. -/
def Part.rank : Part → Nat
  | .exact _ => 0
  | .any => 1
  | .all => 2

/-- A pattern is preferred to another one by the first part in which they differ. -/
inductive Prefers : List Part → List Part → Prop
  | head {p q : Part} {ps qs : List Part} (h : p.rank < q.rank) : Prefers (p :: ps) (q :: qs)
  | tail {p : Part} {ps qs : List Part} (h : Prefers ps qs) : Prefers (p :: ps) (p :: qs)

/-- A pattern of segments that stand as they are. -/
def fixed (segments : List String) : List Part := segments.map fun s => .exact s.toList

/-- The pattern of a place. -/
def pattern : Route → List Part
  | version => fixed ["v2", ""]
  | registry => fixed ["v2"] ++ [.all]
  | token none => fixed ["authorize"]
  | token (some _) => .any :: fixed ["authorize"]
  | stats => fixed ["api", "v1", "cache", "stats"]
  | health => fixed ["health"]

/-- The segments that the pattern of a place leaves open. -/
def free : Route → List (List Char)
  | token (some group) => [group]
  | _ => []

/-- The pattern of a place fits a path. -/
def Takes (r : Route) (path : List Char) : Prop := Fits r.pattern path r.free

variable {path : List Char} {parts : List Part} {free' : List (List Char)}

theorem fits_fixed_append {segments : List String} :
    Fits (fixed segments ++ parts) path free' ↔
      ∃ rest, path = segments.flatMap (fun s => '/' :: s.toList) ++ rest ∧
        Fits parts rest free' := by
  induction segments generalizing path with
  | nil => simp [fixed]
  | cons s segments ih =>
    constructor
    · intro h
      cases h with
      | exact h =>
        obtain ⟨rest, rfl, hrest⟩ := ih.1 h
        exact ⟨rest, by simp, hrest⟩
    · rintro ⟨rest, rfl, h⟩
      have hfits : Fits (.exact s.toList :: (fixed segments ++ parts)) _ free' :=
        .exact (ih.2 ⟨rest, rfl, h⟩)
      simpa [fixed] using hfits

theorem fits_fixed {segments : List String} :
    Fits (fixed segments) path free' ↔
      path = segments.flatMap (fun s => '/' :: s.toList) ∧ free' = [] := by
  have hnil : ∀ rest, Fits [] rest free' ↔ rest = [] ∧ free' = [] := by
    intro rest
    constructor
    · intro h
      cases h
      exact ⟨rfl, rfl⟩
    · rintro ⟨rfl, rfl⟩
      exact .nil
  rw [← List.append_nil (fixed segments), fits_fixed_append]
  simp only [hnil]
  constructor
  · rintro ⟨rest, rfl, rfl, hfree⟩
    exact ⟨List.append_nil _, hfree⟩
  · rintro ⟨rfl, hfree⟩
    exact ⟨[], (List.append_nil _).symm, rfl, hfree⟩

theorem takes_version : version.Takes path ↔ path = registryRoot := by
  unfold Takes
  rw [show version.pattern = fixed ["v2", ""] from rfl, fits_fixed]
  exact and_iff_left rfl

theorem takes_registry : registry.Takes path ↔ ∃ rest, rest ≠ [] ∧ path = registryRoot ++ rest := by
  unfold Takes
  rw [show registry.pattern = fixed ["v2"] ++ [.all] from rfl, fits_fixed_append]
  constructor
  · rintro ⟨rest, rfl, h⟩
    cases h with
    | all hne => exact ⟨_, hne, rfl⟩
  · rintro ⟨rest, hne, rfl⟩
    exact ⟨'/' :: rest, rfl, .all hne⟩

theorem takes_token : (token none).Takes path ↔ path = tokenPath := by
  unfold Takes
  rw [show (token none).pattern = fixed ["authorize"] from rfl, fits_fixed]
  exact and_iff_left rfl

theorem takes_token_some {group : List Char} :
    (token (some group)).Takes path ↔ '/' ∉ group ∧ path = '/' :: (group ++ tokenPath) := by
  unfold Takes
  rw [show (token (some group)).pattern = .any :: fixed ["authorize"] from rfl]
  constructor
  · intro h
    cases h with
    | any hslash h =>
      rw [(fits_fixed.1 h).1]
      exact ⟨hslash, rfl⟩
  · rintro ⟨hslash, rfl⟩
    exact .any hslash (fits_fixed.2 ⟨rfl, rfl⟩)

theorem takes_stats : stats.Takes path ↔ path = "/api/v1/cache/stats".toList := by
  unfold Takes
  rw [show stats.pattern = fixed ["api", "v1", "cache", "stats"] from rfl, fits_fixed]
  exact and_iff_left rfl

theorem takes_health : health.Takes path ↔ path = "/health".toList := by
  unfold Takes
  rw [show health.pattern = fixed ["health"] from rfl, fits_fixed]
  exact and_iff_left rfl

/-! ## The place of a path -/

theorem groupOf?_eq_some_iff {group : List Char} :
    groupOf? path = some group ↔ '/' ∉ group ∧ path = '/' :: (group ++ tokenPath) := by
  constructor
  · intro h
    unfold groupOf? at h
    split at h
    · next s =>
      cases hs : Text.cutFirst? '/' s with
      | none => simp [hs] at h
      | some cut =>
        obtain ⟨before, rest⟩ := cut
        obtain ⟨rfl, hslash⟩ := Text.cutFirst?_eq_some hs
        simp only [hs, Option.ite_none_right_eq_some, Option.some.injEq] at h
        obtain ⟨hrest, rfl⟩ := h
        exact ⟨hslash, by rw [hrest]⟩
    · cases h
  · rintro ⟨hslash, rfl⟩
    have hcut : Text.cutFirst? '/' (group ++ tokenPath) = some (group, "authorize".toList) :=
      Text.cutFirst?_append hslash
    simp only [groupOf?, hcut]
    exact if_pos rfl

/-- What a path leads to has a pattern that fits. -/
theorem takes_of_ofPath? {r : Route} (h : ofPath? path = some r) : r.Takes path := by
  unfold ofPath? at h
  cases hroot : registryRoot.isPrefixOf? path with
  | some rest =>
    rw [hroot] at h
    have hpath := Text.eq_append_of_isPrefixOf? hroot
    cases rest with
    | nil =>
      cases h
      exact takes_version.2 (by rw [hpath, List.append_nil])
    | cons c rest =>
      cases h
      exact takes_registry.2 ⟨_, List.cons_ne_nil _ _, hpath⟩
  | none =>
    rw [hroot] at h
    dsimp only at h
    split_ifs at h with htoken hstats hhealth
    · cases h
      exact takes_token.2 htoken
    · cases h
      exact takes_stats.2 hstats
    · cases h
      exact takes_health.2 hhealth
    · obtain ⟨group, hgroup, rfl⟩ := Option.map_eq_some_iff.1 h
      exact takes_token_some.2 (groupOf?_eq_some_iff.1 hgroup)

/-- The name of the registry's root. -/
def rootName : List Char := "v2".toList

/-- A path leads to the place whose pattern fits, except that one path below the registry's root
also has the form of a token endpoint. -/
theorem ofPath?_of_takes {r : Route} (h : r.Takes path) :
    ofPath? path = some r ∨
      r = token (some rootName) ∧ ofPath? path = some registry := by
  cases r with
  | version =>
    rw [takes_version.1 h]
    exact .inl rfl
  | registry =>
    obtain ⟨rest, hne, rfl⟩ := takes_registry.1 h
    refine .inl ?_
    unfold ofPath?
    rw [Text.isPrefixOf?_append]
    cases rest with
    | nil => exact absurd rfl hne
    | cons c rest => rfl
  | stats =>
    rw [takes_stats.1 h]
    exact .inl rfl
  | health =>
    rw [takes_health.1 h]
    exact .inl rfl
  | token group =>
    cases group with
    | none =>
      rw [takes_token.1 h]
      exact .inl rfl
    | some group =>
      obtain ⟨hslash, hpath⟩ := takes_token_some.1 h
      by_cases hname : group = rootName
      · subst hname
        subst hpath
        exact .inr ⟨rfl, rfl⟩
      · have hgroup := groupOf?_eq_some_iff.2 ⟨hslash, hpath⟩
        have hroot : registryRoot.isPrefixOf? path = none := by
          refine Option.eq_none_iff_forall_ne_some.2 fun rest hrest => hname ?_
          have hroot : '/' :: (group ++ tokenPath) = '/' :: (rootName ++ '/' :: rest) :=
            hpath.symm.trans (Text.eq_append_of_isPrefixOf? hrest)
          have hcut := congrArg (Text.cutFirst? '/') (List.cons.inj hroot).2
          rw [show tokenPath = '/' :: "authorize".toList from rfl, Text.cutFirst?_append hslash,
            Text.cutFirst?_append (by decide)] at hcut
          exact (Prod.mk.inj (Option.some.inj hcut)).1
        -- The other places have paths of their own, which are no group's.
        have hother : ∀ other : List Char, groupOf? other = none → path ≠ other := by
          rintro other hnone rfl
          rw [hgroup] at hnone
          cases hnone
        refine .inl ?_
        unfold ofPath?
        rw [hroot]
        dsimp only
        rw [if_neg (hother _ rfl), if_neg (hother _ rfl), if_neg (hother _ rfl), hgroup]
        rfl

/-- The place of a path is the one whose pattern fits and is preferred to every other one that
fits. -/
theorem ofPath?_eq_some_iff {r : Route} :
    ofPath? path = some r ↔
      r.Takes path ∧ ∀ other : Route, other.Takes path →
        other = r ∨ Prefers r.pattern other.pattern := by
  constructor
  · intro h
    refine ⟨takes_of_ofPath? h, fun other hother => ?_⟩
    rcases ofPath?_of_takes hother with heq | ⟨rfl, heq⟩
    · exact .inl (Option.some.inj (heq.symm.trans h))
    · obtain rfl := Option.some.inj (h.symm.trans heq)
      exact .inr (.head Nat.zero_lt_one)
  · rintro ⟨htakes, hbest⟩
    rcases ofPath?_of_takes htakes with heq | ⟨rfl, heq⟩
    · exact heq
    · rcases hbest registry (takes_of_ofPath? heq) with hsame | hless
      · cases hsame
      · cases hless with
        | head h => exact absurd h (Nat.not_lt_zero _)

end Route

/-! ## Escapes -/

namespace Form

theorem unescapeOnto_plain {s : Bytes} (h : 0x25 ∉ s) (out : Bytes) :
    unescapeOnto out s = s.reverse ++ out := by
  induction s generalizing out with
  | nil => simp [unescapeOnto]
  | cons x s ih =>
    obtain ⟨hx, hs⟩ := not_or.1 (mt List.mem_cons.2 h)
    have hstep : unescapeOnto out (x :: s) = unescapeOnto (x :: out) s := by
      rw [unescapeOnto]
      rintro a b rest rfl
      exact absurd rfl hx
    rw [hstep, ih hs]
    simp

/-- Octets without a percent sign have no escapes to undo. -/
theorem unescape_plain {s : Bytes} (h : 0x25 ∉ s) : unescape s = s := by
  rw [unescape, unescapeOnto_plain h, List.append_nil, List.reverse_reverse]

end Form

namespace Name

theorem ascii_of_isGroup {s : String} (h : isGroup s = true) : ∀ c ∈ s.toList, c.toNat < 0x80 := by
  intro c hc
  simp only [isGroup, Bool.and_eq_true] at h
  have hchar := List.all_eq_true.1 h.2 c hc
  simp only [isAsciiAlnum, isAsciiDigit, isAsciiLower, isNameMark, Bool.or_eq_true,
    Bool.and_eq_true, decide_eq_true_eq, beq_iff_eq, Char.le_def, UInt32.le_iff_toNat_le] at hchar
  rcases hchar with ((⟨-, h9⟩ | ⟨-, hz⟩) | ⟨-, hZ⟩) | ((rfl | rfl) | rfl)
  · exact Nat.lt_of_le_of_lt h9 (by decide)
  · exact Nat.lt_of_le_of_lt hz (by decide)
  · exact Nat.lt_of_le_of_lt hZ (by decide)
  all_goals decide

theorem percent_not_mem_of_isGroup {s : String} (h : isGroup s = true) : '%' ∉ s.toList := by
  simp only [isGroup, Bool.and_eq_true] at h
  exact not_mem_of_all h.2 (by decide)

end Name

namespace Gateway

/-- A checked group stands in a path as it is. -/
theorem groupName_of_isGroup {group : String} (h : Name.isGroup group = true) :
    groupName group.toList = .ok group := by
  have hascii := Name.ascii_of_isGroup h
  have hplain : 0x25 ∉ Bytes.ofText group := by
    rw [← String.ofList_toList (s := group), Bytes.ofText_ascii hascii]
    intro hmem
    obtain ⟨c, hc, hcode⟩ := List.mem_map.1 hmem
    have hpercent : c = '%' := by
      refine Char.toNat_inj.1 ?_
      rw [← Bytes.toNat_toUInt8 (hascii c hc), hcode]
      rfl
    exact Name.percent_not_mem_of_isGroup h (hpercent ▸ hc)
  unfold groupName
  rw [String.ofList_toList, Form.unescape_plain hplain, Bytes.text?_ofText]

end Gateway

/-! ## Targets and parameters -/

/-- The path of a target is what stands before the query. -/
theorem Target.path_of_parse? {path tail : List Char} {t : Target} (hslash : path.head? = some '/')
    (hpath : ∀ c ∈ path, (c != '?' && c != '#') = true) (htail : tail = [] ∨ tail.head? = some '?')
    (h : parse? (String.ofList (path ++ tail)) = some t) : t.path = path := by
  obtain ⟨rest, rfl⟩ := List.head?_eq_some_iff.1 hslash
  have htake : (('/' :: rest) ++ tail).takeWhile (fun c => c != '?' && c != '#') = '/' :: rest := by
    rw [List.takeWhile_append_of_pos hpath]
    rcases htail with rfl | hmark
    · exact List.append_nil _
    · obtain ⟨query, rfl⟩ := List.head?_eq_some_iff.1 hmark
      exact List.append_nil _
  have hof : ofPathAndQuery? (('/' :: rest) ++ tail) = some t := by
    unfold parse? at h
    split at h
    · cases h
    · rwa [String.toList_ofList] at h
  unfold ofPathAndQuery? at hof
  rw [htake] at hof
  dsimp only at hof
  split at hof <;> split at hof <;> cases hof <;> rfl

/-- The values of a parameter in the query of a request. -/
def HttpRequest.values (r : HttpRequest) (name : String) : List String :=
  ((Form.pairs (Bytes.ofText (String.ofList (r.target.query.getD [])))).filter
    (·.1 == name)).map (·.2)

namespace Gateway

theorem parameter?_of_values {r : HttpRequest} {name : String} {value : Option String}
    (h : r.values name = value.toList) : parameter? r.target.query name = .ok value := by
  unfold HttpRequest.values at h
  unfold parameter?
  dsimp only
  cases value with
  | none =>
    rw [List.map_eq_nil_iff.1 h]
  | some value =>
    obtain ⟨pair, hpair, rfl⟩ := List.map_eq_singleton_iff.1 h
    rw [hpair]

/-! ## Token endpoints -/

/-- How a token or a rejection is told. -/
def tokenResponse : Except Rejection Token → HttpResponse
  | .ok token => .json .ok token.document
  | .error rejection => rejection.response

theorem tokenPage_run (g : Gateway) {group : String} (hg : Name.isGroup group = true)
    {r : HttpRequest} {scope : Option String} (hscope : r.values "scope" = scope.toList)
    (w : World) : (g.tokenPage (some group.toList) r).run w =
      (tokenResponse ((g.authorize (some group) scope r.authorization).run w).1,
        ((g.authorize (some group) scope r.authorization).run w).2) := by
  have hparameters : tokenParameters (some group.toList) r.target.query =
      .ok (some group, scope) := by
    unfold tokenParameters
    rw [parameter?_of_values hscope]
    show (Except.map some (groupName group.toList) >>= _) = _
    rw [groupName_of_isGroup hg]
    rfl
  unfold tokenPage
  rw [hparameters]
  dsimp only
  rw [Job.run_bind]
  generalize (g.authorize (some group) scope r.authorization).run w = answer
  obtain ⟨rejection | token, w'⟩ := answer
  · rfl
  · rfl

/-- The path of the token endpoint that challenges name for a group. -/
def tokenEndpoint (group : String) : String := "/" ++ group ++ "/authorize"

theorem toList_tokenEndpoint (group : String) :
    (tokenEndpoint group).toList = '/' :: (group.toList ++ Route.tokenPath) := by
  rw [tokenEndpoint, String.toList_append, String.toList_append, List.append_assoc]
  rfl

/-- Method and path of a request to the token endpoint of a group. -/
theorem request_of_make? {group tail : String} (hg : Name.isGroup group = true)
    (htail : tail = "" ∨ tail.toList.head? = some '?') {headers : List (String × Bytes)}
    {r : HttpRequest} (hr : HttpRequest.make? "GET" (tokenEndpoint group ++ tail)
      headers = some r) :
    r.method = "GET" ∧ r.target.path = '/' :: (group.toList ++ Route.tokenPath) := by
  unfold HttpRequest.make? at hr
  obtain ⟨target, htarget, hr⟩ := Option.bind_eq_some_iff.1 hr
  obtain ⟨-, hr⟩ := Option.ite_none_right_eq_some.1 hr
  obtain rfl := Option.some.inj hr
  have hend : (Route.tokenPath.all fun c => c != '?' && c != '#') = true := by decide
  have hchars : ∀ c ∈ '/' :: (group.toList ++ Route.tokenPath), (c != '?' && c != '#') = true := by
    intro c hc
    rcases List.mem_cons.1 hc with rfl | hc
    · decide
    rcases List.mem_append.1 hc with hc | hc
    · simp only [Name.isGroup, Bool.and_eq_true] at hg
      rw [Bool.and_eq_true, bne_iff_ne, bne_iff_ne]
      constructor
      · rintro rfl
        exact Name.not_mem_of_all hg.2 (by decide) hc
      · rintro rfl
        exact Name.not_mem_of_all hg.2 (by decide) hc
    · exact List.all_eq_true.1 hend c hc
  have hbehind : tail.toList = [] ∨ tail.toList.head? = some '?' := by
    rcases htail with rfl | h
    · exact .inl rfl
    · exact .inr h
  rw [← String.ofList_toList (s := tokenEndpoint group ++ tail), String.toList_append,
    toList_tokenEndpoint] at htarget
  exact ⟨rfl, Target.path_of_parse? rfl hchars hbehind htarget⟩

/-- What is answered at the token endpoint to which the challenges for a group send clients,
whatever the authorization. It is the answer of the gateway to the group, told as a token or
as a rejection, for every group but the one that is named like the registry's root. The path
of its endpoint lies below that root: the registry says that it names no image, and no one
can have a token there. -/
theorem respond_tokenEndpoint (g : Gateway) {group : String} (hg : Name.checkGroup group = .ok ())
    {tail : String} (htail : tail = "" ∨ tail.toList.head? = some '?')
    {headers : List (String × Bytes)}
    {r : HttpRequest} (hr : HttpRequest.make? "GET" (tokenEndpoint group ++ tail) headers = some r)
    {scope : Option String} (hscope : r.values "scope" = scope.toList) (w : World) :
    (∀ asked, g.challenge (some group) asked =
      .bearer (g.externalUrl ++ String.ofList r.target.path) serviceName asked none) ∧
    (group ≠ "v2" →
      Route.ofPath? r.target.path = some (.token (some group.toList)) ∧
      (g.respond r).run w =
        ((tokenResponse ((g.authorize (some group) scope r.authorization).run w).1).withLength,
          ((g.authorize (some group) scope r.authorization).run w).2)) ∧
    (group = "v2" →
      Route.ofPath? r.target.path = some .registry ∧
      (g.respond r).run w =
        ((Rejection.badRequest "NAME_INVALID"
          "invalid registry path: /v2/authorize").response.withLength, w)) := by
  have hgroup := Name.isGroup_of_check hg
  obtain ⟨hmethod, hpath⟩ := request_of_make? hgroup htail hr
  have htakes : (Route.token (some group.toList)).Takes r.target.path :=
    Route.takes_token_some.2 ⟨Name.slash_not_mem_of_isGroup hgroup, hpath⟩
  refine ⟨?_, ?_, ?_⟩
  · intro asked
    have hrealm : g.externalUrl ++ "/" ++ group ++ "/authorize" =
        g.externalUrl ++ String.ofList r.target.path := by
      rw [hpath, ← toList_tokenEndpoint, String.ofList_toList, tokenEndpoint]
      simp only [String.append_assoc]
    show Challenge.bearer (g.externalUrl ++ "/" ++ group ++ "/authorize") serviceName asked none = _
    rw [hrealm]
  · intro hne
    have hroute : Route.ofPath? r.target.path = some (.token (some group.toList)) := by
      rcases Route.ofPath?_of_takes htakes with h | ⟨h, -⟩
      · exact h
      · have hname : group.toList = Route.rootName := Option.some.inj (Route.token.inj h)
        exact absurd (String.toList_inj.1 hname) hne
    refine ⟨hroute, ?_⟩
    unfold respond
    rw [hroute]
    dsimp only
    rw [if_pos hmethod, Job.run_bind, page, tokenPage_run g hgroup hscope]
    rfl
  · rintro rfl
    have hroute : Route.ofPath? r.target.path = some .registry := by
      rw [hpath]
      rfl
    have hinvalid : PullRequest.ofPath r.target.path r.authorization =
        .error (.badRequest "NAME_INVALID" "invalid registry path: /v2/authorize") := by
      rw [hpath]
      rfl
    refine ⟨hroute, ?_⟩
    unfold respond
    rw [hroute]
    dsimp only
    rw [if_pos hmethod, Job.run_bind, page, registryPage, hinvalid]
    rfl

/-- Two groups named like parts of other paths, and a gateway that gives tokens to anyone. The one
is given its token; the other one could have it, and is not. -/
theorem respond_tokenEndpoint_of_new :
    let g : Gateway :=
      ⟨⟨Bytes.ofText "secret", 300⟩, ⟨{ base := [""] }, ⟨"registry", "token", "service", 1, none⟩⟩,
        ⟨[]⟩, true, "proxy"⟩
    let world : World := { clock := fun _ => ⟨0, 0⟩, origin := fun _ _ => .failed }
    let ask : String → Option HttpRequest := fun group =>
      HttpRequest.make? "GET"
        (tokenEndpoint group ++ ("?scope=repository:" ++ group ++ "/nginx:pull")) []
    (∃ r token, ask "authorize" = some r ∧ (g.respond r).run world =
      ((HttpResponse.json .ok (Token.document token)).withLength, world.ticked)) ∧
    ∃ r token, ask "v2" = some r ∧
      (g.authorize (some "v2") (some "repository:v2/nginx:pull") r.authorization).run world =
        (.ok token, world.ticked) ∧
      ((g.respond r).run world).1.status = .badRequest := by
  intro g world ask
  have hgroup₁ : Name.checkGroup "authorize" = .ok () := by decide +kernel
  have hgroup₂ : Name.checkGroup "v2" = .ok () := by decide +kernel
  have himage : Name.checkImage "nginx" = .ok () := by decide +kernel
  let r₁ : HttpRequest :=
    ⟨"GET", ⟨"/authorize/authorize".toList, some "scope=repository:authorize/nginx:pull".toList⟩,
      []⟩
  let r₂ : HttpRequest :=
    ⟨"GET", ⟨"/v2/authorize".toList, some "scope=repository:v2/nginx:pull".toList⟩, []⟩
  have hask₁ : ask "authorize" = some r₁ := by decide +kernel
  have hask₂ : ask "v2" = some r₂ := by decide +kernel
  have hscope₁ : r₁.values "scope" = (some (Scope.request "authorize" "nginx")).toList := by
    decide +kernel
  have hscope₂ : r₂.values "scope" = (some (Scope.request "v2" "nginx")).toList := by decide +kernel
  have htoken₁ := authorize_of_anonymous (g := g) rfl hgroup₁ himage world
  have htoken₂ := authorize_of_anonymous (g := g) rfl hgroup₂ himage world
  let token : String → Token := fun group =>
    g.signer.issue Claims.anonymous (Name.pullScope group "nginx") world.now
  refine ⟨⟨r₁, token "authorize", hask₁, ?_⟩, r₂, token "v2", hask₂, htoken₂, ?_⟩
  · have h := (respond_tokenEndpoint g hgroup₁ (.inr (by decide +kernel)) hask₁ hscope₁ world).2.1
      (by decide)
    have hanyone : r₁.authorization = none := rfl
    rw [hanyone, htoken₁] at h
    exact h.2
  · have h :=
      (respond_tokenEndpoint g hgroup₂ (.inr (by decide +kernel)) hask₂ hscope₂ world).2.2 rfl
    rw [h.2]
    decide +kernel

end Gateway

end PullThrough
