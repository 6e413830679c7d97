import PullThrough.Http.Server
import PullThrough.Proofs.Gateway.Access
import PullThrough.Proofs.Gateway.Integrity
import PullThrough.Proofs.Gateway.Mirrors
import PullThrough.Proofs.Http.Paths
/-
  Heads and pages.

  To a request for the head of a page below the registry's root the same is answered as to a request
  for the page itself, but for the content (`Gateway.respond_heads`): a head opens no file, but in a
  cache that only requests have written to the file of an answer can be read, and has the length
  that the answer states (`PullResponse.IsWhole`). All else is one request that is handled in two
  worlds which differ in their clocks at most (`Gateway.handle_pair`).
-/
namespace PullThrough

open PullThrough.Path (location)

/-! ## Heads of answers -/

namespace HttpResponse

theorem withLength_of_stated {r : HttpResponse} {length : String}
    (h : r.header? "content-length" = some length) : r.withLength = r := by
  rw [withLength, h]

theorem header?_withHeader_of_ne {r : HttpResponse} {name other : String} (h : other ≠ name)
    (value : String) : (r.withHeader name value).header? other = r.header? other := by
  unfold withHeader header?
  split
  · rw [List.lookup_cons, beq_false_of_ne h]
  · rfl

theorem status_withHeader (r : HttpResponse) (name value : String) :
    (r.withHeader name value).status = r.status := by
  unfold withHeader
  split <;> rfl

theorem status_withLength (r : HttpResponse) : r.withLength.status = r.status := by
  unfold withLength
  split
  · rfl
  · exact r.status_withHeader _ _

end HttpResponse

namespace PullResponse

theorem header?_response (a : PullResponse) (body : Bytes) :
    (a.response body).header? "content-length" = some (toString a.contentLength) := by
  rw [response, HttpResponse.header?_withHeader_of_ne (by decide)]
  rfl

/-- The content of an answer is in its body only. -/
theorem headOnly_response (a : PullResponse) (body body' : Bytes) :
    (a.response body).headOnly = (a.response body').headOnly := by
  unfold response HttpResponse.withHeader HttpResponse.headOnly
  split <;> rfl

theorem body_response (a : PullResponse) (body : Bytes) : (a.response body).body = body := by
  unfold response HttpResponse.withHeader
  split <;> rfl

end PullResponse

/-- A rejection is never told as a success. -/
theorem Rejection.status_response_ne (r : Rejection) : r.response.status ≠ .ok := by
  cases r with
  | unauthorized fault challenge =>
    rw [response, HttpResponse.status_withHeader]
    show Status.unauthorized ≠ Status.ok
    decide
  | badRequest code message => exact (by decide : Status.badRequest ≠ Status.ok)
  | notFound code message => exact (by decide : Status.notFound ≠ Status.ok)
  | badGateway failure => exact (by decide : Status.badGateway ≠ Status.ok)
  | internal failure => exact (by decide : Status.internalServerError ≠ Status.ok)

namespace Gateway

variable {g : Gateway} {w w' : World} {t : Twins} {v : View}

/-- The length that a response states, if it is a success, is that of its body. -/
def IsFramed (response : HttpResponse) : Prop :=
  response.status = .ok → response.header? "content-length" = some (toString response.body.length)

/-- What is answered to a request for a head, beside what is answered to the
request for the page. -/
def IsHeadOf (head page : HttpResponse) : Prop :=
  head.withLength.headOnly = page.withLength.headOnly ∧ IsFramed page.withLength

theorem isHeadOf_rejection (r : Rejection) : IsHeadOf r.response r.response :=
  ⟨rfl, fun h => absurd (r.response.status_withLength ▸ h) r.status_response_ne⟩

theorem isHeadOf_response (a : PullResponse) {body : Bytes} (h : a.contentLength = body.length) :
    IsHeadOf (a.response []) (a.response body) := by
  unfold IsHeadOf
  rw [HttpResponse.withLength_of_stated (a.header?_response _),
    HttpResponse.withLength_of_stated (a.header?_response _)]
  refine ⟨a.headOnly_response _ _, fun _ => ?_⟩
  rw [a.header?_response, a.body_response, h]

theorem sendContent_file {a : PullResponse} {path : Path} {data : Bytes} (hb : a.body = .file path)
    (hd : w.disk.read path = .ok data) : (sendContent false a).run w = (a.response data, w) := by
  have hask : (Job.ask (.read path)).run w = (w.disk.read path, w) := rfl
  unfold sendContent
  rw [hb]
  show Job.run (Job.ask (.read path) >>= _) w = _
  rw [Job.run_bind, hask, hd]
  rfl

/-- An answer that is whole can be sent, and has the length that it states. -/
theorem sendContent_run {a : PullResponse} (h : a.IsWhole w.disk) :
    ∃ body, a.contentLength = body.length ∧ (sendContent false a).run w = (a.response body, w) := by
  unfold PullResponse.IsWhole at h
  cases hb : a.body with
  | octets data =>
    rw [hb] at h
    unfold sendContent
    rw [hb]
    exact ⟨data, h.2, rfl⟩
  | file path =>
    rw [hb] at h
    obtain ⟨data, hd, -, hlength⟩ := h
    exact ⟨data, hlength, sendContent_file hb hd⟩

/-- The page of the registry for a head, and the page itself. -/
theorem registryPage_pair {r : HttpRequest}
    (hset : ∀ group image, t.Suits g.cache.store v group image) (hapart : ¬ t.apart)
    (hnow : w'.now = w.now) (h : t.Mirror v 0 w w') (hw : g.cache.store.IsKept w'.disk)
    (hr : ∀ request, PullRequest.ofPath r.target.path r.authorization = .ok request →
      request.IsPlain) :
    (g.registryPage true r).Pair w (g.registryPage false r) w' fun head u page u' =>
      IsHeadOf head page ∧ t.Mirror (v.upTo t.times) 2 u u' := by
  have hbeside (group : String) : t.Beside g.cache.store group v 0 w w' :=
    ⟨h, fun happart => absurd happart hapart⟩
  unfold registryPage
  cases hp : PullRequest.ofPath r.target.path r.authorization with
  | error rejection =>
    exact ⟨isHeadOf_rejection rejection, ((hbeside "").mono (Nat.zero_le 2)).upTo.toMirror⟩
  | ok request =>
    dsimp only
    have hwhole : (g.handle request).Ends w' fun answer u' =>
        ∀ a, answer = .ok a → a.IsWhole u'.disk :=
      (g.handle_does (hr request hp) hw).run
    refine Job.Pair.bind (((handle_pair (hset _ _) hnow (hbeside request.group)).ends
      (P := fun _ _ => True) trivial hwhole).post ?_)
    rintro _ u answer u' ⟨⟨rfl, hu⟩, -, hwhole⟩
    cases answer with
    | error rejection => exact ⟨isHeadOf_rejection rejection, hu.toMirror⟩
    | ok a =>
      obtain ⟨body, hlength, hrun⟩ := sendContent_run (hwhole a rfl)
      show Job.Pair (sendContent true a) u (sendContent false a) u' _
      unfold Job.Pair
      rw [hrun]
      exact ⟨isHeadOf_response a hlength, hu.toMirror⟩

theorem respond_get {r : HttpRequest} (hroute : Route.ofPath? r.target.path = some .registry) :
    g.respond { r with method := "GET" } = do return (← g.registryPage false r).withLength := by
  unfold respond
  dsimp only
  rw [hroute]
  exact if_pos rfl

/-- The page of a request that is answered with a file. -/
theorem respond_get_run {r : HttpRequest} {request : PullRequest} {a : PullResponse} {path : Path}
    {data : Bytes} (hroute : Route.ofPath? r.target.path = some .registry)
    (hpath : PullRequest.ofPath r.target.path r.authorization = .ok request)
    (h : (g.handle request).run w = (.ok a, w')) (hb : a.body = .file path)
    (hd : w'.disk.read path = .ok data) :
    (g.respond { r with method := "GET" }).run w = (a.response data, w') := by
  rw [respond_get hroute, Job.run_bind]
  unfold registryPage
  rw [hpath]
  dsimp only
  rw [Job.run_bind, h]
  dsimp only
  rw [sendContent_file hb hd]
  show ((a.response data).withLength, w') = _
  rw [HttpResponse.withLength_of_stated (a.header?_response _)]

theorem respond_head {r : HttpRequest} (hroute : Route.ofPath? r.target.path = some .registry) :
    g.respond { r with method := "HEAD" } =
      do return (← g.registryPage true r).withLength.headOnly := by
  unfold respond
  dsimp only
  rw [hroute]
  exact (if_neg (by decide)).trans (if_pos rfl)

/-! ## Heads and pages -/

/-- All that a disk has, as it is. -/
def wholeView : View := .plain (fun _ => True) Eq fun _ => rfl

/-- Two clocks at one point of a run. -/
def clockTwins (w : World) : Twins where
  times _ _ := True
  requests := w.requests
  requests' := w.requests
  number := w.serial
  number' := w.serial
  apart := False
  same _ := rfl

theorem clockTwins_mirror (w : World) (clock clock' : Nat → Instant) :
    (clockTwins w).Mirror wholeView 0 { w with clock := clock } { w with clock := clock' } where
  disk _ _ := Entry.Alike.refl (fun _ => rfl) _
  trouble := rfl
  writes := rfl
  clock _ := trivial
  readings := rfl
  serial := ⟨0, Nat.le_refl 0, rfl, rfl⟩
  origin _ _ := rfl
  requests := ⟨[], rfl, rfl⟩

theorem clockTwins_suits (w : World) (s : Store) (group image : String) :
    (clockTwins w).Suits s wholeView group image where
  covers := ⟨fun _ => rfl, fun _ _ => trivial, fun _ => trivial⟩
  exact _ _ h := h
  times _ := trivial
  blind _ _ _ _ happart := absurd happart not_false

/-- The same file, or the records of one tag that differ in their times at most. -/
def SameButTimes (content content' : Bytes) : Prop :=
  content = content' ∨ ∃ r r' : ManifestRecord,
    r' = { r with createdAt := r'.createdAt, updatedAt := r'.updatedAt } ∧
      content = r.encode ∧ content' = r'.encode

/-- From every state that requests bring an empty cache to, and at every time, a request for the
head of a page of the registry is answered like one for the page, but for the body. Both ask the
origin for the same and leave the same files. The body of a page that is a success has the length
that its head states. -/
theorem respond_heads (g : Gateway) {w : World} (hempty : g.cache.store.IsEmpty w.disk)
    (earlier : List PullRequest) (hearlier : ∀ r ∈ earlier, r.IsPlain) {r : HttpRequest}
    (hroute : Route.ofPath? r.target.path = some .registry)
    (hr : ∀ request, PullRequest.ofPath r.target.path r.authorization = .ok request →
      request.IsPlain)
    (clock clock' : Nat → Instant)
    (hclock : (clock' (g.after w earlier).readings).seconds =
      (clock (g.after w earlier).readings).seconds) :
    let before := g.after w earlier
    let head := (g.respond { r with method := "HEAD" }).run { before with clock := clock }
    let page := (g.respond { r with method := "GET" }).run { before with clock := clock' }
    head.1.status = page.1.status ∧ head.1.headers = page.1.headers ∧ head.1.body = [] ∧
      (page.1.status = .ok →
        page.1.header? "content-length" = some (toString page.1.body.length)) ∧
      head.2.requests = page.2.requests ∧
      ∀ l, Entry.Alike SameButTimes (head.2.disk.get? l) (page.2.disk.get? l) := by
  intro before head page
  have hkept : g.cache.store.IsKept before.disk := g.after_isKept hearlier hempty.isKept
  have hnow : ({ before with clock := clock' } : World).now =
      ({ before with clock := clock } : World).now := congrArg Int64.ofInt hclock
  have hpair : (g.respond { r with method := "HEAD" }).Pair { before with clock := clock }
      (g.respond { r with method := "GET" }) { before with clock := clock' } fun head u page u' =>
        (head = page.headOnly ∧ IsFramed page) ∧
          (clockTwins before).Mirror (wholeView.upTo fun _ _ => True) 2 u u' := by
    rw [respond_head hroute, respond_get hroute]
    exact Job.Pair.bind ((registryPage_pair (clockTwins_suits before g.cache.store) not_false hnow
      (clockTwins_mirror before clock clock') hkept hr).post fun _ _ _ _ h => h)
  obtain ⟨⟨hhead, hframed⟩, hmirror⟩ := hpair
  obtain ⟨requests, hrequests, hrequests'⟩ := hmirror.requests
  refine ⟨(congrArg HttpResponse.status hhead).trans rfl,
    (congrArg HttpResponse.headers hhead).trans rfl, congrArg HttpResponse.body hhead, hframed,
      hrequests.trans hrequests'.symm, fun l => ?_⟩
  refine (hmirror.disk l trivial).mono fun content content' h => ?_
  exact h.imp_right fun ⟨r, r', hlike, hc, hc'⟩ => ⟨r, r', hlike.rest, hc, hc'⟩

/-- The head and the page of a blob that was stored before. -/
theorem respond_heads_of_hit :
    let g : Gateway :=
      ⟨⟨Bytes.ofText "secret", 300⟩, ⟨{ base := [""] }, ⟨"registry", "token", "service", 1, none⟩⟩,
        ⟨[]⟩, true, "proxy"⟩
    let digest := Digest.of [1]
    let w : World :=
      { disk := ⟨[(Slot.of ["groups"], .folder)]⟩, clock := fun _ => ⟨0, 0⟩
        origin := fun _ r =>
          if r.url = "token" then
            .reply ⟨.ok, [], [Bytes.ofText "\x7b\"token\":\"t\"\x7d"], .complete⟩
          else .reply ⟨.ok, [], [[1]], .complete⟩ }
    let blob := g.withToken "g" "library/i" (.blob digest.text) 0
    let r : HttpRequest :=
      ⟨"GET", ⟨blob.path, none⟩, [("authorization", Bytes.ofText (blob.authorization.getD ""))]⟩
    let before := g.after w [blob]
    let head := (g.respond { r with method := "HEAD" }).run { before with clock := w.clock }
    let page := (g.respond { r with method := "GET" }).run { before with clock := fun _ => ⟨0, 1⟩ }
    g.cache.store.IsEmpty w.disk ∧ (∀ request ∈ [blob], request.IsPlain) ∧
      Route.ofPath? r.target.path = some .registry ∧
      PullRequest.ofPath r.target.path r.authorization = .ok blob ∧
      before.disk.read (g.cache.store.blobPath "g" "library/i" digest) = .ok [1] ∧
      page.1.status = .ok ∧ page.1.header? "x-cache" = some "HIT" ∧ page.1.body = [1] ∧
      head.1.status = page.1.status ∧ head.1.headers = page.1.headers ∧ head.1.body = [] ∧
      page.1.header? "content-length" = some (toString page.1.body.length) ∧
      head.2.requests = page.2.requests ∧
      ∀ l, Entry.Alike SameButTimes (head.2.disk.get? l) (page.2.disk.get? l) := by
  intro g digest w blob r before head page
  have hempty : g.cache.store.IsEmpty w.disk := Store.isEmpty_of_new
  have hg : Name.checkGroup "g" = .ok () := by decide +kernel
  have hi : Name.checkImage "library/i" = .ok () := by decide +kernel
  have hplain : ∀ request ∈ [blob], request.IsPlain :=
    List.forall_mem_singleton.2 (by decide +kernel)
  have hroute : Route.ofPath? r.target.path = some .registry := by decide +kernel
  have hauthorization : r.authorization = blob.authorization := by decide +kernel
  have hparts : "manifests" ∉ Path.ofText "library/i" := by decide +kernel
  have hread (d : Digest) (authorization : Option String) :
      let r : PullRequest := ⟨"g", "library/i", .blob d.text, authorization⟩
      PullRequest.ofPath r.path r.authorization = .ok r :=
    PullRequest.ofPath_path_of_blob ⟨hg, hi, d, rfl⟩ rfl hparts
  obtain ⟨authorization, hblob⟩ : ∃ a, blob = ⟨"g", "library/i", .blob digest.text, a⟩ :=
    ⟨_, rfl⟩
  have hpath : PullRequest.ofPath r.target.path r.authorization = .ok blob := by
    rw [hauthorization]
    dsimp only [r]
    rw [hblob]
    exact hread digest authorization
  have hfits : g.signer.Fits 0 := by constructor <;> decide +kernel
  have hlive : (0 : Int64).toInt < (0 : Int64).toInt + g.signer.ttl.toNat := by decide +kernel
  let b : PullRequest := ⟨"g", "library/i", .blob digest.text, none⟩
  have hrun (u : World) (hu : u.now = 0) :
      (g.handle (g.withToken "g" "library/i" (.blob digest.text) 0)).run u =
        (g.serve b).run u.ticked :=
    run_withToken hg hi hfits (by rwa [hu]) _
  obtain ⟨stored, hstored, hfile, hanswer, hcontent⟩ : ∃ stored : World,
      stored = ((g.serve b).run w.ticked).2 ∧
        stored.disk.read (g.cache.store.blobPath "g" "library/i" digest) = .ok [1] ∧
        ((g.serve b).run ({ stored with clock := fun _ => ⟨0, 1⟩ } : World).ticked).1 =
          .ok ⟨blobType, 1, digest, .hit, .file (g.cache.store.blobPath "g" "library/i" digest)⟩ ∧
        ((g.serve b).run ({ stored with clock := fun _ => ⟨0, 1⟩ } : World).ticked).2.disk.read
          (g.cache.store.blobPath "g" "library/i" digest) = .ok [1] :=
    ⟨_, rfl, by decide +kernel⟩
  -- Each run gets a name as a whole, since a part of it is compared by running it.
  have hafter : g.after w [blob] = before := rfl
  have hhead : (g.respond { r with method := "HEAD" }).run { before with clock := w.clock } =
    head := rfl
  have hpage : (g.respond { r with method := "GET" }).run
    { before with clock := fun _ => ⟨0, 1⟩ } = page := rfl
  have hbefore : before = stored := by
    rw [← hafter, after_cons, after_nil, hrun w rfl, hstored]
  rw [← hbefore] at hfile hanswer hcontent
  have hnow (u : World) : ({ u with clock := fun _ => ⟨0, 1⟩ } : World).now = 0 := rfl
  rw [← hrun _ (hnow before)] at hanswer hcontent
  generalize hend : (g.handle (g.withToken "g" "library/i" (.blob digest.text) 0)).run
    { before with clock := fun _ => ⟨0, 1⟩ } = ended at hanswer hcontent
  obtain ⟨answer, u⟩ := ended
  dsimp only at hanswer hcontent
  rw [hanswer] at hend
  obtain ⟨hok, hhit, hbytes⟩ :
      let sent := (PullResponse.mk blobType 1 digest .hit
        (.file (g.cache.store.blobPath "g" "library/i" digest))).response [1]
      sent.status = .ok ∧ sent.header? "x-cache" = some "HIT" ∧ sent.body = [1] := by
    decide +kernel
  obtain ⟨hstatus, hheaders, hbody, hlength, hrequests, hdisk⟩ :=
    respond_heads g hempty [blob] hplain hroute (fun request hrequest => by
      rw [hpath] at hrequest
      cases hrequest
      exact List.forall_mem_singleton.1 hplain) w.clock (fun _ => ⟨0, 1⟩) rfl
  simp only [hafter, hhead, hpage] at hstatus hheaders hbody hlength hrequests hdisk
  have hsent : page = _ := hpage.symm.trans (respond_get_run hroute hpath hend rfl hcontent)
  have hsuccess : page.1.status = .ok := by rw [hsent, hok]
  exact ⟨hempty, hplain, hroute, hpath, hfile, hsuccess, by rw [hsent, hhit],
    by rw [hsent, hbytes], hstatus, hheaders, hbody, hlength hsuccess, hrequests, hdisk⟩

end Gateway

end PullThrough
