import PullThrough.Proofs.Job.Traces
/-
  What the events of a run tell of its end.

  The events of an attempt explain how it ends (`OriginClient.Explains`): nothing was found just if
  the origin said so of a manifest or a blob, the cache is at fault only after a step on the disk
  that failed, and every other failure is that of an origin which is out of service, grants no
  access or sends something else. An attempt is explained (`OriginClient.IsExplained`) if this holds
  whatever its steps are answered; parts that follow each other are explained by the events of all
  of them (`OriginClient.IsExplained.bind`). The calls on the origin are explained attempts.
-/
namespace PullThrough

/-- The failures for which the origin is to blame, or what it sends. -/
def Failure.IsUpstream : Failure → Prop
  | unavailable _ => True
  | denied _ => True
  | unexpectedStatus _ _ => True
  | digestMismatch _ _ => True
  | _ => False

/-- Only the origin can be to blame for a failure. -/
def FailsUpstream (r : Except Failure α) : Prop :=
  ∀ failure, r = .error failure → failure.IsUpstream

namespace FailsUpstream

theorem ok (a : α) : FailsUpstream (.ok a) := fun _ h => by cases h

theorem error {failure : Failure} (h : failure.IsUpstream) :
    FailsUpstream (.error failure : Except Failure α) := fun _ he => by cases he; exact h

theorem bind {x : Except Failure α} {f : α → Except Failure β} (hx : FailsUpstream x)
    (hf : ∀ a, FailsUpstream (f a)) : FailsUpstream (x >>= f) := by
  cases x with
  | ok a => exact hf a
  | error failure => exact error (hx failure rfl)

theorem map {x : Except Failure α} (hx : FailsUpstream x) (f : α → β) :
    FailsUpstream (x.map f) := by
  cases x with
  | ok a => exact ok _
  | error failure => exact error (hx failure rfl)

end FailsUpstream

/-- The cache is not at fault. -/
def SparesCache (r : Except Failure α) : Prop := ∀ fault, r ≠ .error (.cache fault)

theorem FailsUpstream.sparesCache {r : Except Failure α} (h : FailsUpstream r) : SparesCache r :=
  fun _ hr => h _ hr

theorem SparesCache.error {failure : Failure}
    (h : SparesCache (.error failure : Except Failure α)) :
    SparesCache (.error failure : Except Failure β) :=
  fun fault hf => h fault (by cases hf; rfl)

theorem SparesCache.ok (a : α) : SparesCache (.ok a) := fun _ h => by cases h

theorem SparesCache.bind {x : Except Failure α} {f : α → Except Failure β} (hx : SparesCache x)
    (hf : ∀ a, SparesCache (f a)) : SparesCache (x >>= f) := by
  cases x with
  | ok a => exact hf a
  | error failure => exact hx.error

namespace OriginClient

variable {c : OriginClient} {r : Except Failure α} {t t' : List Event}

/-! ## What events tell -/

/-- A request for a manifest, for the head of one or for a blob. -/
def IsForContent (c : OriginClient) (q : OriginRequest) : Prop :=
  (∃ method image tag token, q = c.manifestRequest method image tag token) ∨
    ∃ image digest token, q = c.blobRequest image digest token

/-- The origin was asked for content and said that there is none. -/
def IsAbsence (c : OriginClient) (e : Event) : Prop :=
  ∃ q reply, e.exchange? = some (q, .reply reply) ∧ c.IsForContent q ∧ reply.status = .notFound

def Lacked (c : OriginClient) (t : List Event) : Prop := ∃ e ∈ t, c.IsAbsence e

theorem lacked_append : c.Lacked (t ++ t') ↔ c.Lacked t ∨ c.Lacked t' := by
  simp only [Lacked, List.mem_append, or_and_right, exists_or]

theorem not_lacked_of_isLocal (h : ∀ e ∈ t, e.1.IsLocal) : ¬ c.Lacked t := by
  rintro ⟨e, he, q, reply, hx, -⟩
  rw [Event.exchange?_of_isLocal (h e he)] at hx
  cases hx

/-- The events of a run account for how it ended. -/
inductive Explains (c : OriginClient) (t : List Event) : Except Failure α → Prop
  | fine {a : α} (h : ¬ c.Lacked t) : Explains c t (.ok a)
  | lacked {what : String} (h : c.Lacked t) : Explains c t (.error (.notFound what))
  | broken {fault : CacheFault} (h : ¬ c.Lacked t) (hf : ∃ e ∈ t, e.isFailure = true) :
      Explains c t (.error (.cache fault))
  | upstream {failure : Failure} (h : ¬ c.Lacked t) (hf : failure.IsUpstream) :
      Explains c t (.error failure)

namespace Explains

theorem not_lacked {a : α} (h : c.Explains t (.ok a)) : ¬ c.Lacked t := by
  cases h with
  | fine h => exact h

theorem of_failsUpstream (h : ¬ c.Lacked t) (hr : FailsUpstream r) : c.Explains t r := by
  cases r with
  | ok a => exact .fine h
  | error failure => exact .upstream h (hr failure rfl)

/-- A failure that ends what follows, too, is explained by the same events. -/
theorem error {failure : Failure} (h : c.Explains t (.error failure : Except Failure α)) :
    c.Explains t (.error failure : Except Failure β) := by
  cases h with
  | lacked h => exact .lacked h
  | broken h hf => exact .broken h hf
  | upstream h hf => exact .upstream h hf

/-- What goes on after a run that lacked nothing is explained by the events of both. -/
theorem append (h : ¬ c.Lacked t) (h' : c.Explains t' r) : c.Explains (t ++ t') r := by
  have hn : ¬ c.Lacked t' → ¬ c.Lacked (t ++ t') := fun h' hl => (lacked_append.1 hl).elim h h'
  cases h' with
  | fine h' => exact .fine (hn h')
  | lacked h' => exact .lacked (lacked_append.2 (.inr h'))
  | broken h' hf =>
    obtain ⟨e, he, hf⟩ := hf
    exact .broken (hn h') ⟨e, List.mem_append_right _ he, hf⟩
  | upstream h' hf => exact .upstream (hn h') hf

/-- Local events that follow change nothing. -/
theorem later (h : c.Explains t r) (h' : ∀ e ∈ t', e.1.IsLocal) : c.Explains (t ++ t') r := by
  have hn : ¬ c.Lacked t → ¬ c.Lacked (t ++ t') := fun h hl =>
    (lacked_append.1 hl).elim h (not_lacked_of_isLocal h')
  cases h with
  | fine h => exact .fine (hn h)
  | lacked h => exact .lacked (lacked_append.2 (.inl h))
  | broken h hf =>
    obtain ⟨e, he, hf⟩ := hf
    exact .broken (hn h) ⟨e, List.mem_append_left _ he, hf⟩
  | upstream h hf => exact .upstream (hn h) hf

end Explains

/-! ## Explained attempts -/

/-- Whatever an attempt is answered after some events, its own and those explain how it ends. -/
def IsExplained (c : OriginClient) (before : List Event) (x : Attempt α) : Prop :=
  x.run.Yields fun r t => c.Explains (before ++ t) r

variable {before : List Event} {x : Attempt α} {f : α → Attempt β}

theorem isExplained_pure (h : ¬ c.Lacked before) (a : α) : c.IsExplained before (pure a) := by
  show c.Explains (before ++ []) (.ok a)
  rw [List.append_nil]
  exact .fine h

theorem isExplained_throw {failure : Failure}
    (h : c.Explains before (.error failure : Except Failure α)) :
    c.IsExplained before (throw failure : Attempt α) := by
  show c.Explains (before ++ []) _
  rwa [List.append_nil]

theorem isExplained_ask {s : Step} {f : s.Answer → Attempt α}
    (h : ∀ x, c.IsExplained (before ++ [⟨s, x⟩]) (f x)) :
    c.IsExplained before (Attempt.ask s >>= f) := by
  intro x
  refine (h x).post fun r t ht => ?_
  rwa [List.append_assoc] at ht

/-- Earlier events in which nothing was lacked change no explanation. -/
theorem IsExplained.after (hx : c.IsExplained [] x) (h : ¬ c.Lacked before) :
    c.IsExplained before x :=
  Job.Yields.post hx fun _ _ hr => hr.append h

/-- An attempt, and one that goes on with what it gave. -/
theorem isExplained_bind
    (hx : x.run.Yields fun r t => c.Explains (before ++ t) r ∧ ∀ a, r = .ok a →
      c.IsExplained [] (f a)) :
    c.IsExplained before (x >>= f) := by
  unfold IsExplained
  rw [Attempt.run_bind, Job.yields_bind]
  refine hx.post ?_
  rintro (failure | a) t ⟨h, hf⟩
  · show c.Explains (before ++ (t ++ [])) _
    rw [List.append_nil]
    exact h.error
  · refine ((hf a rfl).after h.not_lacked).post fun r t' h' => ?_
    rwa [List.append_assoc] at h'

theorem IsExplained.bind (hx : c.IsExplained before x) (hf : ∀ a, c.IsExplained [] (f a)) :
    c.IsExplained before (x >>= f) :=
  isExplained_bind (Job.Yields.post hx fun _ _ h => ⟨h, fun a _ => hf a⟩)

/-! ## Calls -/

theorem heard_failsUpstream (c : OriginClient) (call : Call) (y : Exchange) :
    FailsUpstream (c.heard call y) := by
  cases y with
  | reply reply => exact .ok _
  | failed => exact .error trivial
  | timedOut => exact .error trivial

theorem checkTokenStatus_failsUpstream (status : Status) :
    FailsUpstream (checkTokenStatus status) := by
  unfold checkTokenStatus
  split
  · exact .ok _
  · split <;> exact .error trivial

/-- The only other failure that a status stands for is that nothing is there. -/
theorem checkStatus_failsUpstream {status : Status} (h : status ≠ .notFound) (url : String) :
    FailsUpstream (checkStatus status url) := by
  unfold checkStatus
  rw [if_neg h]
  split
  · exact .ok _
  · split
    · exact .error trivial
    · split <;> exact .error trivial

theorem wholeBody_failsUpstream (c : OriginClient) (call : Call) (reply : Reply) :
    FailsUpstream (c.wholeBody call reply) := by
  unfold wholeBody
  split
  · exact .ok _
  · exact .error trivial
  · exact .error trivial

theorem tokenOf_failsUpstream (body : Bytes) : FailsUpstream (tokenOf body) := by
  unfold tokenOf
  dsimp only
  split
  · split
    · split
      · split
        · exact .error trivial
        · exact .ok _
      · exact .error trivial
    · exact .error trivial
  · exact .error trivial

theorem bodyStream_failsUpstream (c : OriginClient) (reply : Reply) :
    ∀ piece ∈ c.bodyStream reply, FailsUpstream piece := by
  intro piece hp
  rcases List.mem_append.1 hp with hp | hp
  · obtain ⟨chunk, -, rfl⟩ := List.mem_map.1 hp
    exact .ok chunk
  · revert hp
    cases reply.ending with
    | complete => exact fun hp => absurd hp List.not_mem_nil
    | broken =>
      intro hp
      rw [List.mem_singleton.1 hp]
      exact .error trivial
    | stalled =>
      intro hp
      rw [List.mem_singleton.1 hp]
      exact .error trivial

theorem not_lacked_nil : ¬ c.Lacked [] := not_lacked_of_isLocal fun e he => by cases he

theorem tokenRequest_not_isForContent (c : OriginClient) (image : String) :
    ¬ c.IsForContent (c.tokenRequest image) := by
  rintro (⟨method, image', tag, token, h⟩ | ⟨image', digest, token, h⟩)
  · cases congrArg OriginRequest.parameters h
  · cases congrArg OriginRequest.parameters h

/-- A request for a token tells nothing of content. -/
theorem requestToken_isExplained (c : OriginClient) (image : String) :
    c.IsExplained [] (c.requestToken image) := by
  refine (c.requestToken_isCall image).yields (fun y => ?_) (.upstream not_lacked_nil trivial)
  refine .of_failsUpstream ?_ ((heard_failsUpstream c _ y).bind fun reply =>
    (checkTokenStatus_failsUpstream _).bind fun _ =>
      (wholeBody_failsUpstream c _ reply).bind tokenOf_failsUpstream)
  rintro ⟨e, he, q, reply, hx, hq, -⟩
  obtain rfl := List.mem_singleton.1 he
  cases hx
  exact c.tokenRequest_not_isForContent image hq

/-- A call for content, whose reply is judged by its status first. -/
theorem IsCall.isExplained {call : Call} {q : OriginRequest} {url : String}
    {g : Reply → Except Failure α}
    (h : c.IsCall x call q fun reply => checkStatus reply.status url >>= fun _ => g reply)
    (hq : c.IsForContent q) (hg : ∀ reply, FailsUpstream (g reply)) : c.IsExplained [] x := by
  refine h.yields (fun y => ?_) (.upstream not_lacked_nil trivial)
  rw [List.nil_append]
  by_cases hy : ∃ reply, y = .reply reply ∧ reply.status = .notFound
  · obtain ⟨reply, rfl, hs⟩ := hy
    rw [show (c.heard call (.reply reply)).bind _ = checkStatus reply.status url >>=
      fun _ => g reply
      from rfl, hs]
    exact .lacked ⟨_, List.mem_singleton_self _, q, reply, rfl, hq, hs⟩
  · have hn : ¬ c.Lacked [⟨.send q, y⟩] := by
      rintro ⟨e, he, q', reply, hx, -, hs⟩
      obtain rfl := List.mem_singleton.1 he
      cases hx
      exact hy ⟨reply, rfl, hs⟩
    cases y with
    | failed => exact .upstream hn trivial
    | timedOut => exact .upstream hn trivial
    | reply reply =>
      have hs : reply.status ≠ .notFound := fun hs => hy ⟨reply, rfl, hs⟩
      exact .of_failsUpstream hn ((checkStatus_failsUpstream hs url).bind fun _ => hg reply)

theorem headManifest_isExplained (c : OriginClient) (image tag token : String) :
    c.IsExplained [] (c.headManifest image tag token) :=
  (c.headManifest_isCall image tag token).isExplained (.inl ⟨_, _, _, _, rfl⟩) fun _ => .ok _

theorem fetchManifest_isExplained (c : OriginClient) (image tag token : String) :
    c.IsExplained [] (c.fetchManifest image tag token) :=
  (c.fetchManifest_isCall image tag token).isExplained (.inl ⟨_, _, _, _, rfl⟩) fun reply =>
    (wholeBody_failsUpstream c _ reply).bind fun _ => .ok _

/-! ### Outcomes -/

theorem checkStatus_sparesCache (status : Status) (url : String) :
    SparesCache (checkStatus status url) := by
  by_cases h : status = .notFound
  · rw [h]
    exact fun _ hf => by cases hf
  · exact (checkStatus_failsUpstream h url).sparesCache

theorem tokenOutcome_sparesCache (c : OriginClient) (y : Exchange) :
    SparesCache (c.tokenOutcome y) :=
  (heard_failsUpstream c _ y).sparesCache.bind fun reply =>
    (checkTokenStatus_failsUpstream _).sparesCache.bind fun _ =>
      ((wholeBody_failsUpstream c _ reply).bind tokenOf_failsUpstream).sparesCache

theorem headOutcome_sparesCache (c : OriginClient) (image tag : String) (y : Exchange) :
    SparesCache (c.headOutcome image tag y) :=
  (heard_failsUpstream c _ y).sparesCache.bind fun _ =>
    (checkStatus_sparesCache _ _).bind fun _ => .ok _

theorem manifestOutcome_sparesCache (c : OriginClient) (image tag : String) (y : Exchange) :
    SparesCache (c.manifestOutcome image tag y) :=
  (heard_failsUpstream c _ y).sparesCache.bind fun reply =>
    (checkStatus_sparesCache _ _).bind fun _ =>
      ((wholeBody_failsUpstream c _ reply).bind fun _ => .ok _).sparesCache

theorem blobOutcome_sparesCache (c : OriginClient) (image : String) (digest : Digest)
    (y : Exchange) : SparesCache (c.blobOutcome image digest y) :=
  (heard_failsUpstream c _ y).sparesCache.bind fun _ =>
    (checkStatus_sparesCache _ _).bind fun _ => .ok _

/-- Whatever ends a stream early comes from the origin, too. -/
theorem blobOutcome_failsUpstream (c : OriginClient) {image : String} {digest : Digest}
    {y : Exchange}
    {stream : List (Except Failure Bytes)} (h : c.blobOutcome image digest y = .ok stream) :
    ∀ piece ∈ stream, FailsUpstream piece := by
  cases y with
  | failed => cases h
  | timedOut => cases h
  | reply reply =>
    revert h
    show checkStatus reply.status (c.blobUrl image digest) >>= (fun _ => .ok (c.bodyStream reply)) =
      .ok stream → _
    cases checkStatus reply.status (c.blobUrl image digest) with
    | error failure => exact fun h => by cases h
    | ok _ =>
      rintro ⟨⟩
      exact c.bodyStream_failsUpstream reply

theorem fetchBlob_yields (c : OriginClient) (image : String) (digest : Digest) (token : String) :
    (c.fetchBlob image digest token).run.Yields fun r t => c.Explains t r ∧
      ∀ stream, r = .ok stream → ∀ piece ∈ stream, FailsUpstream piece := by
  have hcall := c.fetchBlob_isCall image digest token
  exact .and (hcall.isExplained (.inr ⟨_, _, _, rfl⟩) fun _ => .ok _)
    (hcall.yields (fun y stream h => c.blobOutcome_failsUpstream h) fun _ h => by cases h)

end OriginClient

end PullThrough
