import PullThrough.Proofs.Origin.Calls
import PullThrough.Proofs.Store.Success
/-
  What the replies of the origin are taken for.

  How an exchange ended says what a call comes to. Every call has the same outages: no head of a
  reply, a status of being out of service, and for those who want it a body that is cut short
  (`Exchange.IsOutage`). Of the other replies the registry's are told apart by status
  (`OriginClient.IsSorted`), and those of the token endpoint are a denial or what their body says
  (`OriginClient.IsGranted`). The main result (`OriginClient.calls_sorted`) is that the four calls
  are answered so in every world.

  It also says which bodies carry a token. The older of the two names counts where it is there at
  all, so an empty text under it hides a token under the newer one, which is the only way in which
  a token is overlooked.
-/
namespace PullThrough

open Store (arrived arrived_append)

/-- An exchange over which the origin counts as out of service. Not every call wants a body. -/
def Exchange.IsOutage (wantsBody : Bool) : Exchange → Prop
  | .failed => True
  | .timedOut => True
  | .reply r =>
    (r.status.isSuccess = true ∧ wantsBody = true ∧ r.ending ≠ .complete) ∨
      r.status.code = 429 ∨ (500 ≤ r.status.code ∧ r.status.code < 600)

/-- An answer says that the origin is out of service. -/
def IsUnavailable (r : Except Failure α) : Prop := ∃ cause, r = .error (.unavailable cause)

namespace OriginClient

variable {c : OriginClient} {y : Exchange} {url : String} {wantsBody : Bool}

/-! ## Calls on the registry -/

/-- A call on the registry is answered by what its exchange says. -/
structure IsSorted (wantsBody : Bool) (url : String) (y : Exchange)
    (r : Except Failure α) : Prop where
  outage : IsUnavailable r ↔ y.IsOutage wantsBody
  absent : ∀ reply, y = .reply reply → reply.status.code = 404 → r = .error (.notFound url)
  denied : ∀ reply, y = .reply reply → reply.status.code = 401 ∨ reply.status.code = 403 →
    r = .error (.denied (.answered url reply.status))
  unexpected : ∀ reply, y = .reply reply → reply.status.isSuccess = false →
    reply.status.code ∉ [401, 403, 404] → ¬ y.IsOutage wantsBody →
      r = .error (.unexpectedStatus reply.status url)
  fine : ∀ reply, y = .reply reply → reply.status.isSuccess = true → ¬ y.IsOutage wantsBody →
    ∃ a, r = .ok a

/-- A part of a body that is wanted is a whole body. -/
def ReadsBody (wantsBody : Bool) (g : Reply → Except Failure α) : Prop :=
  ∀ reply, if wantsBody = true ∧ reply.ending ≠ .complete then IsUnavailable (g reply)
    else ∃ a, g reply = .ok a

theorem isSuccess_iff {status : Status} :
    status.isSuccess = true ↔ 200 ≤ status.code ∧ status.code < 300 := by
  simp [Status.isSuccess]

theorem isOutage_iff {status : Status} :
    isOutage status = true ↔ status.code = 429 ∨ (500 ≤ status.code ∧ status.code < 600) := by
  obtain ⟨code⟩ := status
  simp [isOutage, Status.tooManyRequests, Status.isServerError]

/-- What a status stands for, by its code. -/
theorem checkStatus_eq (status : Status) (url : String) :
    checkStatus status url =
      if status.isSuccess then .ok ()
      else if status.code = 404 then .error (.notFound url)
      else if status.code = 401 ∨ status.code = 403 then .error (.denied (.answered url status))
      else if status.code = 429 ∨ (500 ≤ status.code ∧ status.code < 600) then
        .error (.unavailable (.answered url status))
      else .error (.unexpectedStatus status url) := by
  have hcode : ∀ n, status = ⟨n⟩ ↔ status.code = n := by
    obtain ⟨code⟩ := status
    simp
  simp only [checkStatus, isOutage_iff, Status.notFound, Status.unauthorized,
    Status.forbidden, hcode]

theorem isOutage_of_success {reply : Reply} (h : reply.status.isSuccess = true) :
    (Exchange.reply reply).IsOutage wantsBody ↔ wantsBody = true ∧ reply.ending ≠ .complete := by
  have hcode := isSuccess_iff.1 h
  unfold Exchange.IsOutage
  simp only [h, true_and]
  constructor
  · rintro (hbody | hbusy | hbroken)
    · exact hbody
    · omega
    · omega
  · exact .inl

theorem isOutage_of_not_success {reply : Reply} (h : reply.status.isSuccess = false) :
    (Exchange.reply reply).IsOutage wantsBody ↔
      reply.status.code = 429 ∨ (500 ≤ reply.status.code ∧ reply.status.code < 600) := by
  unfold Exchange.IsOutage
  simp [h]

/-- A reply with a status of success goes by its body. -/
theorem isSorted_of_success {reply : Reply} {r : Except Failure α}
    (hs : reply.status.isSuccess = true)
    (hbody : if wantsBody = true ∧ reply.ending ≠ .complete then IsUnavailable r else
      ∃ a, r = .ok a) :
    IsSorted wantsBody url (.reply reply) r := by
  have hcode := isSuccess_iff.1 hs
  refine ⟨?_, ?_, ?_, ?_, ?_⟩
  · rw [isOutage_of_success hs]
    split at hbody
    · next hcut => exact ⟨fun _ => hcut, fun _ => hbody⟩
    · next hwhole =>
      obtain ⟨a, rfl⟩ := hbody
      exact iff_of_false (by rintro ⟨_, ⟨⟩⟩) hwhole
  · rintro _ ⟨⟩ h
    omega
  · rintro _ ⟨⟩ h
    omega
  · rintro _ ⟨⟩ h
    rw [hs] at h
    cases h
  · rintro _ ⟨⟩ - h
    rwa [if_neg (mt (isOutage_of_success hs).2 h)] at hbody

/-- A reply with another status goes by that alone. -/
theorem isSorted_of_not_success {reply : Reply} (hs : reply.status.isSuccess = false)
    (next : Unit → Except Failure α) :
    IsSorted wantsBody url (.reply reply) (checkStatus reply.status url >>= next) := by
  rw [checkStatus_eq, if_neg (by simp [hs])]
  refine ⟨?_, ?_, ?_, ?_, ?_⟩
  · rw [isOutage_of_not_success hs]
    split
    · exact iff_of_false (by rintro ⟨_, ⟨⟩⟩) (by omega)
    split
    · exact iff_of_false (by rintro ⟨_, ⟨⟩⟩) (by omega)
    split
    · next h => exact iff_of_true ⟨_, rfl⟩ h
    · next h => exact iff_of_false (by rintro ⟨_, ⟨⟩⟩) h
  · rintro _ ⟨⟩ h
    rw [if_pos h]
    rfl
  · rintro _ ⟨⟩ h
    rw [if_neg (by omega), if_pos h]
    rfl
  · rintro _ ⟨⟩ - hcode h
    rw [isOutage_of_not_success hs] at h
    simp only [List.mem_cons, List.not_mem_nil, or_false, not_or] at hcode
    rw [if_neg hcode.2.2, if_neg (by omega), if_neg h]
    rfl
  · rintro _ ⟨⟩ h
    rw [hs] at h
    cases h

/-- A call that goes by the status first, and then by the body, is answered as the exchange says. -/
theorem isSorted_of_readsBody {call : Call} {g : Reply → Except Failure α}
    (hg : ReadsBody wantsBody g) (y : Exchange) :
    IsSorted wantsBody url y
      ((c.heard call y).bind fun reply => checkStatus reply.status url >>= fun _ => g reply) := by
  cases y with
  | failed => exact ⟨iff_of_true ⟨_, rfl⟩ trivial, nofun, nofun, nofun, nofun⟩
  | timedOut => exact ⟨iff_of_true ⟨_, rfl⟩ trivial, nofun, nofun, nofun, nofun⟩
  | reply reply =>
    show IsSorted _ _ _ (checkStatus reply.status url >>= fun _ => g reply)
    cases hs : reply.status.isSuccess with
    | true =>
      rw [checkStatus_eq, if_pos hs]
      exact isSorted_of_success hs (hg reply)
    | false => exact isSorted_of_not_success hs _

theorem wholeBody_cases (c : OriginClient) (call : Call) (reply : Reply) :
    (reply.ending = .complete ∧ c.wholeBody call reply = .ok reply.chunks.flatten) ∨
      (reply.ending ≠ .complete ∧
        ∃ cause, c.wholeBody call reply = .error (.unavailable cause)) := by
  unfold wholeBody
  cases reply.ending with
  | complete => exact .inl ⟨rfl, rfl⟩
  | broken => exact .inr ⟨nofun, _, rfl⟩
  | stalled => exact .inr ⟨nofun, _, rfl⟩

theorem headManifest_isSorted (y : Exchange) (image tag : String) :
    IsSorted false (c.manifestUrl image tag) y (c.headOutcome image tag y) := by
  refine isSorted_of_readsBody (fun reply => ?_) y
  rw [if_neg (fun h => Bool.false_ne_true h.1)]
  exact ⟨_, rfl⟩

theorem fetchManifest_isSorted (y : Exchange) (image tag : String) :
    IsSorted true (c.manifestUrl image tag) y (c.manifestOutcome image tag y) := by
  refine isSorted_of_readsBody (fun reply => ?_) y
  rcases c.wholeBody_cases .manifestBody reply with ⟨hwhole, hbody⟩ | ⟨hcut, cause, hbody⟩
  · rw [if_neg (fun h => h.2 hwhole), hbody]
    exact ⟨_, rfl⟩
  · rw [if_pos ⟨rfl, hcut⟩, hbody]
    exact ⟨cause, rfl⟩

/-- What a stream carries, or what ends it. -/
theorem arrived_bodyStream (c : OriginClient) (reply : Reply) :
    if reply.ending ≠ .complete then IsUnavailable (arrived (c.bodyStream reply))
    else arrived (c.bodyStream reply) = .ok reply.chunks.flatten := by
  unfold bodyStream
  rw [arrived_append]
  cases reply.ending with
  | complete =>
    rw [if_neg (fun h => h rfl)]
    simp [arrived, Except.map]
  | broken =>
    rw [if_pos (by decide)]
    exact ⟨_, rfl⟩
  | stalled =>
    rw [if_pos (by decide)]
    exact ⟨_, rfl⟩

/-- The blob of a call: what arrives of the stream that it gives, if it gives one. -/
theorem fetchBlob_isSorted (y : Exchange) (image : String) (digest : Digest) :
    IsSorted true (c.blobUrl image digest) y ((c.blobOutcome image digest y).bind arrived) := by
  have hreads : ReadsBody true fun reply => arrived (c.bodyStream reply) := by
    intro reply
    have hstream := c.arrived_bodyStream reply
    simp only [true_and]
    split
    · next hcut => rwa [if_pos hcut] at hstream
    · next hwhole =>
      rw [if_neg hwhole] at hstream
      exact ⟨_, hstream⟩
  have houtcome : (c.blobOutcome image digest y).bind arrived =
      (c.heard .blobGet y).bind fun reply =>
        checkStatus reply.status (c.blobUrl image digest) >>= fun _ =>
          arrived (c.bodyStream reply) := by
    cases y with
    | failed => rfl
    | timedOut => rfl
    | reply reply =>
      show (checkStatus reply.status (c.blobUrl image digest) >>= _).bind arrived =
        (checkStatus reply.status (c.blobUrl image digest) >>= _)
      cases checkStatus reply.status (c.blobUrl image digest) <;> rfl
  rw [houtcome]
  exact isSorted_of_readsBody hreads y

/-! ## The token endpoint -/

/-- A call for a token is answered by what its exchange says: an outage, a denial, or what the body
says, which may be a denial, too. -/
structure IsGranted (y : Exchange) (r : Except Failure String) : Prop where
  outage : IsUnavailable r ↔ y.IsOutage true
  refused : ∀ reply, y = .reply reply → reply.status.isSuccess = false → ¬ y.IsOutage true →
    r = .error (.denied (.tokenEndpoint reply.status))
  read : ∀ reply, y = .reply reply → reply.status.isSuccess = true → ¬ y.IsOutage true →
    r = tokenOf reply.chunks.flatten ∧
      ((∃ token, r = .ok token ∧ token ≠ "") ∨ ∃ cause, r = .error (.denied cause))

theorem tokenOf_cases (body : Bytes) :
    (∃ token, tokenOf body = .ok token ∧ token ≠ "") ∨
      ∃ cause, tokenOf body = .error (.denied cause) := by
  unfold tokenOf
  dsimp only
  split
  · split
    · split
      · split
        · exact .inr ⟨_, rfl⟩
        · next hne => exact .inl ⟨_, rfl, hne⟩
      · exact .inr ⟨_, rfl⟩
    · exact .inr ⟨_, rfl⟩
  · exact .inr ⟨_, rfl⟩

theorem tokenOutcome_isGranted (c : OriginClient) (y : Exchange) :
    IsGranted y (c.tokenOutcome y) := by
  cases y with
  | failed => exact ⟨iff_of_true ⟨_, rfl⟩ trivial, nofun, nofun⟩
  | timedOut => exact ⟨iff_of_true ⟨_, rfl⟩ trivial, nofun, nofun⟩
  | reply reply =>
    show IsGranted _ (checkTokenStatus reply.status >>= fun _ =>
      c.wholeBody .tokenResponse reply >>= tokenOf)
    unfold checkTokenStatus
    cases hs : reply.status.isSuccess with
    | true =>
      rw [if_pos rfl]
      show IsGranted _ (c.wholeBody .tokenResponse reply >>= tokenOf)
      rcases c.wholeBody_cases .tokenResponse reply with ⟨hwhole, hbody⟩ | ⟨hcut, cause, hbody⟩
      · have hfine : ¬ (Exchange.reply reply).IsOutage true := by
          rw [isOutage_of_success hs]
          exact fun h => h.2 hwhole
        rw [hbody]
        show IsGranted _ (tokenOf reply.chunks.flatten)
        refine ⟨iff_of_false ?_ hfine, ?_, ?_⟩
        · rintro ⟨cause, h⟩
          rcases tokenOf_cases reply.chunks.flatten with ⟨token, htoken, -⟩ | ⟨cause', htoken⟩
          · rw [htoken] at h
            cases h
          · rw [htoken] at h
            cases h
        · rintro _ ⟨⟩ h
          rw [hs] at h
          cases h
        · rintro _ ⟨⟩ - -
          exact ⟨rfl, tokenOf_cases _⟩
      · have hout : (Exchange.reply reply).IsOutage true := (isOutage_of_success hs).2 ⟨rfl, hcut⟩
        rw [hbody]
        exact ⟨iff_of_true ⟨cause, rfl⟩ hout, fun _ _ _ h => absurd hout h,
          fun _ _ _ h => absurd hout h⟩
    | false =>
      rw [if_neg (by decide)]
      have hiff : isOutage reply.status = true ↔ (Exchange.reply reply).IsOutage true :=
        isOutage_iff.trans (isOutage_of_not_success hs).symm
      split
      · next hout =>
        exact ⟨iff_of_true ⟨_, rfl⟩ (hiff.1 hout), fun _ _ _ h => absurd (hiff.1 hout) h,
          fun _ _ _ h => absurd (hiff.1 hout) h⟩
      · next hout =>
        refine ⟨iff_of_false (by rintro ⟨_, ⟨⟩⟩) (mt hiff.2 hout), ?_, ?_⟩
        · rintro _ ⟨⟩ - -
          rfl
        · rintro _ ⟨⟩ h
          rw [hs] at h
          cases h

/-! ### Tokens in bodies -/

/-- The members of an object give a field a text, or nothing: it is left out or null. It is not
repeated. -/
def GivesText (members : List (Bytes × Json)) (key : String) (value : Option String) : Prop :=
  Json.valuesOf (Bytes.ofText key) members = (value.map Json.text).toList ∨
    (value = none ∧ Json.valuesOf (Bytes.ofText key) members = [.null])

/-- A body is an object that gives the two fields of a token. All its keys are texts. -/
def Offers (body : Bytes) (older newer : Option String) : Prop :=
  ∃ members, Json.parse? body = some (.object members) ∧
    (∀ m ∈ members, (Bytes.text? m.1).isSome = true) ∧
    GivesText members "token" older ∧ GivesText members "access_token" newer

/-- A key of an object is no text, or a string under one of the two names is none. -/
def IsGarbled (members : List (Bytes × Json)) : Prop :=
  (∃ m ∈ members, Bytes.text? m.1 = none) ∨
    ∃ key ∈ ["token", "access_token"], ∃ octets,
      Json.valuesOf (Bytes.ofText key) members = [.string octets] ∧ Bytes.text? octets = none

/-- What the values of an object under a name are read as: no text, a text, or nothing of the
two. -/
def fieldText? : List Json → Option (Option String)
  | [] => some none
  | [.null] => some none
  | [value] => value.text?.map some
  | _ => none

theorem GivesText.fieldText? {members : List (Bytes × Json)} {key : String} {value : Option String}
    (h : GivesText members key value) :
    fieldText? (Json.valuesOf (Bytes.ofText key) members) = some value := by
  rcases h with h | ⟨rfl, h⟩
  · rw [h]
    cases value with
    | none => rfl
    | some t => exact congrArg (Option.map some) (Json.text?_text t)
  · rw [h]
    rfl

/-- What an object says as the body of a reply. The first of the two texts is the
token, unless it is empty. -/
theorem tokenOf_of_object {body : Bytes} {members : List (Bytes × Json)}
    (hparse : Json.parse? body = some (.object members)) :
    tokenOf body =
      if members.all fun m => (Bytes.text? m.1).isSome then
        match fieldText? (Json.valuesOf (Bytes.ofText "token") members),
          fieldText? (Json.valuesOf (Bytes.ofText "access_token") members) with
        | some older, some newer =>
          match (older.or newer).filter (· ≠ "") with
          | some token => .ok token
          | none => .error (.denied .noToken)
        | _, _ => .error (.denied .malformedToken)
      else .error (.denied .malformedToken) := by
  have hobject : (Json.object members).fieldsOrItems? ["token", "access_token"] =
    (Json.object members).fields? ["token", "access_token"] := rfl
  unfold tokenOf
  extract_lets text? malformed
  have hmissing : fieldText? [] = some none := rfl
  have hvalue : ∀ value, fieldText? [value] = text? value := fun value => by cases value <;> rfl
  have hrepeated : ∀ value value' rest, fieldText? (value :: value' :: rest) = none :=
    fun value _ _ => by cases value <;> rfl
  have htoken : ∀ chosen : Option String,
      (match chosen.filter (· ≠ "") with
        | some token => .ok token
        | none => .error (.denied .noToken) : Except Failure String) =
      match chosen with
        | some token => if token = "" then .error (.denied .noToken) else .ok token
        | none => .error (.denied .noToken) := by
    rintro (_ | token)
    · rfl
    · by_cases hempty : token = "" <;> simp [hempty, Option.filter]
  simp only [htoken]
  rw [hparse, Option.bind_some, hobject, Json.fields?]
  by_cases hkeys : members.all (fun m => (Bytes.text? m.1).isSome) = true
  · rw [if_pos hkeys, if_pos hkeys]
    simp only [List.mapM_cons, List.mapM_nil]
    rcases Json.valuesOf (Bytes.ofText "token") members with _ | ⟨older, _ | ⟨_, _⟩⟩
    · rcases Json.valuesOf (Bytes.ofText "access_token") members with _ | ⟨newer, _ | ⟨_, _⟩⟩ <;>
        simp only [hmissing, hvalue, hrepeated] <;> rfl
    · rcases Json.valuesOf (Bytes.ofText "access_token") members with _ | ⟨newer, _ | ⟨_, _⟩⟩
      · rw [hvalue]
        rfl
      · rw [hvalue, hvalue]
        rfl
      · rw [hvalue, hrepeated]
        cases text? older <;> rfl
    · rw [hrepeated]
      rfl
  · rw [if_neg hkeys, if_neg hkeys]

/-- The token of an object: the text of the first field that has one, unless it is empty. -/
theorem tokenOf_of_offers {body : Bytes} {older newer : Option String}
    (h : Offers body older newer) : tokenOf body = match (older.or newer).filter (· ≠ "") with
      | some token => .ok token
      | none => .error (.denied .noToken) := by
  obtain ⟨members, hparse, hkeys, holder, hnewer⟩ := h
  rw [tokenOf_of_object hparse, if_pos (List.all_eq_true.2 hkeys), holder.fieldText?,
    hnewer.fieldText?]

theorem tokenOf_of_isGarbled {body : Bytes} {members : List (Bytes × Json)}
    (hparse : Json.parse? body = some (.object members)) (h : IsGarbled members) :
    tokenOf body = .error (.denied .malformedToken) := by
  rw [tokenOf_of_object hparse]
  split
  · next hkeys =>
    rcases h with ⟨m, hm, hnone⟩ | ⟨key, hkey, octets, hvalue, hnone⟩
    · have hsome := List.all_eq_true.1 hkeys m hm
      rw [hnone] at hsome
      cases hsome
    · have hread : fieldText? (Json.valuesOf (Bytes.ofText key) members) = none := by
        rw [hvalue]
        exact congrArg (Option.map some) hnone
      simp only [List.mem_cons, List.not_mem_nil, or_false] at hkey
      rcases hkey with rfl | rfl
      · rw [hread]
      · rw [hread]
        cases fieldText? (Json.valuesOf (Bytes.ofText "token") members) <;> rfl
  · rfl

/-- The one of two texts that is not empty, the older one if both are. -/
def preferred (older newer : Option String) : Option String :=
  (older.filter (· ≠ "")).or (newer.filter (· ≠ ""))

/-- The older text is there, but empty, and hides the newer one, which is not. -/
def Hides (older newer : Option String) : Prop :=
  older = some "" ∧ ∃ token, newer = some token ∧ token ≠ ""

/-- Of what is offered, the token is the preferred one, unless it is hidden. -/
theorem preferred_iff (older newer : Option String) :
    (older.or newer).filter (· ≠ "") = preferred older newer ↔ ¬ Hides older newer := by
  unfold preferred Hides
  cases older with
  | none => simp
  | some token =>
    by_cases hempty : token = ""
    · cases newer with
      | none => simp [hempty, Option.filter]
      | some token' => by_cases hempty' : token' = "" <;> simp [hempty, hempty', Option.filter]
    · simp [hempty, Option.filter]

theorem filter_of_hides {older newer : Option String} (h : Hides older newer) :
    (older.or newer).filter (· ≠ "") = none := by
  obtain ⟨rfl, -⟩ := h
  rfl

theorem tokenOf_eq_ok_iff {body : Bytes} {older newer : Option String} (h : Offers body older newer)
    (hshown : ¬ Hides older newer) (token : String) :
    tokenOf body = .ok token ↔ preferred older newer = some token := by
  rw [tokenOf_of_offers h, (preferred_iff older newer).2 hshown]
  cases preferred older newer <;> simp

theorem tokenOf_of_hides {body : Bytes} {older newer : Option String} (h : Offers body older newer)
    (hhidden : Hides older newer) : tokenOf body = .error (.denied .noToken) := by
  rw [tokenOf_of_offers h, filter_of_hides hhidden]

/-! ## All calls -/

/-- In every world each call is answered by how its exchange ended: the call for a token, for the
head of a manifest, for a manifest, and for a blob with all that arrives of it. A body that offers a
token under one of its names gives the preferred one; it is only missed where an empty text under
the older name hides it. Objects of strings that are no texts are denials. -/
theorem calls_sorted (c : OriginClient) (w : World) (image tag token : String) (digest : Digest) :
    IsGranted (w.exchange (c.tokenRequest image)) ((c.requestToken image).run.run w).1 ∧
    IsSorted false (c.manifestUrl image tag) (w.exchange (c.manifestRequest .head image tag token))
      ((c.headManifest image tag token).run.run w).1 ∧
    IsSorted true (c.manifestUrl image tag) (w.exchange (c.manifestRequest .get image tag token))
      ((c.fetchManifest image tag token).run.run w).1 ∧
    IsSorted true (c.blobUrl image digest) (w.exchange (c.blobRequest image digest token))
      (((c.fetchBlob image digest token).run.run w).1.bind arrived) ∧
    (∀ body older newer, Offers body older newer →
      (¬ Hides older newer →
        ∀ token, tokenOf body = .ok token ↔ preferred older newer = some token) ∧
      (Hides older newer → tokenOf body = .error (.denied .noToken))) ∧
    ∀ body members, Json.parse? body = some (.object members) → IsGarbled members →
      tokenOf body = .error (.denied .malformedToken) := by
  rw [(c.requestToken_comesTo image w).run, (c.headManifest_comesTo image tag token w).run,
    (c.fetchManifest_comesTo image tag token w).run, (c.fetchBlob_comesTo image digest token w).run]
  exact ⟨tokenOutcome_isGranted c _, headManifest_isSorted _ image tag,
    fetchManifest_isSorted _ image tag, fetchBlob_isSorted _ image digest,
    fun _ _ _ h => ⟨tokenOf_eq_ok_iff h, tokenOf_of_hides h⟩,
    fun _ _ hparse h => tokenOf_of_isGarbled hparse h⟩

/-- The older name with an empty text, and the newer one with a token. -/
theorem calls_sorted_of_hidden_token :
    let c : OriginClient := ⟨"registry", "token", "service", 10, none⟩
    let body := Bytes.ofText "\x7b\"token\":\"\",\"access_token\":\"x\"\x7d"
    let w : World :=
      { clock := fun _ => ⟨0, 0⟩, origin := fun _ _ => .reply { status := .ok, chunks := [body] } }
    Offers body (some "") (some "x") ∧ preferred (some "") (some "x") = some "x" ∧
      ((c.requestToken "nginx").run.run w).1 = .error (.denied .noToken) := by
  intro c body w
  have hparse : Json.parse? body =
      some (.object [(Bytes.ofText "token", .text ""),
        (Bytes.ofText "access_token", .text "x")]) := by
    rfl
  have hoffers : Offers body (some "") (some "x") := by
    refine ⟨_, hparse, by decide +kernel, .inl ?_, .inl ?_⟩ <;> rfl
  obtain ⟨hgranted, -, -, -, htoken, -⟩ := calls_sorted c w "nginx" "latest" "" (Digest.of [])
  have hhidden : Hides (some "") (some "x") := ⟨rfl, "x", rfl, by decide⟩
  refine ⟨hoffers, rfl, ?_⟩
  have hexchange : w.exchange (c.tokenRequest "nginx") =
    .reply { status := .ok, chunks := [body] } := rfl
  have hfine : ¬ (w.exchange (c.tokenRequest "nginx")).IsOutage true := by
    rw [hexchange, isOutage_of_success rfl]
    exact fun h => h.2 rfl
  obtain ⟨hread, -⟩ := hgranted.read _ hexchange rfl hfine
  rw [hread]
  exact (htoken body _ _ hoffers).2 hhidden

end OriginClient

end PullThrough
