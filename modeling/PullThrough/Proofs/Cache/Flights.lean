import PullThrough.Cache.Flights
import PullThrough.Proofs.Cache.Download
/-
  Callers that share downloads.

  Any number of callers want blobs, and what they and their downloads do may be interleaved in any
  way. `Flights.requests` tells on whose behalf the origin is asked. The invariant of a run has two
  halves: what is known of each flight (`Flights.FlightIsSound`), which rests on what a download
  does among others (`Cache.downloadBlob_amid`), and what is known of each caller
  (`Flights.CallerIsSound`). Two flights of one key never overlap, so the file of a blob changes
  only while its one flight is under way, and what this flight finds out stays true.

  Both halves are kept by every move (`Flights.IsSound.move`) and thus by every run.
-/
namespace PullThrough

open Job (Amid Sends)
open BlobRef (Others Downloads Outcome IsStored)

theorem World.perform_requests (w : World) (s : Step) :
    (w.perform s).2.requests = s.request?.toList ++ w.requests := by
  cases s with
  | send r => rfl
  | makeFolders p => exact write_requests w _
  | create p => exact write_requests w _
  | append p data => exact write_requests w _
  | sync p => exact write_requests w _
  | rename p q => exact write_requests w _
  | _ => rfl

namespace Flight

/-- The request that the next step of a flight sends. -/
def request? (f : Flight) : Option OriginRequest :=
  match f.stage with
  | .flying (.step s _) => s.request?
  | _ => none

/-- What became of a flight that is over. -/
def outcome? (f : Flight) : Option (Except Failure BlobRecord) :=
  match f.stage with
  | .flying _ => none
  | .unlisted outcome => some outcome
  | .published outcome => some outcome

@[simp] theorem advance_key (f : Flight) (w : World) : (f.advance w).1.key = f.key := by
  unfold advance
  split <;> rfl

@[simp] theorem advance_passengers (f : Flight) (w : World) :
    (f.advance w).1.passengers = f.passengers := by
  unfold advance
  split <;> rfl

/-- A flight that is off the list stays off it. -/
theorem advance_isListed {f : Flight} {w : World} (h : f.isListed = false) :
    (f.advance w).1.isListed = false := by
  unfold advance
  split <;> simp_all [isListed]

/-- The outcome of a flight that is over does not change. -/
theorem advance_outcome? {f : Flight} {w : World} (h : f.isListed = false) :
    (f.advance w).1.outcome? = f.outcome? := by
  unfold advance
  split <;> simp_all [isListed, outcome?]

/-- A flight that is over asks for nothing. -/
theorem advance_of_not_isListed {f : Flight} {w : World} (h : f.isListed = false) :
    (f.advance w).2 = w ∧ f.request? = none := by
  unfold advance request?
  split <;> simp_all [isListed]

theorem published?_eq_some {f : Flight} {outcome : Except Failure BlobRecord} :
    f.published? = some outcome ↔ f.stage = .published outcome := by
  unfold published?
  split <;> simp_all

theorem advance_published {f : Flight} {w : World} {outcome : Except Failure BlobRecord}
    (h : f.stage = .published outcome) : (f.advance w).1 = f := by
  unfold advance
  split <;> simp_all

theorem advance_requests (f : Flight) (w : World) :
    (f.advance w).2.requests = f.request?.toList ++ w.requests := by
  obtain ⟨key, stage, passengers⟩ := f
  cases stage with
  | flying download =>
    cases download with
    | done outcome => rfl
    | step s next => exact World.perform_requests w s
  | unlisted outcome => rfl
  | published outcome => rfl

end Flight

namespace Flights

/-! ## Requests by flight -/

/-- The request that a move sends, and the flight that it is sent for. -/
def request? (s : Flights) : FlightMove → Option (Nat × OriginRequest)
  | .fly f => (s.flights[f]?.bind Flight.request?).map fun r => (f, r)
  | _ => none

/-- The requests that some moves send, by flight, the last one first. -/
def requests (s : Flights) : List FlightMove → List (Nat × OriginRequest)
  | [] => []
  | m :: rest => (s.move m).requests rest ++ (s.request? m).toList

/-- The requests of one flight. -/
def ofFlight (log : List (Nat × OriginRequest)) (f : Nat) : List OriginRequest :=
  (log.filter fun x => x.1 == f).map Prod.snd

@[simp] theorem ofFlight_nil (f : Nat) : ofFlight [] f = [] := rfl

theorem ofFlight_cons_self (log : List (Nat × OriginRequest)) (f : Nat) (r : OriginRequest) :
    ofFlight ((f, r) :: log) f = r :: ofFlight log f := by
  simp [ofFlight]

theorem ofFlight_cons_of_ne {log : List (Nat × OriginRequest)} {f g : Nat} (r : OriginRequest)
    (h : f ≠ g) : ofFlight ((f, r) :: log) g = ofFlight log g := by
  simp [ofFlight, h]

/-! ## The invariant -/

/-- How far a flight has got with its requests: those it sent, the last one first, and what may
follow. -/
inductive Sent (c : Cache) (r : BlobRef) :
    List OriginRequest → List (OriginRequest → Prop) → Prop
  | nothing : Sent c r [] (c.downloadPlan r)
  | token : Sent c r [c.origin.tokenRequest r.image] (c.downloadPlan r).tail
  | blob (token : String) : Sent c r
      [c.origin.blobRequest r.image r.digest token, c.origin.tokenRequest r.image] []

theorem Sent.next {c : Cache} {r : BlobRef} {sent : List OriginRequest} {q : OriginRequest}
    {P : OriginRequest → Prop} {rest : List (OriginRequest → Prop)} (h : Sent c r sent (P :: rest))
    (hq : P q) : Sent c r (q :: sent) rest := by
  cases h with
  | nothing =>
    obtain rfl : q = c.origin.tokenRequest r.image := hq
    exact .token
  | token =>
    obtain ⟨token, rfl⟩ := hq
    exact .blob token

/-- What an outcome says of the disk from then on. -/
def Told (s : Store) (r : BlobRef) (d : Disk) : Except Failure BlobRecord → Prop
  | .ok record => s.blobAt r.group r.image r.digest d = .ok (some record)
  | .error failure => failure ≠ .cache .closedDownload

/-- What is known of a flight: a download under way goes on as it should whatever the other flights
do, and what is told stays true. -/
structure FlightIsSound (c : Cache) (d : Disk) (sent : List OriginRequest) (r : BlobRef)
    (flight : Flight) : Prop where
  isValid : r.IsValid
  key : flight.key = r.key
  stage : match flight.stage with
    | .flying download =>
      download.Amid (r.Others c.store) (r.Downloads c.store) d (r.Outcome c.store)
    | .unlisted outcome => Told c.store r d outcome
    | .published outcome => Told c.store r d outcome
  requests : ∃ rest, Sent c r sent rest ∧
    match flight.stage with
    | .flying download => download.Sends rest fun answer _ => Cache.IsTold answer
    | _ => True

variable {c : Cache} {d d' : Disk} {sent : List OriginRequest} {r : BlobRef} {flight : Flight}
  {w : World}

/-- A flight whose blob is stored leaves the disk alone and asks for nothing. -/
theorem FlightIsSound.quiet (h : FlightIsSound c w.disk sent r flight)
    (hs : r.IsStored c.store w.disk) :
    (flight.advance w).2.disk = w.disk ∧ flight.request? = none := by
  obtain ⟨key, stage, passengers⟩ := flight
  cases stage with
  | flying download =>
    cases download with
    | done outcome => exact ⟨rfl, rfl⟩
    | step s next =>
      obtain ⟨hd, hlocal⟩ := (h.stage w (Others.refl _ _ _)).1.2 hs
      exact ⟨hd, Step.request?_of_isLocal hlocal⟩
  | unlisted outcome => exact ⟨rfl, rfl⟩
  | published outcome => exact ⟨rfl, rfl⟩

/-- A flight changes the place of its blob only. -/
theorem FlightIsSound.change (h : FlightIsSound c w.disk sent r flight) :
    (flight.advance w).2.disk = w.disk ∨
      c.store.Change (Eq r.place) w.disk (flight.advance w).2.disk := by
  obtain ⟨key, stage, passengers⟩ := flight
  cases stage with
  | flying download =>
    cases download with
    | done outcome => exact .inl rfl
    | step s next => exact (h.stage w (Others.refl _ _ _)).1.1
  | unlisted outcome => exact .inl rfl
  | published outcome => exact .inl rfl

theorem FlightIsSound.isKept (h : FlightIsSound c w.disk sent r flight)
    (hd : c.store.IsKept w.disk) : c.store.IsKept (flight.advance w).2.disk := by
  rcases h.change with hs | hc
  · rw [hs]
    exact hd
  · exact hd.change (hc.mono (by rintro _ rfl; exact h.isValid.isFair))

/-- A flight one step further. -/
theorem FlightIsSound.advance (h : FlightIsSound c w.disk sent r flight) :
    FlightIsSound c (flight.advance w).2.disk (flight.request?.toList ++ sent) r
      (flight.advance w).1 := by
  obtain ⟨rest, hsent, hrest⟩ := h.requests
  obtain ⟨key, stage, passengers⟩ := flight
  cases stage with
  | flying download =>
    cases download with
    | done outcome =>
      refine ⟨h.isValid, h.key, ?_, rest, hsent, trivial⟩
      have hstage : r.Outcome c.store outcome w.disk := h.stage
      cases outcome with
      | ok record => exact hstage
      | error failure => exact fun hf => hrest (by rw [hf])
    | step s next =>
      refine ⟨h.isValid, h.key, (h.stage w (Others.refl _ _ _)).2, ?_⟩
      show ∃ rest, Sent c r (s.request?.toList ++ sent) rest ∧
        (next (w.perform s).1).Sends rest fun answer _ => Cache.IsTold answer
      dsimp only at hrest
      cases hs : s.request? with
      | none =>
        rw [Job.sends_step_of_local hs] at hrest
        exact ⟨rest, hsent, hrest _⟩
      | some q =>
        rw [Job.sends_step_of_request hs] at hrest
        obtain ⟨P, rest', rfl, hq, hnext⟩ := hrest
        exact ⟨rest', hsent.next hq, hnext _⟩
  | unlisted outcome => exact ⟨h.isValid, h.key, h.stage, rest, hsent, trivial⟩
  | published outcome => exact ⟨h.isValid, h.key, h.stage, rest, hsent, trivial⟩

/-- What is stored stays stored while flights go on. -/
theorem FlightIsSound.blobAt (h : FlightIsSound c w.disk sent r flight) {r' : BlobRef}
    (hr' : r'.IsValid) {record : BlobRecord}
    (hb : c.store.blobAt r'.group r'.image r'.digest w.disk = .ok (some record)) :
    c.store.blobAt r'.group r'.image r'.digest (flight.advance w).2.disk = .ok (some record) := by
  by_cases hr : r' = r
  · subst hr
    rw [(h.quiet ⟨record, hb⟩).1]
    exact hb
  · rcases h.change with hs | hc
    · rw [hs]
      exact hb
    · exact hr'.blobAt_of_spares (BlobRef.spares_of_change hr hc) hb

theorem Told.stays {outcome : Except Failure BlobRecord} (h : Told c.store r d outcome)
    (hd : ∀ record, c.store.blobAt r.group r.image r.digest d = .ok (some record) →
      c.store.blobAt r.group r.image r.digest d' = .ok (some record)) :
    Told c.store r d' outcome := by
  cases outcome with
  | ok record => exact hd record h
  | error failure => exact h

/-- What is known of a flight stays true when another flight goes on. -/
theorem FlightIsSound.amid {sent' : List OriginRequest} {r' : BlobRef} {flight' : Flight}
    (h' : FlightIsSound c w.disk sent' r' flight') (h : FlightIsSound c w.disk sent r flight)
    (hd : c.store.IsKept w.disk)
    (hother : flight'.key = flight.key → flight'.isListed = false ∨ flight.isListed = false) :
    FlightIsSound c (flight.advance w).2.disk sent' r' flight' := by
  refine ⟨h'.isValid, h'.key, ?_, h'.requests⟩
  have hstays := fun (record : BlobRecord)
      (hb : c.store.blobAt r'.group r'.image r'.digest w.disk = .ok (some record)) =>
    h.blobAt h'.isValid hb
  have hstage := h'.stage
  cases hs : flight'.stage with
  | unlisted outcome =>
    rw [hs] at hstage
    exact hstage.stays hstays
  | published outcome =>
    rw [hs] at hstage
    exact hstage.stays hstays
  | flying download =>
    rw [hs] at hstage
    dsimp only at hstage ⊢
    by_cases hr : r' = r
    · -- the other flight is over, as this one is under way
      have hover : flight.isListed = false := by
        refine (hother (by rw [h'.key, h.key, hr])).resolve_left ?_
        simp [Flight.isListed, hs]
      rw [(Flight.advance_of_not_isListed hover).1]
      exact hstage
    · rcases h.change with hsame | hc
      · rw [hsame]
        exact hstage
      · have hothers := BlobRef.others_of_change (r := r') h.isValid hr hc
        refine hstage.later (fun _ _ _ => BlobRef.Others.trans) ?_ hothers
        rintro (failure | record) hq
        · exact fun hst =>
            hq (h'.isValid.isStored_of_sameFile hd.isTidy hothers.2.target hst)
        · exact hstays record hq

/-- What is known of all flights. -/
structure FlightsAreSound (c : Cache) (d : Disk) (log : List (Nat × OriginRequest))
    (flights : List Flight) : Prop where
  isKept : c.store.IsKept d
  flight : ∀ {f : Nat} {flight : Flight}, flights[f]? = some flight →
    ∃ r, FlightIsSound c d (ofFlight log f) r flight
  /-- When a flight of a key starts, the earlier ones are over. -/
  inTurn : ∀ {f f' : Nat} {flight flight' : Flight}, f < f' → flights[f]? = some flight →
    flights[f']? = some flight' → flight.key = flight'.key → flight.isListed = false
  /-- After a flight that ended well no other flight of the key asks for anything. -/
  silent : ∀ {f f' : Nat} {flight flight' : Flight} {record : BlobRecord}, f < f' →
    flights[f]? = some flight → flights[f']? = some flight' → flight.key = flight'.key →
    flight.outcome? = some (.ok record) → ofFlight log f' = []
  logged : ∀ {f : Nat} {q : OriginRequest}, (f, q) ∈ log → f < flights.length

variable {log : List (Nat × OriginRequest)} {flights : List Flight} {f : Nat}

theorem ofFlight_request (log : List (Nat × OriginRequest)) (flight : Flight) (f g : Nat) :
    ofFlight ((flight.request?.map fun r => (f, r)).toList ++ log) g =
      if f = g then flight.request?.toList ++ ofFlight log g else ofFlight log g := by
  cases flight.request? with
  | none => simp
  | some q =>
    split
    · next h => subst h; exact ofFlight_cons_self log f q
    · next h => exact ofFlight_cons_of_ne q h

/-- Of two flights of one key only one is listed. -/
theorem FlightsAreSound.one (h : FlightsAreSound c d log flights) {f f' : Nat}
    {flight flight' : Flight} (hf : flights[f]? = some flight) (hf' : flights[f']? = some flight')
    (hne : f ≠ f') (hkey : flight.key = flight'.key) :
    flight.isListed = false ∨ flight'.isListed = false := by
  rcases Nat.lt_or_gt_of_ne hne with hlt | hlt
  · exact .inl (h.inTurn hlt hf hf' hkey)
  · exact .inr (h.inTurn hlt hf' hf hkey.symm)

/-- A flight that ended well has left its blob stored. -/
theorem FlightIsSound.isStored (h : FlightIsSound c d sent r flight) {record : BlobRecord}
    (ho : flight.outcome? = some (.ok record)) : r.IsStored c.store d := by
  obtain ⟨key, stage, passengers⟩ := flight
  cases stage with
  | flying download => cases ho
  | unlisted outcome => cases ho; exact ⟨record, h.stage⟩
  | published outcome => cases ho; exact ⟨record, h.stage⟩

/-- Flights of one key are of one blob. -/
theorem FlightIsSound.ref_eq {sent' : List OriginRequest} {r' : BlobRef} {flight' : Flight}
    (h : FlightIsSound c d sent r flight) (h' : FlightIsSound c d' sent' r' flight')
    (hkey : flight.key = flight'.key) : r = r' :=
  BlobRef.key_inj h.isValid.isGroup h'.isValid.isGroup (by rw [← h.key, ← h'.key, hkey])

/-- A flight of the list after one was replaced. -/
theorem getElem?_replace {g : Nat} {new flight' : Flight} (hf : flights[f]? = some flight)
    (hg : (flights.set f new)[g]? = some flight') :
    g = f ∧ flight' = new ∨ g ≠ f ∧ flights[g]? = some flight' := by
  have hlt : f < flights.length := (List.getElem?_eq_some_iff.1 hf).1
  rw [List.getElem?_set] at hg
  split at hg
  · next hfg => exact .inl ⟨hfg.symm, by simpa [hlt] using hg.symm⟩
  · next hfg => exact .inr ⟨fun hc => hfg hc.symm, hg⟩

theorem exists_of_advance {g : Nat} {flight' : Flight} (hf : flights[f]? = some flight)
    (hg : (flights.set f (flight.advance w).1)[g]? = some flight') :
    ∃ old, flights[g]? = some old ∧ flight'.key = old.key ∧
      (old.isListed = false → flight'.isListed = false ∧ flight'.outcome? = old.outcome?) := by
  rcases getElem?_replace hf hg with ⟨rfl, rfl⟩ | ⟨-, hg⟩
  · exact ⟨flight, hf, Flight.advance_key _ _, fun hl =>
      ⟨Flight.advance_isListed hl, Flight.advance_outcome? hl⟩⟩
  · exact ⟨flight', hg, rfl, fun hl => ⟨hl, rfl⟩⟩

/-- One flight goes on. -/
theorem FlightsAreSound.fly (h : FlightsAreSound c w.disk log flights)
    (hf : flights[f]? = some flight) :
    FlightsAreSound c (flight.advance w).2.disk
      ((flight.request?.map fun r => (f, r)).toList ++ log)
      (flights.set f (flight.advance w).1) := by
  obtain ⟨r, hr⟩ := h.flight hf
  refine ⟨hr.isKept h.isKept, ?_, ?_, ?_, ?_⟩
  · intro g flight' hg
    rw [ofFlight_request]
    rcases getElem?_replace hf hg with ⟨rfl, rfl⟩ | ⟨hne, hg⟩
    · rw [if_pos rfl]
      exact ⟨r, hr.advance⟩
    · rw [if_neg hne.symm]
      obtain ⟨r', hr'⟩ := h.flight hg
      exact ⟨r', hr'.amid hr h.isKept (h.one hg hf hne)⟩
  · intro g g' flight₁ flight₂ hlt hg hg' hkey
    obtain ⟨old₁, hold₁, hkey₁, hover⟩ := exists_of_advance hf hg
    obtain ⟨old₂, hold₂, hkey₂, -⟩ := exists_of_advance hf hg'
    exact (hover (h.inTurn hlt hold₁ hold₂ (by rw [← hkey₁, hkey, hkey₂]))).1
  · intro g g' flight₁ flight₂ record hlt hg hg' hkey ho
    obtain ⟨old₁, hold₁, hkey₁, hover⟩ := exists_of_advance hf hg
    obtain ⟨old₂, hold₂, hkey₂, -⟩ := exists_of_advance hf hg'
    have hkeys : old₁.key = old₂.key := by rw [← hkey₁, hkey, hkey₂]
    rw [(hover (h.inTurn hlt hold₁ hold₂ hkeys)).2] at ho
    rw [ofFlight_request, h.silent hlt hold₁ hold₂ hkeys ho]
    split
    · -- the blob of the flight that goes on is stored, so it asks for nothing
      next hfg =>
        subst hfg
        rw [hf] at hold₂
        obtain rfl : flight = old₂ := by simpa using hold₂
        obtain ⟨r₁, hr₁⟩ := h.flight hold₁
        obtain rfl := hr₁.ref_eq hr hkeys
        rw [(hr.quiet (hr₁.isStored ho)).2]
        rfl
    · rfl
  · intro g q hq
    rw [List.length_set]
    rcases List.mem_append.1 hq with hq | hq
    · obtain ⟨q', -, hq'⟩ := Option.map_eq_some_iff.1 (Option.mem_toList.1 hq)
      obtain ⟨rfl, -⟩ := Prod.mk.inj hq'
      exact (List.getElem?_eq_some_iff.1 hf).1
    · exact h.logged hq

/-- A flight of the list after one was added. -/
theorem getElem?_add {g : Nat} {new flight' : Flight} (hg : (flights ++ [new])[g]? = some flight') :
    flights[g]? = some flight' ∨ g = flights.length ∧ flight' = new := by
  rw [List.getElem?_append] at hg
  split at hg
  · exact .inl hg
  · obtain ⟨hlt, hnew⟩ := List.getElem?_eq_some_iff.1 hg
    simp only [List.length_singleton, Nat.lt_one_iff] at hlt
    refine .inr ⟨by omega, ?_⟩
    rw [← hnew]
    simp

/-- One flight more starts, of a key that has none under way. -/
theorem FlightsAreSound.start (h : FlightsAreSound c d log flights) (hr : r.IsValid) (i : Nat)
    (hover : ∀ flight ∈ flights, flight.key = r.key → flight.isListed = false) :
    FlightsAreSound c d log
      (flights ++ [⟨r.key, .flying (c.downloadBlob r.group r.image r.digest).run, [i]⟩]) := by
  have hnew : ofFlight log flights.length = [] := by
    rw [ofFlight, List.map_eq_nil_iff, List.filter_eq_nil_iff]
    rintro ⟨g, q⟩ hq hg
    have := h.logged hq
    simp only [beq_iff_eq] at hg
    omega
  refine ⟨h.isKept, ?_, ?_, ?_, ?_⟩
  · intro g flight hg
    rcases getElem?_add hg with hg | ⟨rfl, rfl⟩
    · exact h.flight hg
    · rw [hnew]
      exact ⟨r, hr, rfl, c.downloadBlob_amid hr h.isKept, _, .nothing, c.downloadBlob_sends r⟩
  · intro g g' flight flight' hlt hg hg' hkey
    rcases getElem?_add hg with hg | ⟨rfl, rfl⟩
    · rcases getElem?_add hg' with hg' | ⟨rfl, rfl⟩
      · exact h.inTurn hlt hg hg' hkey
      · exact hover flight (List.mem_of_getElem? hg) hkey
    · have := (List.getElem?_eq_some_iff.1 hg').1
      simp only [List.length_append, List.length_singleton] at this
      omega
  · intro g g' flight flight' record hlt hg hg' hkey ho
    rcases getElem?_add hg' with hg' | ⟨rfl, rfl⟩
    · rcases getElem?_add hg with hg | ⟨rfl, rfl⟩
      · exact h.silent hlt hg hg' hkey ho
      · cases ho
    · exact hnew
  · intro g q hq
    rw [List.length_append]
    have := h.logged hq
    omega

/-- One passenger more boards a flight. -/
theorem FlightsAreSound.board (h : FlightsAreSound c d log flights)
    (hf : flights[f]? = some flight) (i : Nat) :
    FlightsAreSound c d log
      (flights.set f { flight with passengers := i :: flight.passengers }) := by
  have hback : ∀ {g : Nat} {flight' : Flight},
      (flights.set f { flight with passengers := i :: flight.passengers })[g]? = some flight' →
      ∃ old, flights[g]? = some old ∧ flight'.key = old.key ∧ flight'.stage = old.stage := by
    intro g flight' hg
    rcases getElem?_replace hf hg with ⟨rfl, rfl⟩ | ⟨-, hg⟩
    · exact ⟨flight, hf, rfl, rfl⟩
    · exact ⟨flight', hg, rfl, rfl⟩
  refine ⟨h.isKept, ?_, ?_, ?_, ?_⟩
  · intro g flight' hg
    obtain ⟨old, hold, hkey, hstage⟩ := hback hg
    obtain ⟨r, hr⟩ := h.flight hold
    exact ⟨r, hr.isValid, by rw [hkey, hr.key], by rw [hstage]; exact hr.stage,
      by rw [hstage]; exact hr.requests⟩
  · intro g g' flight₁ flight₂ hlt hg hg' hkey
    obtain ⟨old₁, hold₁, hkey₁, hstage₁⟩ := hback hg
    obtain ⟨old₂, hold₂, hkey₂, -⟩ := hback hg'
    have := h.inTurn hlt hold₁ hold₂ (by rw [← hkey₁, hkey, hkey₂])
    rwa [Flight.isListed, hstage₁, ← Flight.isListed]
  · intro g g' flight₁ flight₂ record hlt hg hg' hkey ho
    obtain ⟨old₁, hold₁, hkey₁, hstage₁⟩ := hback hg
    obtain ⟨old₂, hold₂, hkey₂, -⟩ := hback hg'
    rw [Flight.outcome?, hstage₁, ← Flight.outcome?] at ho
    exact h.silent hlt hold₁ hold₂ (by rw [← hkey₁, hkey, hkey₂]) ho
  · intro g q hq
    rw [List.length_set]
    exact h.logged hq

/-! ## Callers -/

/-- What a look into the cache comes to. -/
def LookedUp (s : Store) (r : BlobRef) (d : Disk) : Except Failure (Option BlobRecord) → Prop
  | .ok (some record) => s.blobAt r.group r.image r.digest d = .ok (some record)
  | .ok none => True
  | .error failure => failure = .cache (.statBlob (s.blobPath r.group r.image r.digest).text)

/-- What a caller is told: what it found in the cache itself, that it could not look there, or the
outcome of a flight of its own key that it has boarded. -/
inductive Answers (s : Store) (d : Disk) (flights : List Flight) (i : Nat) (r : BlobRef) :
    Except Failure ResolvedBlob → Prop
  | found {record : BlobRecord}
      (hb : s.blobAt r.group r.image r.digest d = .ok (some record)) :
      Answers s d flights i r (.ok ⟨record, .hit⟩)
  | unreadable :
      Answers s d flights i r
        (.error (.cache (.statBlob (s.blobPath r.group r.image r.digest).text)))
  | flown {f : Nat} {flight : Flight} {outcome : Except Failure BlobRecord}
      (hf : flights[f]? = some flight) (hkey : flight.key = r.key) (hi : i ∈ flight.passengers)
      (ho : flight.published? = some outcome) :
      Answers s d flights i r (outcome.map fun record => ⟨record, .miss⟩)

/-- What is known of a caller. -/
def CallerIsSound (c : Cache) (d : Disk) (flights : List Flight) (i : Nat) (r : BlobRef) :
    Caller → Prop
  | .looking key lookup download =>
    key = r.key ∧ download = (c.downloadBlob r.group r.image r.digest).run ∧
      (lookup = (c.store.blob r.group r.image r.digest).run ∨
        ∃ found, lookup = .done found ∧ LookedUp c.store r d found) ∧
      ∀ flight ∈ flights, i ∉ flight.passengers
  | .joining key download =>
    key = r.key ∧ download = (c.downloadBlob r.group r.image r.digest).run ∧
      ∀ flight ∈ flights, i ∉ flight.passengers
  | .waiting f => ∃ flight, flights[f]? = some flight ∧ flight.key = r.key ∧ i ∈ flight.passengers
  | .answered answer => Answers c.store d flights i r answer
  | .gone => True

/-- What a caller sees of the flights when they change: those that it has boarded stay what they
are, and it is taken aboard no other one. -/
structure Evolve (i : Nat) (flights flights' : List Flight) : Prop where
  stays : ∀ {f : Nat} {flight : Flight}, flights[f]? = some flight →
    ∃ flight', flights'[f]? = some flight' ∧ flight'.key = flight.key ∧
      (i ∈ flight.passengers → i ∈ flight'.passengers) ∧
      ∀ outcome, flight.published? = some outcome → flight'.published? = some outcome
  was : ∀ {f : Nat} {flight' : Flight}, flights'[f]? = some flight' → i ∈ flight'.passengers →
    ∃ flight, flights[f]? = some flight ∧ i ∈ flight.passengers

variable {i : Nat} {flights' : List Flight} {caller : Caller}

theorem Evolve.replace {new : Flight} (hf : flights[f]? = some flight) (hkey : new.key = flight.key)
    (hi : i ∈ new.passengers ↔ i ∈ flight.passengers)
    (ho : ∀ outcome, flight.published? = some outcome → new.published? = some outcome) :
    Evolve i flights (flights.set f new) where
  stays {g flight'} hg := by
    by_cases hgf : f = g
    · subst hgf
      rw [hf] at hg
      obtain rfl : flight = flight' := by simpa using hg
      refine ⟨new, ?_, hkey, hi.2, ho⟩
      rw [List.getElem?_set_self (List.getElem?_eq_some_iff.1 hf).1]
    · exact ⟨flight', by rw [List.getElem?_set_ne hgf, hg], rfl, id, fun _ h => h⟩
  was {g flight'} hg hm := by
    rcases getElem?_replace hf hg with ⟨rfl, rfl⟩ | ⟨-, hg⟩
    · exact ⟨flight, hf, hi.1 hm⟩
    · exact ⟨flight', hg, hm⟩

theorem Evolve.add {new : Flight} (hi : i ∉ new.passengers) :
    Evolve i flights (flights ++ [new]) where
  stays {g flight} hg := by
    refine ⟨flight, ?_, rfl, id, fun _ h => h⟩
    rw [List.getElem?_append_left (List.getElem?_eq_some_iff.1 hg).1, hg]
  was {g flight'} hg hm := by
    rcases getElem?_add hg with hg | ⟨-, rfl⟩
    · exact ⟨flight', hg, hm⟩
    · exact absurd hm hi

theorem Evolve.ashore (h : Evolve i flights flights')
    (hi : ∀ flight ∈ flights, i ∉ flight.passengers) :
    ∀ flight ∈ flights', i ∉ flight.passengers := by
  intro flight' hm hi'
  obtain ⟨f, hf⟩ := List.mem_iff_getElem?.1 hm
  obtain ⟨flight, hflight, hp⟩ := h.was hf hi'
  exact hi flight (List.mem_of_getElem? hflight) hp

/-- What is known of a caller stays true while others go on. -/
theorem CallerIsSound.evolve (h : CallerIsSound c d flights i r caller)
    (hev : Evolve i flights flights')
    (hd : ∀ record, c.store.blobAt r.group r.image r.digest d = .ok (some record) →
      c.store.blobAt r.group r.image r.digest d' = .ok (some record)) :
    CallerIsSound c d' flights' i r caller := by
  cases caller with
  | looking key lookup download =>
    obtain ⟨hkey, hdown, hlookup, hi⟩ := h
    refine ⟨hkey, hdown, ?_, hev.ashore hi⟩
    rcases hlookup with hl | ⟨found, hl, hfound⟩
    · exact .inl hl
    · refine .inr ⟨found, hl, ?_⟩
      rcases found with failure | (_ | record)
      · exact hfound
      · trivial
      · exact hd record hfound
  | joining key download => exact ⟨h.1, h.2.1, hev.ashore h.2.2⟩
  | waiting f =>
    obtain ⟨flight, hf, hkey, hi⟩ := h
    obtain ⟨flight', hf', hkey', hi', -⟩ := hev.stays hf
    exact ⟨flight', hf', hkey'.trans hkey, hi' hi⟩
  | answered answer =>
    cases h with
    | found hb => exact .found (hd _ hb)
    | unreadable => exact .unreadable
    | flown hf hkey hi ho =>
      obtain ⟨flight', hf', hkey', hi', ho'⟩ := hev.stays hf
      exact .flown hf' (hkey'.trans hkey) (hi' hi) (ho' _ ho)
  | gone => trivial

/-- What is known of all callers, by the blobs that they want. -/
structure CallersAreSound (c : Cache) (wants : List BlobRef) (d : Disk) (flights : List Flight)
    (callers : List Caller) : Prop where
  caller : ∀ {i : Nat} {caller : Caller}, callers[i]? = some caller →
    ∃ r, wants[i]? = some r ∧ CallerIsSound c d flights i r caller
  /-- Nobody boards two flights. -/
  oneFlight : ∀ {i f f' : Nat} {flight flight' : Flight}, flights[f]? = some flight →
    flights[f']? = some flight' → i ∈ flight.passengers → i ∈ flight'.passengers → f = f'

variable {wants : List BlobRef} {callers : List Caller}

/-- Flights go on. -/
theorem CallersAreSound.evolve (h : CallersAreSound c wants d flights callers)
    (hev : ∀ i, Evolve i flights flights')
    (hd : ∀ r ∈ wants, ∀ record, c.store.blobAt r.group r.image r.digest d = .ok (some record) →
      c.store.blobAt r.group r.image r.digest d' = .ok (some record)) :
    CallersAreSound c wants d' flights' callers where
  caller {i caller} hi := by
    obtain ⟨r, hr, hcaller⟩ := h.caller hi
    exact ⟨r, hr, hcaller.evolve (hev i) (hd r (List.mem_of_getElem? hr))⟩
  oneFlight {i f f' flight flight'} hf hf' hi hi' := by
    obtain ⟨old, hold, hm⟩ := (hev i).was hf hi
    obtain ⟨old', hold', hm'⟩ := (hev i).was hf' hi'
    exact h.oneFlight hold hold' hm hm'

/-- One caller becomes another one, and nothing else changes. -/
theorem CallersAreSound.set (h : CallersAreSound c wants d flights callers) {new : Caller}
    (hi : callers[i]? = some caller)
    (hnew : ∀ r, wants[i]? = some r → CallerIsSound c d flights i r caller →
      CallerIsSound c d flights i r new) :
    CallersAreSound c wants d flights (callers.set i new) where
  caller {j caller'} hj := by
    rw [List.getElem?_set] at hj
    split at hj
    · next hij =>
      subst hij
      obtain ⟨r, hr, hcaller⟩ := h.caller hi
      rw [if_pos (List.getElem?_eq_some_iff.1 hi).1] at hj
      obtain rfl : new = caller' := by simpa using hj
      exact ⟨r, hr, hnew r hr hcaller⟩
    · exact h.caller hj
  oneFlight := h.oneFlight

/-! ## One move -/

/-- A caller boards the flight of its key that is under way, or a new one if there is none. -/
theorem join_cases (flights : List Flight) (i : Nat) (key : String)
    (download : Job (Except Failure BlobRecord)) :
    (∃ f flight, flights[f]? = some flight ∧ flight.isListed = true ∧ flight.key = key ∧
        join flights i key download =
          (f, flights.set f { flight with passengers := i :: flight.passengers })) ∨
      (∀ flight ∈ flights, flight.key = key → flight.isListed = false) ∧
        join flights i key download =
          (flights.length, flights ++ [⟨key, .flying download, [i]⟩]) := by
  unfold join
  cases hf : flights.findIdx? fun f => f.isListed && f.key == key with
  | none =>
    refine .inr ⟨fun flight hm hkey => ?_, rfl⟩
    have := List.findIdx?_eq_none_iff.1 hf flight hm
    simpa [hkey] using this
  | some f =>
    obtain ⟨hlt, hp, -⟩ := List.findIdx?_eq_some_iff_getElem.1 hf
    simp only [Bool.and_eq_true, beq_iff_eq] at hp
    refine .inl ⟨f, flights[f], List.getElem?_eq_getElem hlt, hp.1, hp.2, ?_⟩
    refine Prod.ext rfl (List.ext_getElem? fun g => ?_)
    rw [List.getElem?_modify, List.getElem?_set]
    split
    · next hfg => subst hfg; simp [hlt]
    · simp

/-- What is known of a run at any time. -/
structure IsSound (c : Cache) (wants : List BlobRef) (log : List (Nat × OriginRequest))
    (s : Flights) : Prop where
  flights : FlightsAreSound c s.world.disk log s.flights
  callers : CallersAreSound c wants s.world.disk s.flights s.callers

variable {s : Flights}

theorem IsSound.fly (h : IsSound c wants log s) (hv : ∀ r ∈ wants, r.IsValid)
    (hf : s.flights[f]? = some flight) :
    IsSound c wants ((flight.request?.map fun r => (f, r)).toList ++ log)
      { s with
        world := (flight.advance s.world).2,
        flights := s.flights.set f (flight.advance s.world).1 } where
  flights := h.flights.fly hf
  callers := by
    obtain ⟨r, hr⟩ := h.flights.flight hf
    refine h.callers.evolve (fun i => ?_) fun r' hr' record => hr.blobAt (hv r' hr')
    refine Evolve.replace hf (Flight.advance_key _ _) (by rw [Flight.advance_passengers]) ?_
    intro outcome ho
    rw [Flight.advance_published (Flight.published?_eq_some.1 ho)]
    exact ho

/-- A caller looks into the cache. -/
theorem IsSound.look (h : IsSound c wants log s) {key : String} {step : Step}
    {next : step.Answer → Job (Except Failure (Option BlobRecord))}
    {download : Job (Except Failure BlobRecord)}
    (hi : s.callers[i]? = some (.looking key (.step step next) download)) :
    (s.world.perform step).2 = s.world ∧
      IsSound c wants log
        { s with
          callers := s.callers.set i (.looking key (next (s.world.perform step).1) download) } := by
  obtain ⟨r, hr, hkey, hdown, hlookup, hashore⟩ := h.callers.caller hi
  obtain ⟨answer, hrun, hanswer, hfault⟩ := c.store.blob_run r.group r.image r.digest
  rcases hlookup with hlookup | ⟨found, hfound, -⟩
  · rw [hrun] at hlookup
    cases hlookup
    refine ⟨rfl, h.flights, h.callers.set hi fun r' hr' _ => ?_⟩
    obtain rfl : r = r' := by simpa [hr] using hr'
    refine ⟨hkey, hdown, .inr ⟨_, rfl, ?_⟩, hashore⟩
    show LookedUp c.store r s.world.disk (answer (s.world.disk.find _))
    cases ha : answer (s.world.disk.find (c.store.blobPath r.group r.image r.digest)) with
    | error failure => exact hfault _ _ ha
    | ok found =>
      cases found with
      | none => trivial
      | some record =>
        rw [hanswer] at ha
        exact ha
  · cases hfound

/-- A caller has looked into the cache. -/
theorem IsSound.looked (h : IsSound c wants log s) {key : String}
    {found : Except Failure (Option BlobRecord)} {download : Job (Except Failure BlobRecord)}
    (hi : s.callers[i]? = some (.looking key (.done found) download)) :
    IsSound c wants log
      { s with callers := s.callers.set i (.afterLookup key download found) } := by
  refine ⟨h.flights, h.callers.set hi fun r hr hcaller => ?_⟩
  obtain ⟨hkey, hdown, hlookup, hashore⟩ := hcaller
  rcases hlookup with hlookup | ⟨found', hfound, hlooked⟩
  · obtain ⟨answer, hrun, -⟩ := c.store.blob_run r.group r.image r.digest
    rw [hrun] at hlookup
    cases hlookup
  · cases hfound
    rcases found with failure | (_ | record)
    · obtain rfl := hlooked
      exact .unreadable
    · exact ⟨hkey, hdown, hashore⟩
    · exact .found hlooked

/-- A caller comes aboard one flight, and nothing changes for the others. -/
theorem CallersAreSound.board (h : CallersAreSound c wants d flights callers)
    (hr : wants[i]? = some r) (hi : callers[i]? = some caller)
    (hev : ∀ j, j ≠ i → Evolve j flights flights') (hf : flights'[f]? = some flight)
    (hkey : flight.key = r.key) (hp : i ∈ flight.passengers)
    (hone : ∀ {g : Nat} {flight' : Flight}, flights'[g]? = some flight' → i ∈ flight'.passengers →
      g = f) :
    CallersAreSound c wants d flights' (callers.set i (.waiting f)) where
  caller {j caller'} hj := by
    by_cases hij : i = j
    · subst hij
      rw [List.getElem?_set_self (List.getElem?_eq_some_iff.1 hi).1] at hj
      obtain rfl : Caller.waiting f = caller' := by simpa using hj
      exact ⟨r, hr, flight, hf, hkey, hp⟩
    · rw [List.getElem?_set_ne hij] at hj
      obtain ⟨r', hr', hcaller⟩ := h.caller hj
      exact ⟨r', hr', hcaller.evolve (hev j fun hc => hij hc.symm) fun _ hb => hb⟩
  oneFlight {j g g' flight₁ flight₂} hg hg' hj hj' := by
    by_cases hij : j = i
    · subst hij
      rw [hone hg hj, hone hg' hj']
    · obtain ⟨old, hold, hm⟩ := (hev j hij).was hg hj
      obtain ⟨old', hold', hm'⟩ := (hev j hij).was hg' hj'
      exact h.oneFlight hold hold' hm hm'

/-- A caller boards a flight. -/
theorem IsSound.join (h : IsSound c wants log s) (hv : ∀ r ∈ wants, r.IsValid) {key : String}
    {download : Job (Except Failure BlobRecord)}
    (hi : s.callers[i]? = some (.joining key download)) :
    IsSound c wants log
      { s with
        flights := (join s.flights i key download).2
        callers := s.callers.set i (.waiting (join s.flights i key download).1) } := by
  obtain ⟨r, hr, rfl, rfl, hashore⟩ := h.callers.caller hi
  have hvalid := hv r (List.mem_of_getElem? hr)
  have hashore' : ∀ {g : Nat} {flight : Flight}, s.flights[g]? = some flight →
      i ∉ flight.passengers := fun hg => hashore _ (List.mem_of_getElem? hg)
  rcases join_cases s.flights i r.key (c.downloadBlob r.group r.image r.digest).run with
    ⟨f, flight, hf, -, hkey, hjoin⟩ | ⟨hover, hjoin⟩
  · rw [hjoin]
    have hlt := (List.getElem?_eq_some_iff.1 hf).1
    refine ⟨h.flights.board hf i, h.callers.board hr hi (fun j hj => ?_)
      (List.getElem?_set_self hlt) hkey (by simp) ?_⟩
    · exact Evolve.replace hf rfl (by simp [hj]) fun _ ho => ho
    · intro g flight' hg hm
      rcases getElem?_replace hf hg with ⟨rfl, -⟩ | ⟨-, hg⟩
      · rfl
      · exact absurd hm (hashore' hg)
  · rw [hjoin]
    refine ⟨h.flights.start hvalid i hover, h.callers.board hr hi (fun j hj => ?_)
      (List.getElem?_concat_length ..) rfl (by simp) ?_⟩
    · exact Evolve.add (by simp [hj])
    · intro g flight' hg hm
      rcases getElem?_add hg with hg | ⟨rfl, -⟩
      · exact absurd hm (hashore' hg)
      · rfl

/-- A caller that waits asks after its flight. -/
theorem IsSound.deliver (h : IsSound c wants log s) (hi : s.callers[i]? = some (.waiting f)) :
    ∃ flight, s.flights[f]? = some flight ∧ i ∈ flight.passengers ∧
      Flights.deliver s.flights i (.waiting f) =
        (match flight.published? with
          | none => .waiting f
          | some outcome => .afterFlight outcome) := by
  obtain ⟨r, hr, flight, hf, hkey, hp⟩ := h.callers.caller hi
  refine ⟨flight, hf, hp, ?_⟩
  rw [Flights.deliver, hf]
  dsimp only
  cases flight.published? with
  | none => rfl
  | some outcome => exact if_pos hp

theorem move_advance (hi : s.callers[i]? = some caller) :
    s.move (.advance i) = s.advance i caller := by
  simp only [Flights.move, hi]

theorem move_fly (hf : s.flights[f]? = some flight) :
    s.move (.fly f) =
      { s with
        world := (flight.advance s.world).2
        flights := s.flights.set f (flight.advance s.world).1 } := by
  simp only [Flights.move, hf]

/-- The invariant is kept by every move. -/
theorem IsSound.move (h : IsSound c wants log s) (hv : ∀ r ∈ wants, r.IsValid) (m : FlightMove) :
    IsSound c wants ((s.request? m).toList ++ log) (s.move m) := by
  cases m with
  | advance i =>
    show IsSound c wants log _
    cases hi : s.callers[i]? with
    | none => simpa only [Flights.move, hi] using h
    | some caller =>
      rw [move_advance hi]
      cases caller with
      | looking key lookup download =>
        cases lookup with
        | step step next =>
          obtain ⟨hw, hnext⟩ := h.look hi
          show IsSound c wants log { s with world := (s.world.perform step).2, callers := _ }
          rw [hw]
          exact hnext
        | done found => exact h.looked hi
      | joining key download => exact h.join hv hi
      | waiting f =>
        obtain ⟨flight, hf, hp, hdeliver⟩ := h.deliver hi
        refine ⟨h.flights, h.callers.set hi fun r hr hcaller => ?_⟩
        obtain ⟨flight', hf', hkey, hp'⟩ := hcaller
        obtain rfl : flight = flight' := by simpa [hf] using hf'
        rw [hdeliver]
        cases ho : flight.published? with
        | none => exact ⟨flight, hf, hkey, hp⟩
        | some outcome => exact .flown hf hkey hp ho
      | answered answer => exact ⟨h.flights, h.callers.set hi fun _ _ hcaller => hcaller⟩
      | gone => exact ⟨h.flights, h.callers.set hi fun _ _ hcaller => hcaller⟩
  | fly f =>
    cases hf : s.flights[f]? with
    | none => simpa [Flights.move, Flights.request?, hf] using h
    | some flight =>
      rw [move_fly hf, Flights.request?, hf]
      exact h.fly hv hf
  | leave i =>
    show IsSound c wants log { s with callers := s.callers.set i .gone }
    cases hi : s.callers[i]? with
    | none =>
      rw [List.getElem?_eq_none_iff] at hi
      rw [List.set_eq_of_length_le hi]
      exact h
    | some caller => exact ⟨h.flights, h.callers.set hi fun _ _ _ => trivial⟩

/-! ## Runs -/

theorem run_cons (s : Flights) (m : FlightMove) (moves : List FlightMove) :
    s.run (m :: moves) = (s.move m).run moves := rfl

theorem run_append (s : Flights) (moves later : List FlightMove) :
    s.run (moves ++ later) = (s.run moves).run later := List.foldl_append

/-- The invariant is kept by every run. -/
theorem IsSound.run (h : IsSound c wants log s) (hv : ∀ r ∈ wants, r.IsValid)
    (moves : List FlightMove) : IsSound c wants (s.requests moves ++ log) (s.run moves) := by
  induction moves generalizing s log with
  | nil => exact h
  | cons m moves ih =>
    rw [run_cons, requests, List.append_assoc]
    exact ih (h.move hv m)

/-- Every request is one of a flight. -/
theorem IsSound.world_requests (h : IsSound c wants log s) (hv : ∀ r ∈ wants, r.IsValid)
    (moves : List FlightMove) :
    (s.run moves).world.requests = (s.requests moves).map Prod.snd ++ s.world.requests := by
  have hmove : ∀ {s : Flights} {log} (m : FlightMove), IsSound c wants log s →
      (s.move m).world.requests = (s.request? m).toList.map Prod.snd ++ s.world.requests := by
    intro s log m h
    cases m with
    | advance i =>
      cases hi : s.callers[i]? with
      | none => simp [Flights.move, Flights.request?, hi]
      | some caller =>
        rw [move_advance hi]
        cases caller with
        | looking key lookup download =>
          cases lookup with
          | step step next =>
            show (s.world.perform step).2.requests = _
            rw [(h.look hi).1]
            rfl
          | done found => rfl
        | _ => rfl
    | fly f =>
      cases hf : s.flights[f]? with
      | none => simp [Flights.move, Flights.request?, hf]
      | some flight =>
        rw [move_fly hf, Flights.request?, hf]
        show (flight.advance s.world).2.requests = _
        rw [Flight.advance_requests]
        cases hq : flight.request? <;> simp [hq]
    | leave i => rfl
  induction moves generalizing s log with
  | nil => rfl
  | cons m moves ih =>
    rw [run_cons, ih (h.move hv m), requests, hmove m h, List.map_append, List.append_assoc]

/-- The start of a run: callers that have done nothing yet. -/
theorem isSound_start (c : Cache) {w : World} (hw : c.store.IsKept w.disk) (wants : List BlobRef) :
    IsSound c wants [] ⟨w, [], wants.map fun r => c.caller r.group r.image r.digest⟩ where
  flights := by
    refine ⟨hw, ?_, ?_, ?_, ?_⟩ <;> simp
  callers := by
    refine ⟨fun {i caller} hi => ?_, by simp⟩
    rw [List.getElem?_map] at hi
    obtain ⟨r, hr, rfl⟩ := Option.map_eq_some_iff.1 hi
    exact ⟨r, hr, rfl, rfl, .inl rfl, by simp⟩

end Flights

end PullThrough
