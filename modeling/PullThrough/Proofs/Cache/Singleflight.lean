import PullThrough.Proofs.Cache.Flights
/-
  One download at a time for each blob, over all interleavings.

  `Flights.IsSingleflight` collects what holds at any time of any run of callers and their
  downloads. The order in which a download is taken off the list and its outcome is published is
  what makes it work: a caller that boards a flight boards one whose outcome is still to come
  (`Flights.IsSound.join`), and one that comes later finds the blob in the cache or starts afresh.

  Nothing is said of a caller that is given no turn, nor of a flight that is given none: in
  `Flights.lands` both get turns again and again.
-/
namespace PullThrough

open BlobRef (IsStored)

/-- Callers that want some blobs, before any of them has done anything. -/
def Cache.callers (c : Cache) (w : World) (wants : List BlobRef) : Flights :=
  ⟨w, [], wants.map fun r => c.caller r.group r.image r.digest⟩

namespace Flights

variable {c : Cache} {wants : List BlobRef} {log : List (Nat × OriginRequest)} {s : Flights}
  {r : BlobRef} {f i : Nat} {flight : Flight}

/-! ## What stays -/

/-- A flight keeps its number, its key and its passengers, and what it has published. -/
theorem move_flight (m : FlightMove) (hf : s.flights[f]? = some flight) :
    ∃ flight', (s.move m).flights[f]? = some flight' ∧ flight'.key = flight.key ∧
      (m ≠ .fly f → flight'.stage = flight.stage) ∧
      (m = .fly f → flight' = (flight.advance s.world).1) := by
  cases m with
  | advance i =>
    cases hi : s.callers[i]? with
    | none => exact ⟨flight, by simpa only [move, hi] using hf, rfl, fun _ => rfl, by simp⟩
    | some caller =>
      rw [move_advance hi]
      cases caller with
      | joining key download =>
        show ∃ flight', (join s.flights i key download).2[f]? = some flight' ∧ _
        rcases join_cases s.flights i key download with ⟨g, flight₀, hg, -, -, hjoin⟩ | ⟨-, hjoin⟩
        · rw [hjoin]
          by_cases hgf : g = f
          · subst hgf
            rw [hf] at hg
            obtain rfl : flight = flight₀ := by simpa using hg
            refine ⟨_, List.getElem?_set_self (List.getElem?_eq_some_iff.1 hf).1, rfl,
              fun _ => rfl, by simp⟩
          · exact ⟨flight, by rw [List.getElem?_set_ne hgf, hf], rfl, fun _ => rfl, by simp⟩
        · rw [hjoin]
          refine ⟨flight, ?_, rfl, fun _ => rfl, by simp⟩
          rw [List.getElem?_append_left (List.getElem?_eq_some_iff.1 hf).1, hf]
      | looking key lookup download =>
        cases lookup <;> exact ⟨flight, hf, rfl, fun _ => rfl, by simp⟩
      | _ => exact ⟨flight, hf, rfl, fun _ => rfl, by simp⟩
  | fly g =>
    cases hg : s.flights[g]? with
    | none =>
      refine ⟨flight, by simpa only [move, hg] using hf, rfl, fun _ => rfl, ?_⟩
      intro hc
      cases hc
      rw [hf] at hg
      cases hg
    | some flight₀ =>
      rw [move_fly hg]
      by_cases hgf : g = f
      · subst hgf
        rw [hf] at hg
        obtain rfl : flight = flight₀ := by simpa using hg
        exact ⟨_, List.getElem?_set_self (List.getElem?_eq_some_iff.1 hf).1, Flight.advance_key _ _,
          fun h => absurd rfl h, fun _ => rfl⟩
      · refine ⟨flight, by rw [List.getElem?_set_ne hgf, hf], rfl, fun _ => rfl, fun hc => ?_⟩
        exact absurd (FlightMove.fly.inj hc) hgf
  | leave i => exact ⟨flight, hf, rfl, fun _ => rfl, by simp⟩

theorem run_flight (moves : List FlightMove) (hf : s.flights[f]? = some flight) :
    ∃ flight', (s.run moves).flights[f]? = some flight' ∧ flight'.key = flight.key := by
  induction moves generalizing s flight with
  | nil => exact ⟨flight, hf, rfl⟩
  | cons m moves ih =>
    obtain ⟨flight₁, hf₁, hkey₁, -⟩ := move_flight m hf
    obtain ⟨flight₂, hf₂, hkey₂⟩ := ih hf₁
    exact ⟨flight₂, hf₂, hkey₂.trans hkey₁⟩

/-- What a move does to the disk is what one flight does to it. -/
theorem IsSound.move_disk (h : IsSound c wants log s) (m : FlightMove) :
    (s.move m).world.disk = s.world.disk ∨
      ∃ f flight, m = .fly f ∧ s.flights[f]? = some flight ∧
        (s.move m).world.disk = (flight.advance s.world).2.disk := by
  cases m with
  | advance i =>
    left
    cases hi : s.callers[i]? with
    | none => simp only [Flights.move, hi]
    | some caller =>
      rw [move_advance hi]
      cases caller with
      | looking key lookup download =>
        cases lookup with
        | step step next =>
          show (s.world.perform step).2.disk = _
          rw [(h.look hi).1]
        | done found => rfl
      | _ => rfl
  | fly f =>
    cases hf : s.flights[f]? with
    | none => exact .inl (by simp only [Flights.move, hf])
    | some flight => exact .inr ⟨f, flight, rfl, hf, by rw [move_fly hf]⟩
  | leave i => exact .inl rfl

/-- A blob that is stored stays so, as it is. -/
theorem IsSound.blobAt_run (h : IsSound c wants log s) (hv : ∀ r ∈ wants, r.IsValid)
    (hr : r.IsValid) {record : BlobRecord}
    (hb : c.store.blobAt r.group r.image r.digest s.world.disk = .ok (some record))
    (moves : List FlightMove) :
    c.store.blobAt r.group r.image r.digest (s.run moves).world.disk = .ok (some record) := by
  induction moves generalizing s log with
  | nil => exact hb
  | cons m moves ih =>
    refine ih (h.move hv m) ?_
    rcases h.move_disk m with hd | ⟨f, flight, -, hf, hd⟩
    · rw [hd]
      exact hb
    · rw [hd]
      obtain ⟨r', hr'⟩ := h.flights.flight hf
      exact hr'.blobAt hr hb

/-- Once a blob is stored nobody asks for anything on its behalf. -/
theorem IsSound.quiet (h : IsSound c wants log s) (hv : ∀ r ∈ wants, r.IsValid) (hr : r.IsValid)
    (hs : r.IsStored c.store s.world.disk) {moves : List FlightMove} {q : OriginRequest}
    (hq : (f, q) ∈ s.requests moves) (hf : (s.run moves).flights[f]? = some flight) :
    flight.key ≠ r.key := by
  induction moves generalizing s log with
  | nil => cases hq
  | cons m moves ih =>
    rcases List.mem_append.1 hq with hq | hq
    · obtain ⟨record, hb⟩ := hs
      exact ih (h.move hv m) ⟨record, h.blobAt_run hv hr hb [m]⟩ hq hf
    · intro hkey
      cases m with
      | fly g =>
        obtain ⟨q', hq', hg⟩ := Option.map_eq_some_iff.1 (Option.mem_toList.1 hq)
        obtain ⟨flight₀, hf₀, hask⟩ := Option.bind_eq_some_iff.1 hq'
        obtain ⟨rfl, -⟩ := Prod.mk.inj hg
        obtain ⟨flight₁, hf₁, hkey₁⟩ := run_flight (.fly g :: moves) hf₀
        rw [hf] at hf₁
        obtain rfl : flight = flight₁ := by simpa using hf₁
        obtain ⟨r', hr'⟩ := h.flights.flight hf₀
        obtain rfl : r' = r := BlobRef.key_inj hr'.isValid.isGroup hr.isGroup
          (by rw [← hr'.key, ← hkey₁, hkey])
        rw [(hr'.quiet hs).2] at hask
        cases hask
      | _ => cases hq

/-! ## What stores a blob -/

/-- A flight whose blob is stored after its next step is under way still, or it has ended well. -/
theorem FlightIsSound.advance_stored {sent : List OriginRequest} {w : World}
    (h : FlightIsSound c w.disk sent r flight)
    (hs : r.IsStored c.store (flight.advance w).2.disk)
    (hbefore : r.IsStored c.store w.disk →
      flight.isListed = true ∨ ∃ record, flight.outcome? = some (.ok record)) :
    (flight.advance w).1.isListed = true ∨
      ∃ record, (flight.advance w).1.outcome? = some (.ok record) := by
  obtain ⟨key, stage, passengers⟩ := flight
  cases stage with
  | flying download =>
    cases download with
    | step s next => exact .inl rfl
    | done outcome =>
      cases outcome with
      | ok record => exact .inr ⟨record, rfl⟩
      | error failure => exact absurd hs h.stage
  | unlisted outcome => exact hbefore hs
  | published outcome => exact hbefore hs

/-- Every stored blob was stored from the start, or by a flight that is under way or has ended
well. -/
def Explained (c : Cache) (d₀ : Disk) (s : Flights) : Prop :=
  ∀ r : BlobRef, r.IsValid → r.IsStored c.store s.world.disk →
    r.IsStored c.store d₀ ∨ ∃ (f : Nat) (flight : Flight), s.flights[f]? = some flight ∧
      flight.key = r.key ∧
        (flight.isListed = true ∨ ∃ record, flight.outcome? = some (.ok record))

theorem IsSound.explained_move {d₀ : Disk} (h : IsSound c wants log s) (he : Explained c d₀ s)
    (m : FlightMove) : Explained c d₀ (s.move m) := by
  intro r hr hs
  by_cases hbefore : r.IsStored c.store s.world.disk
  · rcases he r hr hbefore with hd | ⟨f, flight, hf, hkey, hstate⟩
    · exact .inl hd
    · obtain ⟨flight', hf', hkey', hsame, hnext⟩ := move_flight m hf
      refine .inr ⟨f, flight', hf', hkey'.trans hkey, ?_⟩
      by_cases hm : m = .fly f
      · subst hm
        obtain ⟨r', hr'⟩ := h.flights.flight hf
        obtain rfl : r' = r := BlobRef.key_inj hr'.isValid.isGroup hr.isGroup
          (by rw [← hr'.key, hkey])
        rw [move_fly hf] at hs
        rw [hnext rfl]
        exact hr'.advance_stored hs fun _ => hstate
      · unfold Flight.isListed Flight.outcome? at hstate ⊢
        rwa [hsame hm]
  · rcases h.move_disk m with hd | ⟨f, flight, rfl, hf, hd⟩
    · exact absurd (hd ▸ hs) hbefore
    · rw [hd] at hs
      obtain ⟨flight', hf', hkey', -, hnext⟩ := move_flight (.fly f) hf
      obtain ⟨r', hr'⟩ := h.flights.flight hf
      by_cases hne : r = r'
      · subst hne
        refine .inr ⟨f, flight', hf', hkey'.trans hr'.key, ?_⟩
        rw [hnext rfl]
        exact hr'.advance_stored hs fun hb => absurd hb hbefore
      · -- another flight leaves the file of this blob as it was
        rcases hr'.change with hsame | hc
        · exact absurd (hsame ▸ hs) hbefore
        · exact absurd (hr.isStored_of_sameFile h.flights.isKept.isTidy
            (BlobRef.spares_of_change hne hc).target hs) hbefore

theorem IsSound.explained_run {d₀ : Disk} (h : IsSound c wants log s) (hv : ∀ r ∈ wants, r.IsValid)
    (he : Explained c d₀ s) (moves : List FlightMove) : Explained c d₀ (s.run moves) := by
  induction moves generalizing s log with
  | nil => exact he
  | cons m moves ih => exact ih (h.move hv m) (h.explained_move he m)

/-! ## Flights land -/

section Turns

variable {turns : Nat → FlightMove}

/-- The state after the first turns of an endless row of them. -/
def after (s : Flights) (turns : Nat → FlightMove) (n : Nat) : Flights :=
  s.run ((List.range n).map turns)

theorem after_succ (s : Flights) (turns : Nat → FlightMove) (n : Nat) :
    s.after turns (n + 1) = (s.after turns n).move (turns n) := by
  rw [after, List.range_succ, List.map_append, run_append]
  rfl

/-- A flight stays at its stage until its next turn. -/
theorem exists_turn (hfly : ∀ n, ∃ m, n ≤ m ∧ turns m = .fly f) {n : Nat}
    (hf : (s.after turns n).flights[f]? = some flight) :
    ∃ m flight', n ≤ m ∧ (s.after turns (m + 1)).flights[f]? = some flight' ∧
      ∃ w old, old.stage = flight.stage ∧ flight' = (Flight.advance old w).1 := by
  obtain ⟨m, hnm, hm⟩ := hfly n
  obtain ⟨k, rfl⟩ := Nat.exists_eq_add_of_le hnm
  clear hnm
  induction k generalizing n flight with
  | zero =>
    obtain ⟨flight', hf', -, -, hnext⟩ := move_flight (turns n) hf
    rw [← after_succ] at hf'
    exact ⟨n, flight', Nat.le_refl n, hf', _, flight, rfl, hnext hm⟩
  | succ k ih =>
    obtain ⟨flight', hf', -, hsame, hnext⟩ := move_flight (turns n) hf
    rw [← after_succ] at hf'
    by_cases hn : turns n = .fly f
    · exact ⟨n, flight', Nat.le_refl n, hf', _, flight, rfl, hnext hn⟩
    · obtain ⟨m, flight₂, hle, hf₂, w, old, hold, hadv⟩ :=
        ih hf' (by rw [← hm]; congr 1; omega)
      exact ⟨m, flight₂, by omega, hf₂, w, old, hold.trans (hsame hn), hadv⟩

/-- A flight that gets its turns publishes its outcome in the end. The induction is on what is left
of the download. -/
theorem lands (hfly : ∀ n, ∃ m, n ≤ m ∧ turns m = .fly f) {n : Nat}
    (hf : (s.after turns n).flights[f]? = some flight) :
    ∃ m flight' outcome, n ≤ m ∧ (s.after turns m).flights[f]? = some flight' ∧
      flight'.stage = .published outcome := by
  have hunlisted : ∀ {n : Nat} {flight : Flight} (outcome : Except Failure BlobRecord),
      (s.after turns n).flights[f]? = some flight → flight.stage = .unlisted outcome →
      ∃ m flight' outcome, n ≤ m ∧ (s.after turns m).flights[f]? = some flight' ∧
        flight'.stage = .published outcome := by
    intro n flight outcome hf hstage
    obtain ⟨m, flight', hle, hf', w, old, hold, rfl⟩ := exists_turn hfly hf
    refine ⟨m + 1, _, outcome, by omega, hf', ?_⟩
    rw [Flight.advance, hold, hstage]
  have hflying : ∀ (download : Job (Except Failure BlobRecord)) {n : Nat} {flight : Flight},
      (s.after turns n).flights[f]? = some flight → flight.stage = .flying download →
      ∃ m flight' outcome, n ≤ m ∧ (s.after turns m).flights[f]? = some flight' ∧
        flight'.stage = .published outcome := by
    intro download
    induction download with
    | done outcome =>
      intro n flight hf hstage
      obtain ⟨m, flight', hle, hf', w, old, hold, rfl⟩ := exists_turn hfly hf
      obtain ⟨m', flight₂, outcome', hle', hf₂, hstage₂⟩ :=
        hunlisted outcome hf' (by rw [Flight.advance, hold, hstage])
      exact ⟨m', flight₂, outcome', by omega, hf₂, hstage₂⟩
    | step step next ih =>
      intro n flight hf hstage
      obtain ⟨m, flight', hle, hf', w, old, hold, rfl⟩ := exists_turn hfly hf
      obtain ⟨m', flight₂, outcome', hle', hf₂, hstage₂⟩ :=
        ih (w.perform step).1 hf' (by rw [Flight.advance, hold, hstage])
      exact ⟨m', flight₂, outcome', by omega, hf₂, hstage₂⟩
  cases hstage : flight.stage with
  | flying download => exact hflying download hf hstage
  | unlisted outcome => exact hunlisted outcome hf hstage
  | published outcome => exact ⟨n, flight, outcome, Nat.le_refl n, hf, hstage⟩

/-! ## Callers are told -/

/-- Only its own moves change a caller. -/
theorem move_caller {m : FlightMove} {caller : Caller} (hi : s.callers[i]? = some caller)
    (hadvance : m ≠ .advance i) (hleave : m ≠ .leave i) :
    (s.move m).callers[i]? = some caller := by
  cases m with
  | advance j =>
    have hij : j ≠ i := fun hc => hadvance (by rw [hc])
    cases hj : s.callers[j]? with
    | none => simpa only [move, hj] using hi
    | some other =>
      rw [move_advance hj]
      cases other with
      | looking key lookup download =>
        cases lookup <;> exact (List.getElem?_set_ne hij).trans hi
      | _ => exact (List.getElem?_set_ne hij).trans hi
  | fly g =>
    cases hg : s.flights[g]? with
    | none => simpa only [move, hg] using hi
    | some flight => rw [move_fly hg]; exact hi
  | leave j => exact (List.getElem?_set_ne fun hc => hleave (by rw [hc])).trans hi

/-- A caller that waits asks after its flight, and is told the outcome if it is published. -/
theorem IsSound.move_waiting (h : IsSound c wants log s) (hi : s.callers[i]? = some (.waiting f)) :
    ∃ flight, s.flights[f]? = some flight ∧ (s.move (.advance i)).flights = s.flights ∧
      (s.move (.advance i)).callers[i]? = some
        (match flight.published? with
          | none => .waiting f
          | some outcome => .afterFlight outcome) := by
  obtain ⟨flight, hf, hp, hdeliver⟩ := h.deliver hi
  refine ⟨flight, hf, by rw [move_advance hi]; rfl, ?_⟩
  rw [move_advance hi]
  exact (List.getElem?_set_self (List.getElem?_eq_some_iff.1 hi).1).trans (congrArg some hdeliver)

/-- What a flight has published stays published. -/
theorem move_published (m : FlightMove) {outcome : Except Failure BlobRecord}
    (hf : s.flights[f]? = some flight) (ho : flight.stage = .published outcome) :
    ∃ flight', (s.move m).flights[f]? = some flight' ∧ flight'.stage = .published outcome := by
  obtain ⟨flight', hf', -, hsame, hnext⟩ := move_flight m hf
  refine ⟨flight', hf', ?_⟩
  by_cases hm : m = .fly f
  · rw [hnext hm, Flight.advance_published ho, ho]
  · rw [hsame hm, ho]

/-- A caller that waits goes on waiting or is told what its flight has published. -/
theorem IsSound.waiting_or_told (h : IsSound c wants log s) (hv : ∀ r ∈ wants, r.IsValid)
    (hleave : ∀ n, turns n ≠ .leave i) (hi : s.callers[i]? = some (.waiting f)) (n : Nat) :
    (s.after turns n).callers[i]? = some (.waiting f) ∨
      ∃ flight outcome, (s.after turns n).flights[f]? = some flight ∧
        flight.stage = .published outcome ∧
        (s.after turns n).callers[i]? = some (.afterFlight outcome) := by
  induction n with
  | zero => exact .inl hi
  | succ n ih =>
    have hn : IsSound c wants _ (s.after turns n) := h.run hv _
    rw [after_succ]
    rcases ih with hw | ⟨flight, outcome, hf, ho, ht⟩
    · by_cases hm : turns n = .advance i
      · rw [hm]
        obtain ⟨flight, hf, hflights, hcaller⟩ := hn.move_waiting hw
        cases hp : flight.published? with
        | none => rw [hp] at hcaller; exact .inl hcaller
        | some outcome =>
          rw [hp] at hcaller
          refine .inr ⟨flight, outcome, by rw [hflights]; exact hf, ?_, hcaller⟩
          exact Flight.published?_eq_some.1 hp
      · exact .inl (move_caller hw hm (hleave n))
    · obtain ⟨flight', hf', ho'⟩ := move_published (turns n) hf ho
      refine .inr ⟨flight', outcome, hf', ho', ?_⟩
      by_cases hm : turns n = .advance i
      · rw [hm, move_advance ht]
        exact List.getElem?_set_self (List.getElem?_eq_some_iff.1 ht).1
      · exact move_caller ht hm (hleave n)

/-- A caller that waits is told in the end, if it and its flight get their turns. -/
theorem IsSound.eventually_told (h : IsSound c wants log s) (hv : ∀ r ∈ wants, r.IsValid)
    (hi : s.callers[i]? = some (.waiting f)) (hfly : ∀ n, ∃ m, n ≤ m ∧ turns m = .fly f)
    (hadvance : ∀ n, ∃ m, n ≤ m ∧ turns m = .advance i) (hleave : ∀ n, turns n ≠ .leave i) :
    ∃ n flight outcome, (s.after turns n).flights[f]? = some flight ∧
      flight.published? = some outcome ∧
      (s.after turns n).callers[i]? = some (.afterFlight outcome) := by
  obtain ⟨flight, hf, -⟩ := h.move_waiting hi
  obtain ⟨n, flight₁, outcome, -, hf₁, ho₁⟩ := lands (s := s) (n := 0) hfly hf
  obtain ⟨m, hnm, hm⟩ := hadvance n
  -- the flight has landed when the caller gets its next turn
  have hlanded : ∀ k, ∃ flight, (s.after turns (n + k)).flights[f]? = some flight ∧
      flight.stage = .published outcome := by
    intro k
    induction k with
    | zero => exact ⟨flight₁, hf₁, ho₁⟩
    | succ k ih =>
      obtain ⟨flight, hf, ho⟩ := ih
      rw [← Nat.add_assoc, after_succ]
      exact move_published _ hf ho
  obtain ⟨k, rfl⟩ := Nat.exists_eq_add_of_le hnm
  obtain ⟨flight₂, hf₂, ho₂⟩ := hlanded k
  rcases h.waiting_or_told hv hleave hi (n + k) with hw | ⟨flight', outcome', hf', ho', ht⟩
  · have hn : IsSound c wants _ (s.after turns (n + k)) := h.run hv _
    obtain ⟨flight₃, hf₃, hflights, hcaller⟩ := hn.move_waiting hw
    obtain rfl : flight₂ = flight₃ := by simpa [hf₂] using hf₃
    have hp := Flight.published?_eq_some.2 ho₂
    rw [hp] at hcaller
    refine ⟨n + k + 1, flight₂, outcome, ?_, hp, ?_⟩
    · rw [after_succ, hm, hflights]
      exact hf₂
    · rw [after_succ, hm]
      exact hcaller
  · exact ⟨n + k, flight', outcome', hf', Flight.published?_eq_some.2 ho', ht⟩

end Turns

/-! ## The result -/

/-- How callers that want some blobs are served from a world on: what holds of a state that they and
their downloads have come to, and of the requests that were sent on the way, by flight. -/
structure IsSingleflight (c : Cache) (w : World) (wants : List BlobRef)
    (log : List (Nat × OriginRequest)) (s : Flights) : Prop where
  /-- At most one download of a key is under way. -/
  one : ∀ (f f' : Nat) (flight flight' : Flight), s.flights[f]? = some flight →
    s.flights[f']? = some flight' → flight.isListed = true → flight'.isListed = true →
      flight.key = flight'.key → f = f'
  /-- Nobody boards two flights. -/
  oneFlight : ∀ (i f f' : Nat) (flight flight' : Flight), s.flights[f]? = some flight →
    s.flights[f']? = some flight' → i ∈ flight.passengers → i ∈ flight'.passengers → f = f'
  /-- A caller that boards a flight boards the one of its key that is under way. If there is none,
  it starts the whole download afresh, whatever became of earlier ones. -/
  boards : ∀ (i : Nat) (key : String) (download : Job (Except Failure BlobRecord)),
    s.callers[i]? = some (.joining key download) →
      ∃ r f flight, wants[i]? = some r ∧ key = r.key ∧
        (s.move (.advance i)).callers[i]? = some (.waiting f) ∧
        (s.move (.advance i)).flights[f]? = some flight ∧ flight.key = r.key ∧
        i ∈ flight.passengers ∧ flight.isListed = true ∧
        ((∀ old ∈ s.flights, old.key = r.key → old.isListed = false) →
          f = s.flights.length ∧
            flight.stage = .flying (c.downloadBlob r.group r.image r.digest).run)
  /-- A caller that waits has boarded a flight of its own key, and its next step tells it what the
  flight has published. -/
  waits : ∀ (i f : Nat), s.callers[i]? = some (.waiting f) →
    ∃ r flight, wants[i]? = some r ∧ s.flights[f]? = some flight ∧ flight.key = r.key ∧
      i ∈ flight.passengers ∧
      ∀ outcome, flight.published? = some outcome →
        (s.move (.advance i)).callers[i]? = some (.afterFlight outcome)
  /-- The flight of a caller that waits is over some time, and the caller is told, if both get their
  turns again and again. -/
  arrives : ∀ (i f : Nat), s.callers[i]? = some (.waiting f) → ∀ turns : Nat → FlightMove,
    (∀ n, ∃ m, n ≤ m ∧ turns m = .fly f) → (∀ n, ∃ m, n ≤ m ∧ turns m = .advance i) →
    (∀ n, turns n ≠ .leave i) →
      ∃ n flight outcome, (s.after turns n).flights[f]? = some flight ∧
        flight.published? = some outcome ∧
        (s.after turns n).callers[i]? = some (.afterFlight outcome)
  /-- A caller is told what it found itself, or the outcome of the flight that it has boarded: its
  own blob, which is in the cache, or a failure, which is not that its flight told it nothing. -/
  told : ∀ (i : Nat) (answer : Except Failure ResolvedBlob),
    s.callers[i]? = some (.answered answer) →
      ∃ r, wants[i]? = some r ∧ Answers c.store s.world.disk s.flights i r answer ∧
        answer ≠ .error (.cache .closedDownload) ∧
        ∀ found, answer = .ok found →
          found.record.group = r.group ∧ found.record.image = r.image ∧
            found.record.digest = r.digest ∧
            c.store.blobAt r.group r.image r.digest s.world.disk = .ok (some found.record)
  /-- A blob that is stored was stored from the start, or by a flight that is under way or has ended
  well: one that failed leaves nothing. -/
  stored : ∀ r : BlobRef, r.IsValid → r.IsStored c.store s.world.disk →
    r.IsStored c.store w.disk ∨ ∃ (f : Nat) (flight : Flight), s.flights[f]? = some flight ∧
      flight.key = r.key ∧ (flight.isListed = true ∨ ∃ record, flight.outcome? = some (.ok record))
  /-- All requests are those of flights. -/
  requests : s.world.requests = log.map Prod.snd ++ w.requests
  /-- A flight asks for a token and then for its blob, each once at most, and what it ends well with
  is in the cache. -/
  flight : ∀ (f : Nat) (flight : Flight), s.flights[f]? = some flight →
    ∃ r : BlobRef, r.IsValid ∧ flight.key = r.key ∧
      (ofFlight log f = [] ∨ ofFlight log f = [c.origin.tokenRequest r.image] ∨
        ∃ token, ofFlight log f =
          [c.origin.blobRequest r.image r.digest token, c.origin.tokenRequest r.image]) ∧
      ∀ record, flight.outcome? = some (.ok record) →
        c.store.blobAt r.group r.image r.digest s.world.disk = .ok (some record)
  /-- Of the flights of one key that ended well only the first may have asked for anything. -/
  once : ∀ (f f' : Nat) (flight flight' : Flight) (record : BlobRecord), s.flights[f]? =
    some flight → s.flights[f']? = some flight' → flight.key = flight'.key →
    flight.outcome? = some (.ok record) → f < f' → ofFlight log f' = []
  /-- Once a blob is stored it stays so, and nothing is asked for on its behalf. -/
  quiet : ∀ r : BlobRef, r.IsValid → ∀ record,
    c.store.blobAt r.group r.image r.digest s.world.disk = .ok (some record) →
    ∀ later : List FlightMove,
      c.store.blobAt r.group r.image r.digest (s.run later).world.disk = .ok (some record) ∧
      ∀ (f : Nat) (q : OriginRequest) (flight : Flight), (f, q) ∈ s.requests later →
        (s.run later).flights[f]? = some flight → flight.key ≠ r.key

theorem FlightIsSound.sent_cases {d : Disk} {sent : List OriginRequest}
    (h : FlightIsSound c d sent r flight) : sent = [] ∨ sent = [c.origin.tokenRequest r.image] ∨
      ∃ token, sent =
        [c.origin.blobRequest r.image r.digest token, c.origin.tokenRequest r.image] := by
  obtain ⟨rest, hsent, -⟩ := h.requests
  cases hsent with
  | nothing => exact .inl rfl
  | token => exact .inr (.inl rfl)
  | blob token => exact .inr (.inr ⟨token, rfl⟩)

/-- What a flight has published holds. -/
theorem FlightIsSound.told {d : Disk} {sent : List OriginRequest}
    (h : FlightIsSound c d sent r flight) {outcome : Except Failure BlobRecord}
    (ho : flight.outcome? = some outcome) : Told c.store r d outcome := by
  obtain ⟨key, stage, passengers⟩ := flight
  cases stage with
  | flying download => cases ho
  | unlisted outcome => cases ho; exact h.stage
  | published outcome => cases ho; exact h.stage

theorem IsSound.boards (h : IsSound c wants log s) {key : String}
    {download : Job (Except Failure BlobRecord)}
    (hi : s.callers[i]? = some (.joining key download)) :
    ∃ r f flight, wants[i]? = some r ∧ key = r.key ∧
      (s.move (.advance i)).callers[i]? = some (.waiting f) ∧
      (s.move (.advance i)).flights[f]? = some flight ∧ flight.key = r.key ∧
      i ∈ flight.passengers ∧ flight.isListed = true ∧
      ((∀ old ∈ s.flights, old.key = r.key → old.isListed = false) →
        f = s.flights.length ∧
          flight.stage = .flying (c.downloadBlob r.group r.image r.digest).run) := by
  obtain ⟨r, hr, rfl, rfl, -⟩ := h.callers.caller hi
  have hlt := (List.getElem?_eq_some_iff.1 hi).1
  rw [move_advance hi]
  have hadvance : s.advance i (.joining r.key (c.downloadBlob r.group r.image r.digest).run) =
      { s with
        flights := (Flights.join s.flights i r.key (c.downloadBlob r.group r.image r.digest).run).2
        callers := s.callers.set i
          (.waiting (Flights.join s.flights i r.key
            (c.downloadBlob r.group r.image r.digest).run).1) } := rfl
  rw [hadvance]
  rcases join_cases s.flights i r.key (c.downloadBlob r.group r.image r.digest).run with
    ⟨f, flight, hf, hlisted, hkey, hjoin⟩ | ⟨-, hjoin⟩
  · rw [hjoin]
    refine ⟨r, f, _, hr, rfl, List.getElem?_set_self hlt,
      List.getElem?_set_self (List.getElem?_eq_some_iff.1 hf).1, hkey, by simp, hlisted, ?_⟩
    intro hover
    rw [hover flight (List.mem_of_getElem? hf) hkey] at hlisted
    cases hlisted
  · rw [hjoin]
    exact ⟨r, s.flights.length, _, hr, rfl, List.getElem?_set_self hlt,
      List.getElem?_concat_length .., rfl, by simp, rfl, fun _ => ⟨rfl, rfl⟩⟩

/-- What a caller is told is of its own blob and holds. -/
theorem IsSound.told (h : IsSound c wants log s) (hv : ∀ r ∈ wants, r.IsValid)
    {answer : Except Failure ResolvedBlob} (hi : s.callers[i]? = some (.answered answer)) :
    ∃ r, wants[i]? = some r ∧ Answers c.store s.world.disk s.flights i r answer ∧
      answer ≠ .error (.cache .closedDownload) ∧
      ∀ found, answer = .ok found →
        found.record.group = r.group ∧ found.record.image = r.image ∧
          found.record.digest = r.digest ∧
          c.store.blobAt r.group r.image r.digest s.world.disk = .ok (some found.record) := by
  obtain ⟨r, hr, hanswer⟩ := h.callers.caller hi
  have hvalid := hv r (List.mem_of_getElem? hr)
  have hrecord : ∀ {record : BlobRecord},
      c.store.blobAt r.group r.image r.digest s.world.disk = .ok (some record) →
      record.group = r.group ∧ record.image = r.image ∧ record.digest = r.digest ∧
        c.store.blobAt r.group r.image r.digest s.world.disk = .ok (some record) := by
    intro record hb
    obtain ⟨content, -, rfl⟩ := Store.blobAt_eq_some hb
    exact ⟨rfl, rfl, rfl, hb⟩
  refine ⟨r, hr, hanswer, ?_⟩
  cases hanswer with
  | found hb => exact ⟨by simp, fun found hf => by cases hf; exact hrecord hb⟩
  | unreadable => exact ⟨by simp, fun found hf => by cases hf⟩
  | @flown f flight outcome hf hkey hp ho =>
    obtain ⟨r', hr'⟩ := h.flights.flight hf
    obtain rfl : r' = r := BlobRef.key_inj hr'.isValid.isGroup hvalid.isGroup
      (by rw [← hr'.key, hkey])
    have hstage := Flight.published?_eq_some.1 ho
    have htold : Flights.Told c.store r' s.world.disk outcome :=
      hr'.told (by rw [Flight.outcome?, hstage])
    cases outcome with
    | error failure => exact ⟨fun hc => htold (by cases hc; rfl), fun found hc => by cases hc⟩
    | ok record => exact ⟨by simp [Except.map], fun found hc => by cases hc; exact hrecord htold⟩

end Flights

/-- Singleflight: at any time of any run in which callers want blobs, however their steps and those
of their downloads are interleaved and whoever leaves. -/
theorem Cache.singleflight (c : Cache) {w : World} (hw : c.store.IsKept w.disk)
    {wants : List BlobRef} (hv : ∀ r ∈ wants, r.IsValid) (moves : List FlightMove) :
    Flights.IsSingleflight c w wants ((c.callers w wants).requests moves)
      ((c.callers w wants).run moves) := by
  have hstart := Flights.isSound_start c hw wants
  have h := hstart.run hv moves
  rw [List.append_nil] at h
  constructor
  case one =>
    intro f f' flight flight' hf hf' hl hl' hkey
    by_contra hne
    rcases h.flights.one hf hf' hne hkey with hover | hover
    · rw [hl] at hover
      cases hover
    · rw [hl'] at hover
      cases hover
  case oneFlight => exact fun i f f' flight flight' => h.callers.oneFlight
  case boards => exact fun i key download hi => h.boards hi
  case waits =>
    intro i f hi
    obtain ⟨r, hr, flight, hf, hkey, hp⟩ := h.callers.caller hi
    refine ⟨r, flight, hr, hf, hkey, hp, fun outcome ho => ?_⟩
    obtain ⟨flight', hf', -, hcaller⟩ := h.move_waiting hi
    obtain rfl : flight = flight' := by simpa [hf] using hf'
    rwa [ho] at hcaller
  case arrives =>
    exact fun i f hi turns hfly hadvance hleave => h.eventually_told hv hi hfly hadvance hleave
  case told => exact fun i answer hi => h.told hv hi
  case stored => exact hstart.explained_run hv (fun r _ hs => .inl hs) moves
  case requests => exact hstart.world_requests hv moves
  case flight =>
    intro f flight hf
    obtain ⟨r, hr⟩ := h.flights.flight hf
    exact ⟨r, hr.isValid, hr.key, hr.sent_cases, fun record ho => hr.told ho⟩
  case once =>
    exact fun f f' flight flight' record hf hf' hkey ho hlt => h.flights.silent hlt hf hf' hkey ho
  case quiet =>
    intro r hr record hb later
    exact ⟨h.blobAt_run hv hr hb later,
      fun f q flight hq hf => h.quiet hv hr ⟨record, hb⟩ hq hf⟩

/-- Two callers that look for one blob at the same time board one flight. -/
theorem Cache.singleflight_of_two :
    let c : Cache := ⟨{ base := [""] }, ⟨"registry", "token", "service", 1, none⟩⟩
    let w : World :=
      { disk := ⟨[(Slot.of ["groups"], .folder)]⟩
        clock := fun _ => ⟨0, 0⟩
        origin := fun _ _ => .failed }
    let digest : Digest :=
      ⟨"0000000000000000000000000000000000000000000000000000000000000000", by decide, by decide⟩
    let wants : List BlobRef := [⟨"g", "i", digest⟩, ⟨"g", "i", digest⟩]
    let moves : List FlightMove :=
      [.advance 0, .advance 1, .advance 0, .advance 1, .advance 0, .advance 1]
    c.store.IsKept w.disk ∧ (∀ r ∈ wants, r.IsValid) ∧
      ((c.callers w wants).run moves).flights.map Flight.passengers = [[1, 0]] ∧
      Flights.IsSingleflight c w wants ((c.callers w wants).requests moves)
        ((c.callers w wants).run moves) := by
  intro c w digest wants moves
  have hw : c.store.IsKept w.disk := Store.isEmpty_of_new.isKept
  have hv : ∀ r ∈ wants, r.IsValid := by
    intro r hr
    obtain rfl : r = ⟨"g", "i", digest⟩ := by simpa [wants] using hr
    exact ⟨by decide +kernel, by decide +kernel, by decide +kernel⟩
  exact ⟨hw, hv, by decide +kernel, singleflight c hw hv moves⟩

end PullThrough
