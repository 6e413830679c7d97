import PullThrough.Proofs.Cache.Outages
import PullThrough.Proofs.Store.Cleanup
import PullThrough.Proofs.Store.Sharing
/-
  Manifests that are written and read at once.

  Calls take turns on one cache, step by step and in any order, and each may be given up between two
  steps. The invariant between any two steps is that every record file holds a whole record that one
  of the calls writes under its reference, and that the payload of this record is there
  (`Store.IsConsistent`). A writer keeps it because it puts the payload in its place before the
  record and because its scratch files are its own; a reader relies on it at both of its steps,
  though the record may be another one by the time of the second.

  So a reader answers nothing, or a manifest of one writer, and never nothing when it begins after a
  writer of its reference is done; and when all calls have ended no scratch file is left
  (`ManifestCall.run_consistent`).
-/
namespace PullThrough

open PullThrough.Path (location)
open Store (SameFile)

/-- A reference whose record has a file of its own, and to an image that no file is in the way
of. -/
structure ManifestRef.IsUsual (r : ManifestRef) : Prop extends r.IsAlone where
  tags : "tags" ∉ Path.ofText r.image

namespace ManifestRef

variable {r : ManifestRef}

/-- The place of the record of a reference. -/
def place (r : ManifestRef) : Place := .record r.group r.image r.tag

theorem IsUsual.image_isUsual (h : r.IsUsual) : Store.IsUsual r.group r.image :=
  ⟨h.group, h.image, h.tags, h.folders⟩

theorem IsUsual.isRegular (h : r.IsUsual) : r.place.IsRegular := h.image_isUsual.record h.tag

theorem IsUsual.recordPath (h : r.IsUsual) (s : Store) :
    s.recordPath r.group r.image r.tag = s.pathOf r.place :=
  s.recordPath_eq h.isGroup h.isImage h.tag

theorem IsUsual.payloadPath (h : r.IsUsual) (s : Store) (digest : Digest) :
    s.payloadPath r.group r.image digest = s.pathOf (.payload r.group r.image digest) :=
  s.payloadPath_eq h.isGroup h.isImage digest

end ManifestRef

/-! ## Calls -/

/-- A call of one that writes or reads a manifest. -/
inductive ManifestCall where
  | write (r : ManifestRef) (digest : Digest) (contentType : String) (data : Bytes)
  | read (r : ManifestRef)

/-- What a call comes to. -/
inductive ManifestReply where
  | written (outcome : Except Failure ManifestRecord)
  | read (outcome : Except Failure (Option (ManifestRecord × Bytes)))

namespace ManifestCall

def job (s : Store) : ManifestCall → Job ManifestReply
  | write r digest contentType data => do
    return .written (← (s.writeManifest r.group r.image r.tag digest contentType data).run)
  | read r => do
    return .read (← (s.readManifest r.group r.image r.tag).run)

/-- Its reference is a usual one, and the size of a payload has sixty-four bits. -/
def IsFair : ManifestCall → Prop
  | write r _ _ data => r.IsUsual ∧ data.length < 2 ^ 64
  | read r => r.IsUsual

end ManifestCall

/-- The record is that of one call that writes under the reference. -/
def ManifestRef.IsWritten (r : ManifestRef) (calls : List ManifestCall) (record : ManifestRecord) :
    Prop :=
  ∃ digest contentType data created updated, ManifestCall.write r digest contentType data ∈ calls ∧
    Digest.of data = digest ∧
      record = ⟨r.group, r.image, r.tag, digest, contentType, data.length, created, updated⟩

namespace Store

variable {s : Store} {calls : List ManifestCall} {d d' : Disk} {x : Place} {own : List Nat}
  {r : ManifestRef}

/-! ## Files that are there -/

/-- There is a file at a place, and its path is one of the device. -/
def IsThere (s : Store) (x : Place) (d : Disk) : Prop :=
  Disk.checkPath (s.pathOf x) = .ok () ∧
    ∃ content, d.get? (s.locationOf x) = some (.file content)

theorem IsThere.later (h : s.IsThere x d) (hx : x.IsOwn) (hd : s.KeepsOff own d d') :
    s.IsThere x d' := by
  obtain ⟨hcheck, content, hf⟩ := h
  exact ⟨hcheck, hd.present x hx content hf⟩

theorem IsThere.of_find {e : Entry} (hd : s.IsLaidOut d) (hx : x.IsRegular)
    (hf : d.find (s.pathOf x) = .ok e) : s.IsThere x d := by
  obtain ⟨hl, hg⟩ := Disk.find_eq_ok hf
  rw [location_pathOf s hx.isPlain] at hg
  refine ⟨(Disk.locate_ok hl).1, ?_⟩
  cases e with
  | folder => exact absurd hg (hd.not_folder hx.toIsFlat)
  | file content => exact ⟨content, hg⟩

/-! ## The invariant -/

/-- What is in the record file of a reference is the record of a call, and the payload of
that record is there. -/
def HoldsWritten (s : Store) (calls : List ManifestCall) (r : ManifestRef) (d : Disk) : Prop :=
  ∀ content, d.get? (s.locationOf r.place) = some (.file content) → ∃ record : ManifestRecord,
    content = record.encode ∧ record.IsProper ∧ r.IsWritten calls record ∧
      s.IsThere (.payload r.group r.image record.digest) d

/-- As long as the record file stays the same. -/
theorem HoldsWritten.later (h : s.HoldsWritten calls r d)
    (hsame : SameFile (s.locationOf r.place) d d') (hd : s.KeepsOff own d d') :
    s.HoldsWritten calls r d' := by
  intro content hf
  obtain ⟨record, hcontent, hproper, hwritten, hpayload⟩ := h content ((hsame content).1 hf)
  exact ⟨record, hcontent, hproper, hwritten, hpayload.later (Place.isOwn_payload _ _ _) hd⟩

/-- This is so for every reference. -/
structure IsConsistent (s : Store) (calls : List ManifestCall) (d : Disk) : Prop where
  isLaidOut : s.IsLaidOut d
  written : ∀ r : ManifestRef, r.IsUsual → s.HoldsWritten calls r d

theorem IsConsistent.of_isEmpty (h : s.IsEmpty d) (calls : List ManifestCall) :
    s.IsConsistent calls d where
  isLaidOut := .of_isEmpty h
  written r _ content hf := by
    rw [h.place] at hf
    cases hf

/-- Scratch files do not matter. -/
theorem isInvariant_isConsistent (s : Store) (calls : List ManifestCall) :
    s.IsInvariant (s.IsConsistent calls) where
  isLaidOut _ hd := hd.isLaidOut
  change d d' hd hc hsame := by
    refine ⟨hd.isLaidOut.change (fun _ hx => hx) hc, fun r hr => ?_⟩
    exact (hd.written r hr).later (hsame r.place (Place.isOwn_record _ _ _)) (.none_of_change hc)

/-- A payload gets to its place. -/
theorem IsConsistent.putPayload (h : s.IsConsistent calls d) (hr : r.IsUsual) {digest : Digest}
    (hc : s.Change (Eq (.payload r.group r.image digest)) d d') : s.IsConsistent calls d' := by
  have hx : (Place.payload r.group r.image digest).IsRegular := hr.image_isUsual.payload digest
  refine ⟨h.isLaidOut.change (by rintro _ rfl; exact hx) hc, fun r' hr' => ?_⟩
  have hsame := hc.leaves.other (Place.isOwn_record r'.group r'.image r'.tag)
    (Place.record_ne_payload r'.group r'.image r'.tag r.group r.image digest)
  exact (h.written r' hr').later hsame (.none_of_change hc)

/-- The record of a call gets to its place, and its payload is there. -/
theorem IsConsistent.putRecord (h : s.IsConsistent calls d) (hr : r.IsUsual)
    {record : ManifestRecord} (hproper : record.IsProper) (hwritten : r.IsWritten calls record)
    (hpayload : s.IsThere (.payload r.group r.image record.digest) d)
    (hc : s.Change (Eq r.place) d d')
    (hf : d'.find (s.pathOf r.place) = .ok (.file record.encode)) :
    s.IsConsistent calls d' := by
  have hkeeps : s.KeepsOff [] d d' := .none_of_change hc
  refine ⟨h.isLaidOut.change (by rintro _ rfl; exact hr.isRegular) hc, fun r' hr' => ?_⟩
  by_cases hn : r'.place.names = r.place.names
  · obtain rfl := hr'.record_inj hr.toIsAlone hn
    intro content hf'
    have hget := (Disk.find_eq_ok hf).2
    rw [location_pathOf s hr.isRegular.isPlain, hf'] at hget
    cases hget
    exact ⟨record, rfl, hproper, hwritten, hpayload.later (Place.isOwn_payload _ _ _) hkeeps⟩
  · have hsame := hc.leaves.other (Place.isOwn_record r'.group r'.image r'.tag) hn
    exact (h.written r' hr').later hsame hkeeps

/-! ## Writing -/

/-- A record that is read in the cache shows the time of its creation. -/
theorem IsConsistent.created (h : s.IsConsistent calls d) (hr : r.IsUsual)
    {existing : ManifestRecord}
    (hread : (d.read (s.pathOf r.place)).toOption.bind ManifestRecord.decode? = some existing) :
    existing.createdAt.IsShown := by
  cases hd : d.read (s.pathOf r.place) with
  | error e =>
    rw [hd] at hread
    cases hread
  | ok content =>
    have hget := (Disk.find_eq_ok (Disk.read_eq_ok hd)).2
    rw [location_pathOf s hr.isRegular.isPlain] at hget
    obtain ⟨record, rfl, hproper, -⟩ := h.written r hr content hget
    have hsome : ManifestRecord.decode? record.encode = some existing := by rwa [hd] at hread
    rw [hproper.decode?_encode] at hsome
    cases hsome
    exact hproper.created

section Writing

variable {clock : Nat → Instant} (hclock : ∀ n, (clock n).IsShown) (hr : r.IsUsual)
  {digest : Digest}
  {contentType : String} {data : Bytes}
  (hcall : ManifestCall.write r digest contentType data ∈ calls) (hsize : data.length < 2 ^ 64)
  (hdigest : Digest.of data = digest)
include hclock hr hcall hsize hdigest

/-- The second half of a write, once the payload is there. -/
theorem writeRecord_among (hpayload : s.IsThere (.payload r.group r.image digest) d) :
    (s.writeRecord r.group r.image r.tag digest contentType data).run.Among
      (s.sharing clock (s.isInvariant_isConsistent calls)) own d
      fun outcome _ d' => outcome.isOk = true → s.IsThere r.place d' := by
  have hown := Place.isOwn_payload r.group r.image digest
  unfold writeRecord
  rw [hr.recordPath]
  refine Job.among_step_same (fun _ => rfl) (fun p hp => by cases hp) fun w₁ hclock₁ _ hd₁ => ?_
  have hnow : (w₁.clock w₁.readings).IsShown := by
    rw [hclock₁]
    exact hclock _
  show Job.Among _ (ExceptT.run (readRecord _ >>= _)) _ _ _
  rw [Attempt.run_bind, Job.among_bind]
  refine Job.among_step_same (fun _ => rfl) (fun p hp => by cases hp) fun w₂ _ hinv₂ hd₂ => ?_
  show Job.Among _ (ExceptT.run (s.writeWhole _ _ >>= _)) _ _ _
  rw [Attempt.run_bind, Job.among_bind]
  refine writeWhole_among _ hr.isRegular (Place.isOwn_record _ _ _) ⟨_, rfl⟩ ?_ ?_ ?_
  · intro d₃ d₄ hinv₃ hd₃ hc hf
    refine hinv₃.putRecord hr ⟨hsize, ?_, hnow⟩ ?_ ?_ hc hf
    · dsimp only [World.perform]
      split
      · next existing hexisting => exact hinv₂.created hr hexisting
      · exact hnow
    · exact ⟨digest, contentType, data, _, _, hcall, hdigest, rfl⟩
    · exact ((hpayload.later hown hd₁).later hown hd₂).later hown hd₃
  · exact fun _ _ _ h => by cases h
  · exact fun own' d' hinv' _ hf _ => .of_find hinv'.isLaidOut hr.isRegular hf

/-- A write that succeeds leaves a record. -/
theorem writeManifest_among :
    (s.writeManifest r.group r.image r.tag digest contentType data).run.Among
      (s.sharing clock (s.isInvariant_isConsistent calls)) own d
      fun outcome _ d' => outcome.isOk = true → s.IsThere r.place d' := by
  have hx : (Place.payload r.group r.image digest).IsRegular := hr.image_isUsual.payload digest
  have hown := Place.isOwn_payload r.group r.image digest
  unfold writeManifest
  dsimp only
  rw [if_neg (by simpa using hdigest), hr.payloadPath]
  rw [Attempt.run_bind, Job.among_bind]
  refine Job.among_step_same (fun _ => rfl) (fun p hp => by cases hp) fun w₁ _ hinv₁ _ => ?_
  show Job.Among _ (ExceptT.run (if !(w₁.disk.find
    (s.pathOf (.payload r.group r.image digest))).toOption.isSome then _ else _)) _ _ _
  cases hf : w₁.disk.find (s.pathOf (.payload r.group r.image digest)) with
  | ok e => exact writeRecord_among hclock hr hcall hsize hdigest (.of_find hinv₁.isLaidOut hx hf)
  | error e =>
    show Job.Among _ (ExceptT.run (s.writeWhole _ data >>= fun _ =>
      s.writeRecord r.group r.image r.tag digest contentType data)) _ _ _
    rw [Attempt.run_bind, Job.among_bind]
    refine writeWhole_among _ hx hown hdigest ?_ ?_ ?_
    · exact fun d₂ d' hinv₂ _ hc _ => hinv₂.putPayload hr hc
    · exact fun _ _ _ h => by cases h
    · intro own' d' hinv' _ hf'
      exact writeRecord_among hclock hr hcall hsize hdigest (.of_find hinv'.isLaidOut hx hf')

end Writing

/-! ## Reading -/

/-- What a read comes to: nothing, the manifest of a call, or a path that no device has. -/
def ReadsRight (s : Store) (calls : List ManifestCall) (r : ManifestRef) :
    Except Failure (Option (ManifestRecord × Bytes)) → Prop
  | .ok none => True
  | .ok (some (record, data)) => Digest.of data = record.digest ∧ r.IsWritten calls record
  | .error _ => ∃ e, Disk.checkPath (s.recordPath r.group r.image r.tag) = .error e

theorem ReadsRight.isOk {outcome : Except Failure (Option (ManifestRecord × Bytes))}
    (h : s.ReadsRight calls r outcome) (hr : r.IsUsual) (hroom : s.HasRoom) :
    outcome.isOk = true := by
  cases outcome with
  | ok _ => rfl
  | error failure =>
    obtain ⟨e, he⟩ := h
    rw [hroom.checkPath_recordPath hr.isGroup hr.isImage hr.tag] at he
    cases he

/-- A payload that is there has its digest. -/
theorem digest_of_payload (h : s.IsLaidOut d) {group image : String} {digest : Digest}
    {content : Bytes} (hf : d.get? (s.locationOf (.payload group image digest)) =
      some (.file content)) :
    Digest.of content = digest := by
  rw [locationOf_eq] at hf
  exact h.isTidy.hashed _ digest content hf

/-- A read of a record that is there comes to a manifest. -/
theorem readManifest_among (clock : Nat → Instant) (hr : r.IsUsual) :
    (s.readManifest r.group r.image r.tag).run.Among
      (s.sharing clock (s.isInvariant_isConsistent calls)) own d
      fun outcome _ _ => s.ReadsRight calls r outcome ∧
        (s.IsThere r.place d → outcome ≠ .ok none) := by
  have hown : r.place.IsOwn := Place.isOwn_record r.group r.image r.tag
  unfold readManifest
  dsimp only
  rw [hr.recordPath]
  refine readIfThere_among _ hr.isRegular ?_ ?_ ?_
  · refine fun e d' hc => ⟨⟨e, ?_⟩, fun _ h => by cases h⟩
    rw [hr.recordPath]
    exact hc
  · refine fun d' _ hd hnone => ⟨trivial, fun hthere => ?_⟩
    obtain ⟨-, content, hf⟩ := hthere.later hown hd
    rw [hnone] at hf
    cases hf
  · intro d₁ content hinv₁ hd₁ hf
    obtain ⟨record, rfl, hproper, hwritten, hpayload⟩ := hinv₁.written r hr content hf
    dsimp only
    rw [hproper.decode?_encode]
    dsimp only
    rw [hr.payloadPath]
    have hx : (Place.payload r.group r.image record.digest).IsRegular :=
      hr.image_isUsual.payload record.digest
    -- the payload was there with the record, and stays
    refine readIfThere_among _ hx ?_ ?_ ?_
    · intro e d' hc
      rw [hpayload.1] at hc
      cases hc
    · intro d' _ hd₂ hnone
      obtain ⟨-, payload, hf'⟩ := hpayload.later (Place.isOwn_payload _ _ _) hd₂
      rw [hnone] at hf'
      cases hf'
    · intro d₂ payload hinv₂ _ hf'
      have hdigest := digest_of_payload hinv₂.isLaidOut hf'
      dsimp only
      rw [if_pos hdigest]
      exact ⟨⟨hdigest, hwritten⟩, fun _ h => by cases h⟩

end Store

/-! ## Calls in turns -/

namespace ManifestCall

variable {s : Store} {calls : List ManifestCall} {call : ManifestCall} {d d' : Disk}
  {own : List Nat}

/-- What a call comes to. A record that is written is there from then on. -/
def Comes (s : Store) (calls : List ManifestCall) : ManifestCall → ManifestReply → Disk → Prop
  | write r _ _ _, reply, d =>
    ∃ outcome, reply = .written outcome ∧ (outcome.isOk = true → s.IsThere r.place d)
  | read r, reply, _ => ∃ outcome, reply = .read outcome ∧ s.ReadsRight calls r outcome

theorem Comes.later {reply : ManifestReply} (h : call.Comes s calls reply d)
    (hd : s.KeepsOff own d d') : call.Comes s calls reply d' := by
  cases call with
  | write r digest contentType data =>
    obtain ⟨outcome, hreply, hthere⟩ := h
    exact ⟨outcome, hreply, fun hok => (hthere hok).later (Place.isOwn_record _ _ _) hd⟩
  | read r => exact h

theorem job_among {clock : Nat → Instant} (hclock : ∀ n, (clock n).IsShown) (hcall : call ∈ calls)
    (hfair : call.IsFair) :
    (call.job s).Among (s.sharing clock (s.isInvariant_isConsistent calls)) own d
      fun reply _ d' => call.Comes s calls reply d' ∧
        ∀ r, call = read r → s.IsThere r.place d → reply ≠ .read (.ok none) := by
  cases call with
  | read r =>
    refine Job.among_bind.2 ((Store.readManifest_among clock hfair).post ?_)
    rintro outcome own' d' ⟨hright, hsome⟩
    refine ⟨⟨outcome, rfl, hright⟩, fun r' hr' hthere h => ?_⟩
    cases hr'
    cases h
    exact hsome hthere rfl
  | write r digest contentType data =>
    have hwrites : (s.writeManifest r.group r.image r.tag digest contentType data).run.Among
        (s.sharing clock (s.isInvariant_isConsistent calls)) own d
        fun outcome _ d' => outcome.isOk = true → s.IsThere r.place d' := by
      by_cases hdigest : Digest.of data = digest
      · exact Store.writeManifest_among hclock hfair.1 hcall hfair.2 hdigest
      · unfold Store.writeManifest
        dsimp only
        rw [if_pos hdigest]
        exact fun h => by cases h
    refine Job.among_bind.2 (hwrites.post fun outcome own' d' hthere => ?_)
    exact ⟨⟨outcome, rfl, hthere⟩, fun r' hr' => by cases hr'⟩

/-- A call moves files to the places of records and payloads only, and leaves no scratch file. -/
theorem job_tends {kept : Location → Prop} (hkept : ∀ l, s.Owns l → kept l) (hfair : call.IsFair) :
    (call.job s).Tends kept [] fun _ held => held = [] := by
  cases call with
  | read r => exact Job.tends_bind.2 (s.readManifest_tends r.group r.image r.tag)
  | write r digest contentType data =>
    have hr : r.IsUsual := hfair.1
    have hrecord := hkept _ ⟨.record r.group r.image r.tag, ⟨hr.group, hr.image, hr.tag⟩, rfl⟩
    have hpayload := hkept _ ⟨.payload r.group r.image digest, ⟨hr.group, hr.image⟩, rfl⟩
    refine Job.tends_bind.2 ((s.writeManifest_tends hrecord hpayload contentType data).post ?_)
    exact fun _ _ h => h.1

/-! ### All calls -/

/-- Some calls on a cache, none of them begun. -/
def pool (s : Store) (calls : List ManifestCall) (w : World) : Pool ManifestReply :=
  Pool.start w (calls.map (job s))

theorem pool_member {i : Nat} {r : Running ManifestReply} {w : World}
    (h : (pool s calls w).members[i]? = some (.running r)) :
    ∃ call, calls[i]? = some call ∧ r = ⟨call.job s, []⟩ := by
  simp only [pool, Pool.start, List.getElem?_map, Option.map_eq_some_iff] at h
  obtain ⟨_, ⟨call, hcall, rfl⟩, hr⟩ := h
  cases hr
  exact ⟨call, hcall, rfl⟩

/-- What each call comes to, if it comes to an end. -/
def AllCome (s : Store) (calls : List ManifestCall) (i : Nat) (reply : ManifestReply) (_ : List Nat)
    (d : Disk) : Prop :=
  ∀ call, calls[i]? = some call → call.Comes s calls reply d

theorem lasts_allCome (clock : Nat → Instant) :
    Pool.Lasts (s.sharing clock (s.isInvariant_isConsistent calls)) (AllCome s calls) :=
  fun _ _ _ _ _ hd h call hcall => (h call hcall).later hd

section Turns

variable {w : World} (hw : s.IsEmpty w.disk) (hclock : ∀ n, (w.clock n).IsShown)
  (hcalls : ∀ call ∈ calls, call.IsFair)
include hw hclock hcalls

/-- In any turns the calls keep to the rules. -/
theorem pool_shares (turns : List Turn) :
    ∃ own, ((pool s calls w).run turns).Shares
      (s.sharing w.clock (s.isInvariant_isConsistent calls)) (AllCome s calls) own := by
  have hstart : (pool s calls w).Shares (s.sharing w.clock (s.isInvariant_isConsistent calls))
      (AllCome s calls) fun _ => [] := by
    refine .start rfl (.of_isEmpty hw calls) fun i j hj => ?_
    simp only [List.getElem?_map, Option.map_eq_some_iff] at hj
    obtain ⟨call, hcall, rfl⟩ := hj
    have hmem := List.mem_of_getElem? hcall
    refine (job_among hclock hmem (hcalls call hmem)).post fun reply own' d' h call' hcall' => ?_
    rw [hcall] at hcall'
    cases hcall'
    exact h.1
  exact hstart.run (lasts_allCome w.clock) turns

/-- A read that begins after a write is done comes to a manifest. -/
theorem read_after_write {before : List Turn} (after : List Turn) {i k : Nat} {r : ManifestRef}
    {digest : Digest} {contentType : String} {data : Bytes} {record : ManifestRecord}
    (hi : calls[i]? = some (write r digest contentType data))
    (hdone : ((pool s calls w).run before).outcome? i = some (.written (.ok record)))
    (hk : calls[k]? = some (read r)) (hidle : Turn.advance k ∉ before) :
    ((pool s calls w).run (before ++ after)).outcome? k ≠ some (.read (.ok none)) := by
  obtain ⟨own, hshares⟩ := pool_shares hw hclock hcalls before
  obtain ⟨_, houtcome, hthere⟩ := hshares.outcome hdone _ hi
  cases houtcome
  have hmem := List.mem_of_getElem? hk
  -- the read has not begun, so from here on it relies on the record that is there now
  have hexpect := hshares.expect (k := k) (R := (· ≠ .read (.ok none))) fun m hm => by
    rcases (pool s calls w).run_idle hidle with hsame | hgone
    · rw [hsame] at hm
      obtain ⟨call, hcall, rfl⟩ := pool_member hm
      rw [hk] at hcall
      cases hcall
      refine (job_among hclock hmem (hcalls _ hmem)).post fun reply own' d' h => ⟨?_, ?_⟩
      · intro call hcall
        rw [hk] at hcall
        cases hcall
        exact h.1
      · exact h.2 r rfl (hthere rfl)
    · rw [hgone] at hm
      cases hm
  obtain ⟨own', hend⟩ := hexpect.run (fun j a own d d' hd h =>
    ⟨lasts_allCome w.clock j a own d d' hd h.1, h.2⟩) after
  rw [Pool.run_append]
  exact fun houtcome => (hend.outcome houtcome).2 rfl rfl

omit hw hclock in
/-- When all calls have ended, each file was there before or is in its place. -/
theorem settled (turns : List Turn)
    (hend : ∀ m ∈ ((pool s calls w).run turns).members, m.HasEnded) {l : Location} {content : Bytes}
    (hf : ((pool s calls w).run turns).world.disk.get? l = some (.file content)) :
    (∃ content', w.disk.get? l = some (.file content')) ∨ s.Owns l := by
  have horderly : (pool s calls w).IsOrderly
      fun l => (∃ content', w.disk.get? l = some (.file content')) ∨ s.Owns l := by
    refine .start (fun l content hl => .inl ⟨content, hl⟩) fun j hj => ?_
    obtain ⟨call, hcall, rfl⟩ := List.mem_map.1 hj
    exact job_tends (fun _ => .inr) (hcalls call hcall)
  exact (horderly.run turns).settled hend l content hf

end Turns

/-- Calls that take turns in any order, and of which any are given up between two steps. Each read
comes to nothing or to the manifest of one write under its reference. It fails only for a path that
no device has, and not at all if the base folder leaves room for the names below it. It does not
come to nothing if it begins after such a write is done. When all calls have ended, each new file is
in its place, and none is a scratch file. -/
theorem run_consistent (s : Store) {w : World} (hw : s.IsEmpty w.disk)
    (hclock : ∀ n, (w.clock n).IsShown) {calls : List ManifestCall}
    (hcalls : ∀ call ∈ calls, call.IsFair) (turns : List Turn) :
    (∀ i r reply, calls[i]? = some (read r) →
      ((pool s calls w).run turns).outcome? i = some reply →
        ∃ outcome, reply = .read outcome ∧ s.ReadsRight calls r outcome ∧
          (s.HasRoom → outcome.isOk = true)) ∧
    (∀ before after i k r digest contentType data record, turns = before ++ after →
      calls[i]? = some (write r digest contentType data) →
        ((pool s calls w).run before).outcome? i = some (.written (.ok record)) →
          calls[k]? = some (read r) → Turn.advance k ∉ before →
            ((pool s calls w).run turns).outcome? k ≠ some (.read (.ok none))) ∧
    ((∀ m ∈ ((pool s calls w).run turns).members, m.HasEnded) → ∀ l content,
      ((pool s calls w).run turns).world.disk.get? l = some (.file content) →
        (∃ content', w.disk.get? l = some (.file content')) ∨
          s.Owns l ∧ ∀ target label, l ≠ location (Store.scratchBeside target label)) := by
  refine ⟨?_, ?_, ?_⟩
  · intro i r reply hi hreply
    obtain ⟨own, hshares⟩ := pool_shares hw hclock hcalls turns
    obtain ⟨outcome, hread, hright⟩ := hshares.outcome hreply _ hi
    have hr : r.IsUsual := hcalls _ (List.mem_of_getElem? hi)
    exact ⟨outcome, hread, hright, hright.isOk hr⟩
  · rintro before after i k r digest contentType data record rfl hi hdone hk hidle
    exact read_after_write hw hclock hcalls after hi hdone hk hidle
  · intro hend l content hf
    refine (settled hcalls turns hend hf).imp_right fun howns => ⟨howns, ?_⟩
    rintro target label rfl
    exact s.not_owns_scratch target label howns

/-- A write that is done, one that is given up while its scratch file is open, and then a read. -/
theorem run_consistent_of_given_up :
    let s : Store := { base := [""] }
    let w : World :=
      { disk := ⟨[(Slot.of ["groups"], .folder)]⟩, clock := fun _ => ⟨0, 0⟩,
        origin := fun _ _ => .failed }
    let r : ManifestRef := ⟨"g", "i", "t"⟩
    let calls : List ManifestCall :=
      [.write r (Digest.of []) "a" [], .write r (Digest.of []) "b" [], .read r]
    let before : List Turn := List.replicate 15 (.advance 0) ++ List.replicate 7 (.advance 1)
    let turns : List Turn := before ++ [.abandon 1, .advance 2, .advance 2]
    s.IsEmpty w.disk ∧ (∀ call ∈ calls, call.IsFair) ∧
      ((pool s calls w).run before).held.length = 1 ∧
      (∃ record data, ((pool s calls w).run turns).outcome? 2 =
        some (.read (.ok (some (record, data)))) ∧
        r.IsWritten calls record) ∧
      ∀ l content, ((pool s calls w).run turns).world.disk.get? l = some (.file content) →
        (∃ content', w.disk.get? l = some (.file content')) ∨ s.Owns l := by
  intro s w r calls before turns
  have hw : s.IsEmpty w.disk := Store.isEmpty_of_new
  have hepoch : Instant.IsShown ⟨0, 0⟩ := ⟨by decide +kernel, .inl (by decide)⟩
  have hr : r.IsUsual :=
    ⟨⟨⟨by decide +kernel, by decide +kernel, by decide +kernel⟩, by decide +kernel,
      fun digest h => by
      have hlength := congrArg (fun tag : String => tag.toList.length) h
      simp [r, Name.underscored] at hlength⟩, by decide +kernel⟩
  have hcalls : ∀ call ∈ calls, call.IsFair := by
    simp only [calls, List.forall_mem_cons, List.not_mem_nil, false_implies, implies_true, and_true]
    exact ⟨⟨hr, by decide⟩, ⟨hr, by decide⟩, hr⟩
  obtain ⟨hreads, hafter, hsettled⟩ := run_consistent s hw (fun _ => hepoch) hcalls turns
  obtain ⟨hheld, hdone, hread, hended⟩ : ((pool s calls w).run before).held.length = 1 ∧
      (((pool s calls w).run before).outcome? 0).any (fun
        | .written outcome => outcome.isOk
        | .read _ => false) = true ∧
      (((pool s calls w).run turns).outcome? 2).any (fun
        | .written _ => false
        | .read outcome => outcome.isOk) = true ∧
      ∀ m ∈ ((pool s calls w).run turns).members, m.HasEnded := by
    rw [Pool.run_append]
    decide +kernel
  refine ⟨hw, hcalls, hheld, ?_, fun l content hf =>
    (hsettled hended l content hf).imp_right And.left⟩
  obtain ⟨(failure | record) | _, hwritten, hok⟩ := (Option.any_eq_true _ _).1 hdone
  · cases hok
  · obtain ⟨_ | outcome, hanswer, hok'⟩ := (Option.any_eq_true _ _).1 hread
    · cases hok'
    obtain ⟨_, houtcome, hright⟩ := hreads 2 r _ rfl hanswer
    cases houtcome
    rcases outcome with failure | _ | ⟨record', data⟩
    · cases hok'
    · exact absurd hanswer (hafter before _ 0 2 r _ _ _ record rfl rfl hwritten rfl (by decide))
    · exact ⟨record', data, hanswer, hright.1.2⟩
  · cases hok

end ManifestCall

end PullThrough
