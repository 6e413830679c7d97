import Mathlib.Data.Nat.Digits.Defs
import PullThrough.Http.Server
import PullThrough.Proofs.Cache.Download
import PullThrough.Proofs.Gateway.Access
import PullThrough.Proofs.Gateway.Mirrors
/-
  Groups do not notice each other.

  A run is a row of visits, each with the clock and the troubles of its own time, to a gateway whose
  origin has no memory. The answers to the visits for one group are the same in the run that has no
  other visits (`Gateway.handle_isolates`). The reason is that a request writes to places of its
  group only, so what a view of another group takes in stays as it is, and that two worlds which
  agree in what a group takes in answer its requests the same and agree again afterwards
  (`Gateway.SideBySide.own`, `Gateway.SideBySide.other`).

  Scratch files are numbered for all groups together, so without the other visits they have other
  numbers. This does not matter if no part of an image is named like a scratch file of the store,
  and if the paths of all scratch files are short enough for the disk. If an image is named like
  that, or a number more makes a path too long, it does (`Gateway.answers_tell_numbers`).
-/
namespace PullThrough

open PullThrough.Path (location)

/-! ## Room for scratch files -/

/-- No part of an image is named like a scratch file. -/
def Store.IsTrimImage (s : Store) (image : String) : Prop :=
  ∀ part ∈ Path.ofText image, ¬ s.IsScratchName part

/-- Below the folder of all groups there is room for the scratch files of the longest names. -/
structure Store.HasRoomForDrafts (s : Store) : Prop where
  clear : ∀ part ∈ s.groupsFolder, '\x00' ∉ part.toList
  size : Disk.pathSize s.groupsFolder + 699 ≤ Disk.maxPath + 1
  process : s.process < 2 ^ 32

theorem size_toString {n k : Nat} (hk : 0 < k) (h : n < 10 ^ k) :
    (toString n).utf8ByteSize ≤ k := by
  have hascii : ∀ c ∈ Nat.toDigits 10 n, c.toNat < 0x80 := by
    intro c hc
    have hdigit := Nat.isDigit_of_mem_toDigits (by decide) (by decide) hc
    simp only [Char.isDigit, Bool.and_eq_true, decide_eq_true_eq, UInt32.le_iff_toNat_le] at hdigit
    have hval : c.val.toNat = c.toNat := rfl
    have h9 : ('9' : Char).val.toNat = 57 := rfl
    omega
  rw [Nat.toString_eq_ofList_toDigits, size_of_ascii hascii]
  exact Nat.toDigits_length 10 n k hk h

theorem Store.size_scratchLabel {s : Store} {n : Nat} (hs : s.process < 2 ^ 32) (hn : n < 2 ^ 64) :
    (s.scratchLabel n).utf8ByteSize ≤ 31 := by
  have hdash : "-".utf8ByteSize = 1 := rfl
  have hprocess := size_toString (n := s.process) (k := 10) (by decide) (by omega)
  have hnumber := size_toString (n := n) (k := 20) (by decide) (by omega)
  rw [scratchLabel, String.utf8ByteSize_append, String.utf8ByteSize_append]
  omega

theorem Store.IsScratchName.dot {s : Store} {name : String} (h : s.IsScratchName name) :
    '.' ∈ name.toList := by
  obtain ⟨file, n, rfl⟩ := h
  simp

theorem Store.IsScratchName.getLast? {s : Store} {name : String} (h : s.IsScratchName name) :
    name.toList.getLast? = some 'p' := by
  obtain ⟨file, n, rfl⟩ := h
  have htmp : ".tmp".toList.getLast? = some 'p' := rfl
  rw [String.toList_append, List.getLast?_append, htmp]
  rfl

/-- Of the names of a file in the cache only the parts of its image may be named like a scratch
file. -/
theorem FileKey.isTrim {s : Store} {key : FileKey} (h : s.IsTrimImage key.place.image) :
    key.place.IsTrim s := by
  have hnames (x : Place) (hi : s.IsTrimImage x.image) (hk : '.' ∉ x.kind.toList)
      (hd : '.' ∉ x.folder.toList) (hf : ¬ s.IsScratchName x.file) : x.IsTrim s := by
    intro n hn
    simp only [Place.names, List.tail_cons, List.mem_cons, List.mem_append, List.not_mem_nil,
      or_false] at hn
    rcases hn with rfl | hn | rfl | rfl
    · exact fun hs => hk hs.dot
    · exact hi n hn
    · exact fun hs => hd hs.dot
    · exact hf
  have hhex (digest : Digest) : ¬ s.IsScratchName digest.hex :=
    fun hs => Digest.not_mem_hex '.' digest (by decide) hs.dot
  cases key with
  | record group image tag =>
    refine hnames _ h (show '.' ∉ "manifests".toList by decide) (show '.' ∉ "tags".toList by decide)
      fun hs => ?_
    have hjson : ".json".toList.getLast? = some 'n' := rfl
    have hlast := hs.getLast?
    change (Store.tagName tag ++ ".json").toList.getLast? = _ at hlast
    rw [String.toList_append, List.getLast?_append, hjson] at hlast
    exact absurd (Option.some.inj hlast) (by decide)
  | payload group image digest =>
    exact hnames _ h (show '.' ∉ "manifests".toList by decide)
      (show '.' ∉ "sha256".toList by decide)
      (hhex digest)
  | blob group image digest =>
    exact hnames _ h (show '.' ∉ "blobs".toList by decide) (show '.' ∉ "sha256".toList by decide)
      (hhex digest)

theorem FileKey.checkImage {key : FileKey} (h : key.IsValid) :
    Name.checkImage key.place.image = .ok () := by
  cases key with
  | record => exact h.2.1
  | payload => exact h.2
  | blob => exact h.2

/-- Names of a size, none of which has a null character. -/
structure Place.IsCompact (x : Place) : Prop where
  clear : ∀ n ∈ x.names, '\x00' ∉ n.toList
  size : Disk.pathSize x.names ≤ 663
  file : x.file.utf8ByteSize ≤ 133

theorem FileKey.isCompact {key : FileKey} (h : key.IsValid) : key.place.IsCompact := by
  have hnames (x : Place) (hg : Name.checkGroup x.group = .ok ())
      (hi : Name.checkImage x.image = .ok ()) (hkind : x.kind = "manifests" ∨ x.kind = "blobs")
      (hfolder : x.folder = "tags" ∨ x.folder = "sha256") (hclear : '\x00' ∉ x.file.toList)
      (hfile : x.file.utf8ByteSize ≤ 133) : x.IsCompact := by
    have hg := Name.isGroup_of_check hg
    have hi := Name.isImage_of_check hi
    have hkinds : '\x00' ∉ x.kind.toList ∧ x.kind.utf8ByteSize ≤ 9 := by
      rcases hkind with hk | hk <;> rw [hk] <;> decide
    have hfolders : '\x00' ∉ x.folder.toList ∧ x.folder.utf8ByteSize ≤ 6 := by
      rcases hfolder with hd | hd <;> rw [hd] <;> decide
    refine ⟨fun n hn => ?_, ?_, hfile⟩
    · simp only [Place.names, List.mem_cons, List.mem_append, List.not_mem_nil, or_false] at hn
      rcases hn with rfl | rfl | hn | rfl | rfl
      · exact Name.not_mem_of_isGroup hg (by decide)
      · exact hkinds.1
      · exact Name.not_mem_of_isImage hi (by decide) n hn
      · exact hfolders.1
      · exact hclear
    · have hgroup := Name.size_of_isGroup hg
      have himage := Name.size_of_isImage hi
      have hparts := Path.pathSize_ofText x.image
      simp only [Place.names, Disk.pathSize, Disk.pathSize_append]
      omega
  cases key with
  | record group image tag =>
    refine hnames _ h.1 h.2.1 (.inl rfl) (.inl rfl) ?_ ?_
    · show '\x00' ∉ (Store.tagName tag ++ ".json").toList
      rw [String.toList_append, List.mem_append, not_or]
      exact ⟨Name.not_mem_tagName h.2.2 (by decide) (by decide) (by decide), by decide⟩
    · have htag := Name.size_tagName h.2.2
      have hjson : ".json".utf8ByteSize = 5 := rfl
      show (Store.tagName tag ++ ".json").utf8ByteSize ≤ 133
      rw [String.utf8ByteSize_append]
      omega
  | payload group image digest =>
    exact hnames _ h.1 h.2 (.inl rfl) (.inr rfl) (Digest.not_mem_hex _ digest (by decide))
      (show digest.hex.utf8ByteSize ≤ 133 by rw [digest.size_hex]; decide)
  | blob group image digest =>
    exact hnames _ h.1 h.2 (.inr rfl) (.inr rfl) (Digest.not_mem_hex _ digest (by decide))
      (show digest.hex.utf8ByteSize ≤ 133 by rw [digest.size_hex]; decide)

theorem FileKey.hasRoomFor {s : Store} {key : FileKey} (h : key.IsValid)
    (hroom : s.HasRoomForDrafts) {n : Nat} (hn : n < 2 ^ 64) : s.HasRoomFor key.place n := by
  have hlabel := Store.size_scratchLabel hroom.process hn
  obtain ⟨hclear, hsize, hfile⟩ := isCompact h
  have hdot : ".".utf8ByteSize = 1 := rfl
  have htmp : ".tmp".utf8ByteSize = 4 := rfl
  have hscratch : (key.place.scratch (s.scratchLabel n)).file.utf8ByteSize =
      key.place.file.utf8ByteSize + (s.scratchLabel n).utf8ByteSize + 5 := by
    simp only [Place.scratch, String.utf8ByteSize_append]
    omega
  have hconcat (x : Place) : x.names = x.names.dropLast ++ [x.file] := by
    rw [Place.dropLast_names]
    simp [Place.names]
  refine ⟨Disk.checkPath_of_size (fun part hp => ?_) ?_, by rw [hscratch, Disk.maxName]; omega⟩
  · rw [Store.pathOf, hconcat, Place.dropLast_scratch, List.mem_append, List.mem_append,
      List.mem_singleton] at hp
    rcases hp with hp | hp | rfl
    · exact hroom.clear part hp
    · exact hclear part (List.dropLast_subset _ hp)
    · simp only [Place.scratch, String.toList_append, List.mem_append, not_or]
      exact ⟨⟨⟨hclear _ (by simp [Place.names]), by decide⟩,
        s.not_mem_scratchLabel (by decide) (by decide) n⟩, by decide⟩
  · have hall := hroom.size
    rw [hconcat, Disk.pathSize_append] at hsize
    rw [Store.pathOf, hconcat, Place.dropLast_scratch, Disk.pathSize_append, Disk.pathSize_append]
    simp only [Disk.pathSize] at hsize ⊢
    omega

/-! ## Visits -/

/-- A request, and what surrounds the gateway while it is handled: the clock and the troubles of the
disk. -/
structure Visit where
  request : PullRequest
  clock : Nat → Instant
  trouble : Nat → Bool := fun _ => false

/-- The world in which a request is handled. -/
def Visit.enter (x : Visit) (w : World) : World :=
  { w with clock := x.clock, readings := 0, trouble := x.trouble, writes := 0 }

/-- If a visit is for the group, its image has no part that is named like a scratch file. -/
def Visit.IsOrdinary (s : Store) (group : String) (x : Visit) : Prop :=
  x.request.group = group → Name.checkImage x.request.image = .ok () →
    s.IsTrimImage x.request.image

/-- The content of an answer, that of a file as it is on a disk. -/
def Body.content (d : Disk) : Body → Except DiskFault Bytes
  | octets data => .ok data
  | file path => d.read path

/-- What a client is told: an answer and its content, or a rejection. -/
abbrev Told := Except Rejection (PullResponse × Except DiskFault Bytes)

/-- The status of what a client is told. -/
def Told.status : Told → Status
  | .ok _ => .ok
  | .error rejection => rejection.status

namespace Gateway

variable {g : Gateway} {w w' : World} {group : String} {x : Visit}

/-- The world after a visit. -/
def afterVisit (g : Gateway) (x : Visit) (w : World) : World :=
  ((g.handle x.request).run (x.enter w)).2

/-- What a visit is told. -/
def told (g : Gateway) (x : Visit) (w : World) : Told :=
  ((g.handle x.request).run (x.enter w)).1.map fun a => (a, a.body.content (g.afterVisit x w).disk)

/-- Visits one after the other, each with what it is told. -/
def answers (g : Gateway) : World → List Visit → List (Visit × Told)
  | _, [] => []
  | w, x :: rest => (x, g.told x w) :: g.answers (g.afterVisit x w) rest

/-- The world after some visits. -/
def afterVisits (g : Gateway) (w : World) (visits : List Visit) : World :=
  visits.foldl (fun w x => g.afterVisit x w) w

theorem afterVisits_nil (g : Gateway) (w : World) : g.afterVisits w [] = w := List.foldl_nil ..

theorem afterVisits_cons (g : Gateway) (w : World) (x : Visit) (rest : List Visit) :
    g.afterVisits w (x :: rest) = g.afterVisits (g.afterVisit x w) rest := List.foldl_cons ..

/-! ## One visit -/

/-- A place of a group. -/
def IsOfGroup (group : String) (x : Place) : Prop := x.IsPlain ∧ x.IsSound ∧ x.group = group

/-- The content of an answer, if it is not at hand, is a file of a group. -/
def HasContentOf (s : Store) (group : String) (a : PullResponse) : Prop :=
  (∃ data, a.body = .octets data) ∨ ∃ x, IsOfGroup group x ∧ a.body = .file (s.pathOf x)

/-- Files of a group have the same content where the same is held for the group. -/
theorem HasContentOf.content_eq {s : Store} {a : PullResponse} {d d' : Disk}
    (h : HasContentOf s group a)
    (hd : d.Alike (s.groupView group) d') : a.body.content d' = a.body.content d := by
  rcases h with ⟨data, hdata⟩ | ⟨x, ⟨hplain, -, rfl⟩, hfile⟩
  · rw [hdata]
    rfl
  · rw [hfile]
    exact hd.read_eq (fun _ _ h => h) ((s.groupView_covers _).leads hplain)

theorem HasContentOf.map_content_eq {s : Store} {answer : Except Rejection PullResponse}
    {d d' : Disk}
    (h : ∀ a, answer = .ok a → HasContentOf s group a) (hd : d.Alike (s.groupView group) d') :
    (answer.map fun a => (a, a.body.content d')) = answer.map fun a => (a, a.body.content d) := by
  cases answer with
  | error rejection => rfl
  | ok a =>
    show Except.ok (a, _) = Except.ok (a, _)
    rw [(h a rfl).content_eq hd]

theorem serveManifest_changes (g : Gateway) {group image : String} (hg : Name.isGroup group = true)
    (hi : Name.isImage image = true) (tag : String) (w : World) :
    (g.serveManifest group image tag).Does (g.cache.store.Change (IsOfGroup group))
      w fun answer _ =>
      ∀ a, answer = .ok a → ∃ data, a.body = .octets data := by
  unfold serveManifest
  cases ht : Name.checkTag tag with
  | error fault => exact fun _ h => by cases h
  | ok _ =>
    dsimp only
    rw [Job.does_bind]
    refine (g.cache.resolveManifest_does hg hi ht w).mono (fun _ _ hc => hc.mono ?_) ?_
    · rintro _ (rfl | ⟨digest, rfl⟩)
      · exact ⟨Place.isPlain_record hg hi tag, Place.isSound_record _ _ _, rfl⟩
      · exact ⟨Place.isPlain_payload hg hi digest, Place.isSound_payload _ _ _, rfl⟩
    · rintro (failure | found) w' - a ha
      · cases ha
      · cases ha
        exact ⟨_, rfl⟩

theorem serveBlob_changes (g : Gateway) {group image : String} (hg : Name.isGroup group = true)
    (hi : Name.isImage image = true) (digest : String) (w : World) :
    (g.serveBlob group image digest).Does (g.cache.store.Change (IsOfGroup group)) w fun answer _ =>
      ∀ a, answer = .ok a → ∃ x, IsOfGroup group x ∧ a.body = .file (g.cache.store.pathOf x) := by
  unfold serveBlob
  cases digestOf digest with
  | error rejection => exact fun _ h => by cases h
  | ok digest =>
    have hx : IsOfGroup group (.blob group image digest) :=
      ⟨Place.isPlain_blob hg hi digest, Place.isSound_blob _ _ _, rfl⟩
    dsimp only
    rw [Job.does_bind]
    refine (g.cache.resolveBlob_does hg hi digest w).mono
      (fun _ _ hc => hc.mono (by rintro _ rfl; exact hx)) ?_
    rintro (failure | found) w' hfound a ha
    · cases ha
    · cases ha
      refine ⟨_, hx, ?_⟩
      rw [← g.cache.store.blobPath_eq hg hi]
      cases hfound found rfl with
      | hit hd hf => rfl
      | miss hd hf => rfl
      | taken hd hn hf hs => rfl

/-- A request writes to places of its group only, and so does it answer with
files of its group only. -/
theorem handle_changes (g : Gateway) (r : PullRequest) (w : World) :
    (g.handle r).Does (g.cache.store.Change (IsOfGroup r.group)) w fun answer _ =>
      ∀ a, answer = .ok a → HasContentOf g.cache.store r.group a := by
  rw [handle_eq]
  refine Job.does_step_same rfl fun now w₁ _ => ?_
  cases hp : g.permit r (Int64.ofInt (Instant.seconds now)) with
  | error rejection => exact fun _ h => by cases h
  | ok _ =>
    obtain ⟨hg, hi⟩ := names_of_permit hp
    have hg := Name.isGroup_of_check hg
    have hi := Name.isImage_of_check hi
    dsimp only [serve]
    cases r.resource with
    | manifest tag =>
      exact (g.serveManifest_changes hg hi tag w₁).post fun _ _ h a ha => .inl (h a ha)
    | blob digest =>
      exact (g.serveBlob_changes hg hi digest w₁).post fun _ _ h a ha => .inr (h a ha)

/-- In all worlds of a request the cache is in order, and what it has for other groups is as
before. -/
theorem handle_elsewhere (g : Gateway) (r : PullRequest) (hw : g.cache.store.IsTidy w.disk) :
    ∀ w' ∈ (g.handle r).worlds w, g.cache.store.IsTidy w'.disk ∧ ∀ other, other ≠ r.group → ∀ names,
      w'.disk.get? (g.cache.store.root ++ other :: names) =
        w.disk.get? (g.cache.store.root ++ other :: names) := by
  refine (g.handle_changes r w).worlds (I := fun d => g.cache.store.IsTidy d ∧ ∀ other,
    other ≠ r.group → ∀ names, d.get? (g.cache.store.root ++ other :: names) =
      w.disk.get? (g.cache.store.root ++ other :: names)) ?_ ⟨hw, fun _ _ _ => rfl⟩
  rintro d d' ⟨htidy, hd⟩ hc
  refine ⟨htidy.change (fun _ hx => hx.1) (fun _ hx => hx.2.1) hc, fun other hne names => ?_⟩
  rw [hc.elsewhere htidy (fun _ hx => ⟨hx.1, hx.2.2⟩) hne, hd other hne]

theorem handle_isTidy (g : Gateway) (r : PullRequest) (hw : g.cache.store.IsTidy w.disk) :
    g.cache.store.IsTidy ((g.handle r).run w).2.disk :=
  (g.handle_elsewhere r hw _ (Job.run_mem_worlds _ _)).1

theorem afterVisit_origin (g : Gateway) (x : Visit) (w : World) :
    (g.afterVisit x w).origin = w.origin := ((g.handle x.request).run_fixed (x.enter w)).1

theorem afterVisit_isTidy (g : Gateway) (x : Visit) (hw : g.cache.store.IsTidy w.disk) :
    g.cache.store.IsTidy (g.afterVisit x w).disk := g.handle_isTidy (w := x.enter w) x.request hw

/-! ## Two runs -/

/-- What a visit may find different in two worlds: the requests that their origins have seen, and
the numbers of scratch files, if these are apart. -/
def twins (w w' : World) (apart : Prop) (hsame : ¬ apart → w'.serial = w.serial) : Twins where
  times := Eq
  requests := w.requests
  requests' := w'.requests
  number := w.serial
  number' := w'.serial
  apart := apart
  same := hsame

/-- Two worlds that hold the same for a group, and nothing that is named like a scratch file, with
origins that have no memory. The first world has not given out fewer numbers than the second. -/
structure SideBySide (g : Gateway) (group : String) (w w' : World) : Prop where
  trim : g.cache.store.IsTrim group w.disk
  trim' : g.cache.store.IsTrim group w'.disk
  alike : w.disk.Alike (g.cache.store.groupView group) w'.disk
  serial : w'.serial ≤ w.serial
  origin : ∃ reply : OriginRequest → Exchange,
    w.origin = (fun _ => reply) ∧ w'.origin = fun _ => reply

namespace SideBySide

theorem refl {reply : OriginRequest → Exchange} (htrim : g.cache.store.IsTrim group w.disk)
    (horigin : w.origin = fun _ => reply) : g.SideBySide group w w where
  trim := htrim
  trim' := htrim
  alike _ _ := Entry.Alike.refl (fun _ => rfl) _
  serial := Nat.le_refl _
  origin := ⟨reply, horigin, horigin⟩

variable (h : g.SideBySide group w w')
include h

theorem beside {apart : Prop} (hsame : ¬ apart → w'.serial = w.serial) (x : Visit) :
    (twins w w' apart hsame).Beside g.cache.store group (g.cache.store.groupView group) 0
      (x.enter w) (x.enter w') where
  disk := h.alike
  trouble := rfl
  writes := rfl
  clock _ := rfl
  readings := rfl
  serial := ⟨0, Nat.le_refl 0, rfl, rfl⟩
  origin _ r := by
    obtain ⟨reply, ho, ho'⟩ := h.origin
    show w'.origin _ r = w.origin _ r
    rw [ho, ho']
  requests := ⟨[], rfl, rfl⟩
  trim _ := ⟨h.trim, h.trim'⟩

/-- If there is room for scratch files, an ordinary visit cannot tell their numbers. -/
theorem suits (hroom : g.cache.store.HasRoomForDrafts) (hx : x.IsOrdinary g.cache.store group)
    (hgroup : x.request.group = group) (hserial : w.serial + 2 ≤ 2 ^ 64) :
    (twins w w' True fun hn => absurd trivial hn).Suits g.cache.store
      (g.cache.store.groupView group) group x.request.image := by
  refine ⟨g.cache.store.groupView_covers _, fun _ _ h => h, fun _ => rfl, ?_⟩
  intro key hkey _ himage _
  have hle := h.serial
  have htrim := hx hgroup (himage ▸ FileKey.checkImage hkey)
  exact ⟨FileKey.isTrim (himage ▸ htrim), fun n hn =>
    ⟨FileKey.hasRoomFor hkey hroom (show w.serial + n < 2 ^ 64 by omega),
      FileKey.hasRoomFor hkey hroom (show w'.serial + n < 2 ^ 64 by omega)⟩⟩

/-- A visit for the group is told the same in both worlds. -/
theorem own (hroom : g.cache.store.HasRoomForDrafts) (hx : x.IsOrdinary g.cache.store group)
    (hgroup : x.request.group = group) (hserial : w.serial + 2 ≤ 2 ^ 64) :
    g.told x w' = g.told x w ∧ g.SideBySide group (g.afterVisit x w) (g.afterVisit x w') := by
  have hset := h.suits hroom hx hgroup hserial
  have hbeside := h.beside (fun hn => absurd trivial hn) x
  subst hgroup
  have hnow : (x.enter w').now = (x.enter w).now := rfl
  obtain ⟨hanswer, hend⟩ := handle_pair hset hnow hbeside
  have halike : (g.afterVisit x w).disk.Alike (g.cache.store.groupView x.request.group)
      (g.afterVisit x w').disk :=
    hend.disk.mono (fun _ hl => hl) rfl fun a b => View.eq_of_upTo fun _ _ h => h
  obtain ⟨n, -, hs, hs'⟩ := hend.serial
  obtain ⟨reply, ho, ho'⟩ := h.origin
  refine ⟨?_, (hend.trim trivial).1, (hend.trim trivial).2, halike, ?_, reply,
    (g.afterVisit_origin x w).trans ho, (g.afterVisit_origin x w').trans ho'⟩
  · rw [told, told, hanswer]
    exact HasContentOf.map_content_eq (g.handle_changes x.request (x.enter w)).run halike
  · have hle := h.serial
    change (g.afterVisit x w).serial = w.serial + n at hs
    change (g.afterVisit x w').serial = w'.serial + n at hs'
    omega

end SideBySide

/-- A request gives out two numbers at most. -/
theorem handle_serial (g : Gateway) (r : PullRequest) (w : World) :
    ∃ n, n ≤ 2 ∧ ((g.handle r).run w).2.serial = w.serial + n := by
  have hset : (twins w w False fun _ => rfl).Suits g.cache.store
      (g.cache.store.groupView r.group) r.group r.image :=
    ⟨g.cache.store.groupView_covers _, fun _ _ h => h, fun _ => rfl, fun _ _ _ _ => False.elim⟩
  have hbeside : (twins w w False fun _ => rfl).Beside g.cache.store r.group
      (g.cache.store.groupView r.group) 0 w w :=
    ⟨{ disk := fun _ _ => Entry.Alike.refl (fun _ => rfl) _
       trouble := rfl
       writes := rfl
       clock := fun _ => rfl
       readings := rfl
       serial := ⟨0, Nat.le_refl 0, rfl, rfl⟩
       origin := fun _ _ => rfl
       requests := ⟨[], rfl, rfl⟩ }, False.elim⟩
  obtain ⟨n, hn, hs, -⟩ := (handle_pair hset rfl hbeside).2.serial
  exact ⟨n, hn, hs⟩

namespace SideBySide

variable (h : g.SideBySide group w w')
include h

/-- A visit for another group leaves alone what the group has. -/
theorem other (hx : x.request.group ≠ group) : g.SideBySide group (g.afterVisit x w) w' := by
  have hsame (names : List String) :
      (g.afterVisit x w).disk.get? (g.cache.store.root ++ group :: names) =
        w.disk.get? (g.cache.store.root ++ group :: names) :=
    (g.handle_elsewhere x.request (w := x.enter w) h.trim.isTidy _
      (Job.run_mem_worlds _ _)).2 group hx.symm names
  have htidy := g.afterVisit_isTidy x h.trim.isTidy
  obtain ⟨n, -, hs⟩ := g.handle_serial x.request (x.enter w)
  obtain ⟨reply, ho, ho'⟩ := h.origin
  refine ⟨⟨htidy, fun names name hname => ?_⟩, h.trim', fun l hl => ?_, ?_, reply,
    (g.afterVisit_origin x w).trans ho, ho'⟩
  · rw [hsame]
    exact h.trim.free names name hname
  · have halike := h.alike l hl
    rcases hl with ⟨q, hq, rfl⟩ | ⟨names, rfl⟩
    · rw [h.trim.isTidy.onWay hq] at halike
      rwa [htidy.onWay hq]
    · rwa [hsame]
  · change (g.afterVisit x w).serial = w.serial + n at hs
    have hle := h.serial
    omega

/-- The visits for the group are told the same, whatever other visits there are. -/
theorem answers (hroom : g.cache.store.HasRoomForDrafts) {visits : List Visit}
    (hvisits : ∀ x ∈ visits, x.IsOrdinary g.cache.store group)
    (hserial : w.serial + 2 * visits.length ≤ 2 ^ 64) :
    (g.answers w visits).filter (fun a => a.1.request.group = group) =
      g.answers w' (visits.filter fun x => x.request.group = group) := by
  induction visits generalizing w w' with
  | nil => rfl
  | cons x rest ih =>
    rw [List.forall_mem_cons] at hvisits
    rw [List.length_cons] at hserial
    obtain ⟨n, hn, hs⟩ := g.handle_serial x.request (x.enter w)
    change (g.afterVisit x w).serial = w.serial + n at hs
    have hrest : (g.afterVisit x w).serial + 2 * rest.length ≤ 2 ^ 64 := by omega
    show List.filter _ ((x, g.told x w) :: g.answers (g.afterVisit x w) rest) = _
    by_cases hx : x.request.group = group
    · obtain ⟨htold, hside⟩ := h.own hroom hvisits.1 hx (by omega)
      rw [List.filter_cons_of_pos (by simpa using hx), List.filter_cons_of_pos (by simpa using hx),
        ih hside hvisits.2 hrest, ← htold]
      rfl
    · rw [List.filter_cons_of_neg (by simpa using hx), List.filter_cons_of_neg (by simpa using hx)]
      exact ih (h.other hx) hvisits.2 hrest

end SideBySide

theorem isTrim_of_isEmpty (hempty : g.cache.store.IsEmpty w.disk) (group : String) :
    g.cache.store.IsTrim group w.disk :=
  ⟨hempty.isTidy, fun _ _ _ => hempty.nothing _ (by simp)⟩

theorem afterVisits_isTidy (g : Gateway) (hw : g.cache.store.IsTidy w.disk) (visits : List Visit) :
    g.cache.store.IsTidy (g.afterVisits w visits).disk := by
  induction visits generalizing w with
  | nil => exact hw
  | cons x rest ih => exact ih (afterVisit_isTidy g x hw)

/-- Whatever visits a gateway with an empty cache gets, and whatever their names, tokens and times:
the visits for a group are told what they are told without the others, if none of them asks for an
image that is named like a scratch file, there is room for scratch files, and their numbers do not
run out. In any case no request changes anything of another group at any time, and the downloads of
two groups are never taken for one. -/
theorem handle_isolates (g : Gateway) {w : World} (hempty : g.cache.store.IsEmpty w.disk)
    (reply : OriginRequest → Exchange) (horigin : w.origin = fun _ => reply)
    (visits : List Visit) :
    (∀ group, g.cache.store.HasRoomForDrafts → w.serial + 2 * visits.length ≤ 2 ^ 64 →
      (∀ x ∈ visits, x.IsOrdinary g.cache.store group) →
        (g.answers w visits).filter (fun a => a.1.request.group = group) =
          g.answers w (visits.filter fun x => x.request.group = group)) ∧
      (∀ x : Visit, ∀ w' ∈ (g.handle x.request).worlds (x.enter (g.afterVisits w visits)),
        ∀ other, other ≠ x.request.group → ∀ names,
          w'.disk.get? (g.cache.store.root ++ other :: names) =
            (g.afterVisits w visits).disk.get? (g.cache.store.root ++ other :: names)) ∧
      ∀ r r' : BlobRef, Name.checkGroup r.group = .ok () → Name.checkGroup r'.group = .ok () →
        r.key = r'.key → r = r' := by
  refine ⟨fun group hroom hserial hvisits => ?_, fun x w' hw' other hne names => ?_,
    fun r r' hr hr' => BlobRef.key_inj (Name.isGroup_of_check hr) (Name.isGroup_of_check hr')⟩
  · exact (SideBySide.refl (isTrim_of_isEmpty hempty group) horigin).answers hroom hvisits hserial
  · exact (g.handle_elsewhere (w := x.enter (g.afterVisits w visits)) x.request
      (g.afterVisits_isTidy hempty.isTidy visits) w' hw').2 other hne names

/-! ## Runs of requests with tokens -/

theorem afterVisit_of_permit (hp : g.permit x.request (x.enter w).now = .ok ()) :
    g.afterVisit x w = ((g.serve x.request).run (x.enter w).ticked).2 := by
  rw [afterVisit, (isServed_of_permit hp).1]

theorem told_of_permit (hp : g.permit x.request (x.enter w).now = .ok ()) :
    g.told x w = ((g.serve x.request).run (x.enter w).ticked).1.map fun a =>
      (a, a.body.content ((g.serve x.request).run (x.enter w).ticked).2.disk) := by
  rw [told, afterVisit_of_permit hp, (isServed_of_permit hp).1]

/-- A group fetches a blob and then finds it in the cache, as it would without the other group that
asks for the same blob in between. The file of the other group is still there. -/
theorem handle_isolates_of_hit :
    let g : Gateway :=
      ⟨⟨Bytes.ofText "secret", 300⟩, ⟨{ base := [""] }, ⟨"registry", "token", "service", 1, none⟩⟩,
        ⟨[]⟩, true, "proxy"⟩
    let reply : OriginRequest → Exchange := fun r =>
      if r.url = "token" then
        .reply ⟨.ok, [], [Bytes.ofText "\x7b\"token\":\"t\"\x7d"], .complete⟩
      else .reply ⟨.ok, [], [[1]], .complete⟩
    let w : World :=
      { disk := ⟨[(Slot.of ["groups"], .folder)]⟩, clock := fun _ => ⟨0, 0⟩
        origin := fun _ => reply }
    let digest := Digest.of [1]
    let visit : String → Visit := fun group =>
      { request := g.withToken group "library/i" (.blob digest.text) 0, clock := w.clock }
    let between := [visit "h", visit "g"]
    let visits := between ++ [visit "h"]
    g.cache.store.IsEmpty w.disk ∧ g.cache.store.HasRoomForDrafts ∧
      w.serial + 2 * visits.length ≤ 2 ^ 64 ∧
      (∀ x ∈ visits, x.IsOrdinary g.cache.store "h") ∧
      (g.answers w visits).filter (fun a => a.1.request.group = "h") =
        g.answers w [visit "h", visit "h"] ∧
      (g.answers w [visit "h", visit "h"]).map (fun a =>
          a.2.toOption.map fun told => (told.1.source, told.2)) =
        [some (.miss, .ok [1]), some (.hit, .ok [1])] ∧
      (g.afterVisits w between).disk.read (g.cache.store.blobPath "g" "library/i" digest) =
        .ok [1] ∧
      ∀ w' ∈ (g.handle (visit "h").request).worlds ((visit "h").enter (g.afterVisits w between)),
        ∀ names, w'.disk.get? (g.cache.store.root ++ "g" :: names) =
          (g.afterVisits w between).disk.get? (g.cache.store.root ++ "g" :: names) := by
  intro g reply w digest visit between visits
  have hempty : g.cache.store.IsEmpty w.disk := Store.isEmpty_of_new
  have hroom : g.cache.store.HasRoomForDrafts := by constructor <;> decide +kernel
  have hdots : (Path.ofText "library/i").all fun part => !part.toList.contains '.' := by
    decide +kernel
  have hordinary (x : Visit) (hx : x.request.image = "library/i") :
      x.IsOrdinary g.cache.store "h" := by
    intro _ _ part hp hs
    rw [hx] at hp
    simpa [hs.dot] using List.all_eq_true.1 hdots part hp
  have hvisits : ∀ x ∈ visits, x.IsOrdinary g.cache.store "h" := by
    simp only [visits, between, List.cons_append, List.nil_append, List.forall_mem_cons]
    exact ⟨hordinary _ rfl, hordinary _ rfl, hordinary _ rfl, fun _ h => by cases h⟩
  have hfits : g.signer.Fits 0 := by constructor <;> decide +kernel
  have hi : Name.checkImage "library/i" = .ok () := by decide +kernel
  have hpermit (group : String) (hg : Name.checkGroup group = .ok ()) (w : World) :
      g.permit (visit group).request ((visit group).enter w).now = .ok () :=
    permit_withToken hg hi hfits (show (Int64.ofInt 0).toInt < _ by decide +kernel) _
  have hg := hpermit "g" (by decide +kernel)
  have hh := hpermit "h" (by decide +kernel)
  obtain ⟨htold, hread⟩ : (g.answers w [visit "h", visit "h"]).map (fun a =>
          a.2.toOption.map fun told => (told.1.source, told.2)) =
        [some (.miss, .ok [1]), some (.hit, .ok [1])] ∧
      (g.afterVisits w between).disk.read (g.cache.store.blobPath "g" "library/i" digest) =
        .ok [1] := by
    rw [afterVisits_cons, afterVisits_cons, afterVisits_nil, afterVisit_of_permit (hg _)]
    simp only [answers, told_of_permit (hh _), afterVisit_of_permit (hh _)]
    decide +kernel
  obtain ⟨hsame, -, -⟩ := handle_isolates g hempty reply rfl visits
  obtain ⟨-, helsewhere, -⟩ := handle_isolates g hempty reply rfl between
  exact ⟨hempty, hroom, by decide, hvisits, hsame "h" hroom (by decide) hvisits, htold, hread,
    fun w' hw' => helsewhere (visit "h") w' hw' "g" (by decide)⟩

/-- A group that can tell whether there are others. In the first run it has fetched a blob of an
image that is named like a scratch file. With a visit of another group in between the next scratch
file has another number and the blob of the outer image is fetched; without it a folder is in the
way. In the second run the base folder is so deep that there is room for the scratch file of number
nine, but not for that of number ten. -/
theorem answers_tell_numbers :
    let g : Gateway :=
      ⟨⟨Bytes.ofText "secret", 300⟩, ⟨{ base := [""] }, ⟨"registry", "token", "service", 1, none⟩⟩,
        ⟨[]⟩, true, "proxy"⟩
    let deep : Gateway :=
      { g with cache := { g.cache with store := { base := "" :: List.replicate 1997 "." } } }
    let reply : OriginRequest → Exchange := fun r =>
      if r.url = "token" then
        .reply ⟨.ok, [], [Bytes.ofText "\x7b\"token\":\"t\"\x7d"], .complete⟩
      else .reply ⟨.ok, [], [[1]], .complete⟩
    let worldAt : Nat → World := fun serial =>
      { disk := ⟨[(Slot.of ["groups"], .folder)]⟩, clock := fun _ => ⟨0, 0⟩, serial
        origin := fun _ => reply }
    let digest := Digest.of [1]
    let visit : String → String → Visit := fun group image =>
      { request := g.withToken group image (.blob digest.text) 0, clock := fun _ => ⟨0, 0⟩ }
    let first := visit "h" ("a/sha256/" ++ digest.hex ++ ".1000-1.tmp")
    let visits := [first, visit "g" "a", visit "h" "a"]
    let visits' := [visit "g" "aa", visit "h" "aa"]
    g.cache.store.IsEmpty (worldAt 0).disk ∧ deep.cache.store.IsEmpty (worldAt 9).disk ∧
      (g.answers (worldAt 0) visits).map (fun a => a.2.status) = [.ok, .ok, .ok] ∧
      (g.answers (worldAt 0) (visits.filter fun x => x.request.group = "h")).map
        (fun a => a.2.status) = [.ok, .internalServerError] ∧
      (deep.answers (worldAt 9) visits').map (fun a => a.2.status) = [.ok, .internalServerError] ∧
      (deep.answers (worldAt 9) (visits'.filter fun x => x.request.group = "h")).map
        (fun a => a.2.status) = [.ok] ∧
      (g.answers (worldAt 0) visits).filter (fun a => a.1.request.group = "h") ≠
        g.answers (worldAt 0) (visits.filter fun x => x.request.group = "h") := by
  intro g deep reply worldAt digest visit first visits visits'
  have hempty : g.cache.store.IsEmpty (worldAt 0).disk := Store.isEmpty_of_new
  have hdeep : deep.cache.store.IsEmpty (worldAt 9).disk :=
    Store.isEmpty_of_root (by decide +kernel) (by decide +kernel)
  have hfits : g.signer.Fits 0 := by constructor <;> decide +kernel
  have hlive : (Int64.ofInt 0).toInt < (0 : Int64).toInt + g.signer.ttl.toNat := by decide +kernel
  have hpermit (image group : String) (hi : Name.checkImage image = .ok ())
      (hg : Name.checkGroup group = .ok ()) (w : World) :
      g.permit (visit group image).request ((visit group image).enter w).now = .ok () :=
    permit_withToken hg hi hfits hlive _
  have hpermit' (group : String) (hg : Name.checkGroup group = .ok ()) (w : World) :
      deep.permit (visit group "aa").request ((visit group "aa").enter w).now = .ok () :=
    permit_withToken (g := deep) hg (by decide +kernel) hfits hlive _
  have hg : Name.checkGroup "g" = .ok () := by decide +kernel
  have hh : Name.checkGroup "h" = .ok () := by decide +kernel
  have hfirst := hpermit ("a/sha256/" ++ digest.hex ++ ".1000-1.tmp") "h" (by decide +kernel) hh
  have hother := hpermit "a" "g" (by decide +kernel) hg
  have hlast := hpermit "a" "h" (by decide +kernel) hh
  have hown : (visits.filter fun x => x.request.group = "h") = [first, visit "h" "a"] := rfl
  have hown' : (visits'.filter fun x => x.request.group = "h") = [visit "h" "aa"] := rfl
  rw [hown, hown']
  obtain ⟨hall, hfewer⟩ :
      (g.answers (worldAt 0) visits).map (fun a => a.2.status) = [.ok, .ok, .ok] ∧
        (g.answers (worldAt 0) [first, visit "h" "a"]).map (fun a => a.2.status) =
          [.ok, .internalServerError] := by
    simp only [visits, first, answers, told_of_permit (hfirst _), afterVisit_of_permit (hfirst _),
      told_of_permit (hother _), afterVisit_of_permit (hother _), told_of_permit (hlast _)]
    decide +kernel
  obtain ⟨hall', hfewer'⟩ :
      (deep.answers (worldAt 9) visits').map (fun a => a.2.status) = [.ok, .internalServerError] ∧
        (deep.answers (worldAt 9) [visit "h" "aa"]).map (fun a => a.2.status) = [.ok] := by
    simp only [visits', answers, told_of_permit (hpermit' _ hg _),
      afterVisit_of_permit (hpermit' _ hg _), told_of_permit (hpermit' _ hh _)]
    decide +kernel
  refine ⟨hempty, hdeep, hall, hfewer, hall', hfewer', fun hsame => ?_⟩
  have hfailed : Status.internalServerError ∈
      (g.answers (worldAt 0) [first, visit "h" "a"]).map fun a => a.2.status := by
    rw [hfewer]
    decide
  rw [← hsame] at hfailed
  obtain ⟨a, ha, hstatus⟩ := List.mem_map.1 hfailed
  have hmem := List.mem_map_of_mem (f := fun a => a.2.status) (List.mem_filter.1 ha).1
  rw [hall, hstatus] at hmem
  revert hmem
  decide

end Gateway

end PullThrough
