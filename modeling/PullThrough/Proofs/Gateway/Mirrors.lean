import PullThrough.Proofs.Cache.Mirrors
import PullThrough.Proofs.Gateway.Checkpoint
/-
  One request in two worlds.

  A request for a group reads the clock once and is then turned down or served. What it is served
  comes from what the cache holds for the group and from the origin, so in two worlds that agree
  on these it is answered the same (`Gateway.handle_pair`). Answers have no times in them: those
  of records do not matter.
-/
namespace PullThrough.Gateway

variable {t : Twins} {v : View} {w w' : World} {g : Gateway}

section Serve

variable {group image : String} (hset : t.Suits g.cache.store v group image)
  (hg : Name.checkGroup group = .ok ()) (hi : Name.checkImage image = .ok ())
  (h : t.Beside g.cache.store group v 0 w w')
include hset hg hi h

theorem serveManifest_pair (tag : String) :
    (g.serveManifest group image tag).Pair w (g.serveManifest group image tag) w' fun a u b u' =>
      b = a ∧ t.Beside g.cache.store group (v.upTo t.times) 2 u u' := by
  unfold serveManifest
  cases ht : Name.checkTag tag with
  | error fault => exact ⟨rfl, (h.mono (Nat.zero_le 2)).upTo⟩
  | ok _ =>
    refine Job.Pair.bind ((Cache.resolveManifest_pair hset hg hi ht h).post ?_)
    rintro a u b u' ⟨hab, hu⟩
    cases hab with
    | error failure => exact ⟨rfl, hu⟩
    | @ok found found' hlike =>
      refine ⟨?_, hu⟩
      -- the answer has no times in it
      show Except.ok _ = Except.ok _
      rw [hlike.record.rest, hlike.data, hlike.source]

theorem serveBlob_pair (digest : String) :
    (g.serveBlob group image digest).Pair w (g.serveBlob group image digest) w' fun a u b u' =>
      b = a ∧ t.Beside g.cache.store group (v.upTo t.times) 2 u u' := by
  unfold serveBlob
  cases digestOf digest with
  | error rejection => exact ⟨rfl, (h.mono (Nat.zero_le 2)).upTo⟩
  | ok digest =>
    refine Job.Pair.bind ((Cache.resolveBlob_pair hset hg hi digest h).post ?_)
    rintro _ u a u' ⟨rfl, hu⟩
    have hend := (hu.mono (Nat.le_succ 1)).upTo
    cases a with
    | error failure => exact ⟨rfl, hend⟩
    | ok found => exact ⟨rfl, hend⟩

end Serve

/-- A request is answered the same at the same time in two worlds that hold the same for its
group. -/
theorem handle_pair {r : PullRequest} (hset : t.Suits g.cache.store v r.group r.image)
    (hnow : w'.now = w.now) (h : t.Beside g.cache.store r.group v 0 w w') :
    (g.handle r).Pair w (g.handle r) w' fun a u b u' =>
      b = a ∧ t.Beside g.cache.store r.group (v.upTo t.times) 2 u u' := by
  have hticked : t.Beside g.cache.store r.group v 0 w.ticked w'.ticked :=
    ⟨h.toMirror.clock_step.2, h.trim⟩
  unfold Job.Pair
  cases hp : g.permit r w.now with
  | error rejection =>
    rw [(isTurnedDown_of_permit hp g.cache w rfl).1, (isTurnedDown_of_permit hp g.cache w' hnow).1]
    exact ⟨rfl, (hticked.mono (Nat.zero_le 2)).upTo⟩
  | ok _ =>
    obtain ⟨hg, hi⟩ := names_of_permit hp
    rw [(isServed_of_permit (w := w) hp).1, (isServed_of_permit (w := w') (hnow ▸ hp)).1]
    unfold serve
    cases r.resource with
    | manifest tag => exact serveManifest_pair hset hg hi hticked tag
    | blob digest => exact serveBlob_pair hset hg hi hticked digest

end PullThrough.Gateway
