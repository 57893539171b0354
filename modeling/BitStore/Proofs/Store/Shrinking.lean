import BitStore.Proofs.Arena.Figures
import BitStore.Proofs.Arena.Reversal
import BitStore.Proofs.Store.Accounting
import BitStore.Proofs.Store.Resizing

namespace BitStore

open BitStore.Action

namespace Arena

variable {a : Arena} {l : List Node} {n p size : Nat}

lemma Layout.resize_stays (ha : a.Layout l) (hp : a.Usable p size) (hn : n ≤ size) :
    (resize p n).Ends a fun q t => q = p ∧ t.top = a.top := by
  obtain ⟨before, after, hheld, _, _, hle, hresize⟩ := ha.resize_smaller hp hn
  have hfollows := resize_follows ha p n
  rw [hresize] at hfollows
  obtain ⟨_, t, hyields, rfl, l', ht, htiling, _⟩ := hfollows
  obtain ⟨hsplit, _⟩ := Tiling.of_held? hheld
  refine ⟨_, t, hyields, rfl, ?_⟩
  rw [← ht.top_eq, ← ha.top_eq, htiling]
  simp only [Tiling.top, hsplit, Segment.total_coalesce, Segment.total_append, Segment.total_cut hle, Segment.total]
  omega

lemma Layout.giveBack_stays (ha : a.Layout l) (hp : a.Usable p size) :
    (giveBack p).Ends a fun _ t => t.top = a.top := by
  have hfollows := giveBack_follows ha p
  obtain ⟨u, hgive⟩ := Tiling.giveBack_ok (ha.usable_iff.mp hp)
  rw [hgive] at hfollows
  obtain ⟨_, t, hyields, _, l', ht, rfl, _⟩ := hfollows
  refine hyields.ends ?_
  rw [← ht.top_eq, ← ha.top_eq]
  exact Tiling.giveBack_top (ha.usable_pos hp) hgive

end Arena

namespace Profiler

variable {p : Profiler} {old new : Nat}

def Affords (p : Profiler) (old new : Nat) : Prop := p.tracking = true → FitsSigned (p.usage + ((new : Int) - old))

lemma Affords.told (h : p.Affords old new) (now : Nat) : ((told now old new).run p).result = .ok () := by
  obtain ⟨_, hyields, _⟩ := told_hears (fun hmisses => hmisses.2.2 (h hmisses.2.1)) now
  exact hyields.1

end Profiler

namespace Store

variable {s t : Store} {a : Arena} {p n size : Nat}

def top? (s : Store) : Option Nat := s.pool.map (·.top)

lemma onMemory_top (s : Store) (p : Nat) (f : Memory → Nat → Memory) : (s.onMemory p f).top? = s.top? := by
  rw [onMemory]
  cases ha : s.inPool p with
  | none => rfl
  | some a =>
    obtain ⟨hpool, _⟩ := Option.filter_eq_some_iff.mp ha
    rw [top?, top?, hpool]
    rfl

lemma clearBits_top (s : Store) (p count first : Nat) : (Held.clearBits s p count first).top? = s.top? := by
  rw [Held.clearBits]
  split
  · rw [setWords, onMemory_top, setWords, onMemory_top]
  · rfl

lemma Sound.resize_stays (hs : s.Sound) (ha : s.pool = some a) (hp : a.Usable p size) (hn : n ≤ size) :
    (resizeBlock p n).Ends s fun q t => q = p ∧ t.top? = s.top? ∧ t.profiler = s.profiler := by
  obtain ⟨l, hl⟩ := hs.layout a ha
  apply (yields_of_run (route_owned ha (hl.owns_names (.inl hp)))).bind_ends
  obtain ⟨q, a', hyields, hq, htop⟩ := hl.resize_stays hp hn
  refine (yields_zoom hyields).ends ⟨hq, ?_, rfl⟩
  rw [top?, top?, ha, Option.map_some, Option.map_some, htop]

lemma Sound.giveBack_stays (hs : s.Sound) (ha : s.pool = some a) (hp : a.Usable p size) :
    (giveBack p).Ends s fun _ t => t.top? = s.top? ∧ t.profiler = s.profiler := by
  obtain ⟨l, hl⟩ := hs.layout a ha
  apply (yields_of_run (route_owned ha (hl.owns_names (.inl hp)))).bind_ends
  obtain ⟨_, a', hyields, htop⟩ := hl.giveBack_stays hp
  refine (yields_zoom hyields).ends ⟨?_, rfl⟩
  rw [top?, top?, ha, Option.map_some, Option.map_some, htop]

end Store

namespace Workspace

variable {w : Workspace} {a : Arena} {i len now p : Nat}

lemma Secure.in_pool (hw : w.Secure) (hp : (w.vectors i).data = some p) (ha : w.store.inPool p = some a) :
    w.store.pool = some a ∧ ∃ size, (w.vectors i).reserved ≤ size ∧ a.Usable p size := by
  obtain ⟨size, hsize, hlive⟩ := hw.backs.backed _ _ _ (claim_vector hp)
  cases hissuer : w.issuer p with
  | heap =>
    rw [hissuer] at hlive
    cases ha.symm.trans (hw.sound.inPool_heap hlive)
  | pool =>
    rw [hissuer] at hlive
    obtain ⟨a', hpool, husable⟩ := Store.live_pool.mp hlive
    obtain rfl := Option.some.inj (ha.symm.trans (hw.sound.inPool_pool hpool husable))
    exact ⟨hpool, size, hsize, husable⟩

lemma Secure.shrinks (hw : w.Secure) (hp : (w.vectors i).data = some p) (ha : w.store.inPool p = some a)
    (hlen : len ≤ (w.vectors i).len)
    (hafford : w.store.profiler.Affords (w.vectors i).bytes (BitVector.bytes ⟨len, some p⟩)) (now : Nat) :
    (Held.resize now len).Ends ⟨w.vectors i, w.store⟩ fun _ h =>
      h.vector = ⟨len, some p⟩ ∧ h.store.top? = w.store.top? := by
  have hfits := hw.fits i
  have hlenFits : len + 64 ≤ maxCount := by omega
  -- The pool is asked only if the number of words changes; its answer is the block at hand.
  by_cases hmoves : (w.vectors i).Reallocates len
  · obtain ⟨old, bytes, hold, hbytes, hrun⟩ := Held.resize_run hfits hlenFits now w.store
    rw [if_neg ((Held.reallocates_iff hold hbytes).mp hmoves)] at hrun
    obtain ⟨hpool, size, hsize, husable⟩ := hw.in_pool hp ha
    have hsmaller : BitVector.reserved ⟨len, (w.vectors i).data⟩ ≤ size := by
      rw [Store.reserved_eq hfits] at hsize
      rw [Store.reserved_eq hlenFits]
      change 8 * (len / 64 + 1) ≤ size
      omega
    obtain ⟨q, t, hblock, rfl, htop, hprofiler⟩ := hw.sound.resize_stays hpool husable hsmaller
    rw [BitVector.bytes_eq hold, BitVector.bytes_eq hbytes, ← hprofiler] at hafford
    have hmoved := Held.restore_moves (v := w.vectors i) (by rw [hp]; exact hblock) now len old bytes
    rw [hafford.told now, Yields, ← hrun] at hmoved
    obtain ⟨hresult, hstate⟩ := hmoved
    refine ⟨(), _, ⟨hresult, rfl⟩, ?_⟩
    rw [hstate, hp]
    exact ⟨rfl, (Store.clearBits_top ..).trans htop⟩
  · refine (yields_of_run (Held.resize_inPlace hfits hlenFits hmoves now w.store)).ends ⟨?_, rfl⟩
    rw [hp]

lemma Secure.clears (hw : w.Secure) (hp : (w.vectors i).data = some p) (ha : w.store.inPool p = some a)
    (hafford : w.store.profiler.Affords (w.vectors i).bytes 0) (now : Nat) :
    (Held.clear now).Ends ⟨w.vectors i, w.store⟩ fun _ h => h.vector = .empty ∧ h.store.top? = w.store.top? := by
  obtain ⟨hpool, size, _, husable⟩ := hw.in_pool hp ha
  obtain ⟨_, t, hgone, htop, hprofiler⟩ := hw.sound.giveBack_stays hpool husable
  obtain ⟨old, hold⟩ := Held.wordBytes_of_padded (hw.padded i)
  have hdone := Held.clear_done hold (hw.padded i) (t := t) (by rw [hp]; exact hgone) now
  rw [BitVector.bytes_eq hold, ← hprofiler] at hafford
  rw [hafford.told now] at hdone
  exact hdone.ends ⟨rfl, htop⟩

/-- Resizing a vector in the pool to no more than its length and clearing it succeed in any state of the pool, as
long as the profiler can take the change; the storage stays where it is, and the top too. -/
theorem shrinking_succeeds (hw : w.Reached) (hp : (w.vectors i).data = some p) (ha : w.store.inPool p = some a)
    (now : Nat) :
    (∀ len ≤ (w.vectors i).len,
      w.store.profiler.Affords (w.vectors i).bytes (BitVector.bytes ⟨len, some p⟩) →
      ∃ t, (Held.resize now len).Yields ⟨w.vectors i, w.store⟩ (.ok ()) ⟨⟨len, some p⟩, t⟩ ∧ t.top? = some a.top) ∧
    (w.store.profiler.Affords (w.vectors i).bytes 0 →
      ∃ t, (Held.clear now).Yields ⟨w.vectors i, w.store⟩ (.ok ()) ⟨.empty, t⟩ ∧ t.top? = some a.top) := by
  have hsecure := hw.secure
  have htop : w.store.top? = some a.top := by
    rw [Store.top?, (hsecure.in_pool hp ha).1]
    rfl
  refine ⟨fun len hlen hafford => ?_, fun hafford => ?_⟩
  · obtain ⟨_, ⟨v, t⟩, hyields, rfl, hsame⟩ := hsecure.shrinks hp ha hlen hafford now
    exact ⟨t, hyields, hsame.trans htop⟩
  · obtain ⟨_, ⟨v, t⟩, hyields, rfl, hsame⟩ := hsecure.clears hp ha hafford now
    exact ⟨t, hyields, hsame.trans htop⟩

def crammed : Workspace := (on .spacious 0).after
  [enablePage, .profile ((Profiler.idle 0 0).started 0), .resize 0 0 64, .resize 0 1 32448]

lemma crammed_reached : crammed.Reached ∧ crammed.store.Trusted :=
  reached_spacious ⟨trivial, enablePage_low _, trivial, nofun, trivial, nofun, trivial, nofun, trivial⟩

theorem shrinking_succeeds_crammed : crammed.vectors 1 = ⟨32448, some 4128⟩ ∧
    crammed.store.pool.map (fun a => (a.region.len, a.top)) = some (4096, 4096) ∧
    (∃ t, (Held.resize 0 32447).Yields ⟨⟨32448, some 4128⟩, crammed.store⟩ (.ok ()) ⟨⟨32447, some 4128⟩, t⟩ ∧
      t.top? = some 4096) ∧
    ∃ t, (Held.clear 0).Yields ⟨⟨32448, some 4128⟩, crammed.store⟩ (.ok ()) ⟨.empty, t⟩ ∧ t.top? = some 4096 := by
  have hvector : crammed.vectors 1 = ⟨32448, some 4128⟩ := by decide +kernel
  have hfull : crammed.store.pool.map (fun a => (a.region.len, a.top)) = some (4096, 4096) := by decide +kernel
  have hinside : (crammed.store.inPool 4128).map (·.top) = some 4096 := by decide +kernel
  obtain ⟨a, ha, htop⟩ := Option.map_eq_some_iff.mp hinside
  obtain ⟨hresize, hclear⟩ := shrinking_succeeds (i := 1) crammed_reached.1 (by rw [hvector]) ha 0
  rw [hvector, htop] at hresize hclear
  exact ⟨hvector, hfull, hresize 32447 (by decide) fun _ => by decide +kernel, hclear fun _ => by decide +kernel⟩

end Workspace

end BitStore
