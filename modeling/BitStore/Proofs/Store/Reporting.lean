import BitStore.Proofs.Store.Accounting
import BitStore.Proofs.Store.Resizing

namespace BitStore

open BitStore.Action

inductive Store.Grants (s : Store) (v : BitVector) (len : Nat) : Option Nat → Prop
  | moved {q : Nat} {t : Store} : v.Reallocates len →
      (resizeBlock (v.data.getD 0) (BitVector.reserved ⟨len, v.data⟩)).Yields s (.ok q) t → Grants s v len (some q)
  | kept : ¬v.Reallocates len → Grants s v len v.data

namespace Held

/-- The vector has become `v`. The profiler `p`, which knows of `old` bytes, hears of it unless it cannot. -/
structure Tells (now : Nat) (p : Profiler) (old : Nat) (v : BitVector) (o : Outcome Held Unit) : Prop where
  vector : o.state.vector = v
  hears : ¬p.Misses old v.bytes →
    o.result = .ok () ∧ o.state.store.profiler.tally = p.tally.heed (.record now (v.bytes - old))
  misses : p.Misses old v.bytes → o.result = .error (.fault .addOverflow) ∧ o.state.store.profiler = p

variable {p : Profiler} {v : BitVector} {s t : Store} {o : Outcome Held Unit} {data : Option Nat} {now old len : Nat}

lemma tells_told (hvector : o.state.vector = v)
    (htold : (Profiler.told now old v.bytes).Yields p o.result o.state.store.profiler) : Tells now p old v o := by
  obtain ⟨hresult, hprofiler⟩ := htold
  refine ⟨hvector, fun hhears => ?_, fun hmisses => ?_⟩
  · obtain ⟨q, ⟨hq, hstate⟩, htally⟩ := Profiler.told_hears hhears now
    rw [← hresult, ← hprofiler, hq, hstate]
    exact ⟨rfl, htally⟩
  · obtain ⟨hq, hstate⟩ := Profiler.told_misses hmisses now
    rw [← hresult, ← hprofiler, hq, hstate]
    exact ⟨rfl, rfl⟩

lemma resize_tells (hv : v.len + 64 ≤ maxCount) (hlen : len + 64 ≤ maxCount) (hgrants : s.Grants v len data)
    (now : Nat) : Tells now s.profiler v.bytes ⟨len, data⟩ ((resize now len).run ⟨v, s⟩) := by
  obtain ⟨old, bytes, hold, hbytes, hrun⟩ := resize_run hv hlen now s
  have hnew : BitVector.bytes ⟨len, data⟩ = bytes := BitVector.bytes_eq hbytes
  cases hgrants with
  | moved hmoves hblock =>
    rw [hrun, if_neg ((reallocates_iff hold hbytes).mp hmoves)]
    obtain ⟨hresult, hstate⟩ := restore_moves hblock now len old bytes
    refine tells_told (congrArg Held.vector hstate) ?_
    rw [hresult, hstate, (Store.resizeBlock_profiler _ _).eq hblock, BitVector.bytes_eq hold, hnew]
    exact ⟨rfl, rfl⟩
  | kept hstays =>
    have hwords : wordBytes? v.len = wordBytes? len := not_not.mp fun hne => hstays (.inl hne)
    rw [resize_inPlace hv hlen hstays now s]
    refine tells_told rfl ?_
    rw [hnew, ← BitVector.bytes_eq (hwords.trans hbytes)]
    exact Profiler.told_same _ _ _

lemma clear_tells (hv : v.len + 64 ≤ maxCount) (hgone : (v.data.elim (pure ()) Store.giveBack).Yields s (.ok ()) t)
    (now : Nat) : Tells now s.profiler v.bytes .empty ((clear now).run ⟨v, s⟩) := by
  have hpadded := BitVector.padded hv
  obtain ⟨old, hold⟩ := wordBytes_of_padded hpadded
  obtain ⟨hresult, hstate⟩ := clear_done hold hpadded hgone now
  refine tells_told (congrArg Held.vector hstate) ?_
  rw [hresult, hstate, (Store.drop_profiler v.data).eq hgone, BitVector.bytes_eq hold, BitVector.bytes_of_len rfl]
  exact ⟨rfl, rfl⟩

end Held

namespace Workspace

variable {w : Workspace}

/-- A call to the profiler faults just if it is a change that would take the total out of its type, and changes
nothing then; a run comes to its end just if the sum of the changes never leaves the type, and the total is that sum.
A resize or clear that gets its storage changes the vector whatever the profiler says; it ends in a fault, with the
change untold, just if the profiler does. -/
theorem reporting_overflows (hw : w.Reached) (i now : Nat) :
    (∀ (p : Profiler) (c : Profiler.Call) (e : Stop), p.ending c = .error e ↔
      e = .fault .addOverflow ∧ p.after c = p ∧ ∃ now delta, c = .record now delta ∧ p.Overflows delta) ∧
    (∀ granularity start calls,
      ((∀ r ∈ (Profiler.idle granularity start).endings calls, r = .ok ()) ↔
        ∀ xs, xs <+: calls → FitsSigned (Profiler.Tally.blank.follow xs).total) ∧
      ((∀ r ∈ (Profiler.idle granularity start).endings calls, r = .ok ()) →
        ((Profiler.idle granularity start).run calls).usage = (Profiler.Tally.blank.follow calls).total)) ∧
    (∀ len data, len + 64 ≤ maxCount → w.store.Grants (w.vectors i) len data →
      Held.Tells now w.store.profiler (w.vectors i).bytes ⟨len, data⟩
        ((Held.resize now len).run ⟨w.vectors i, w.store⟩)) ∧
    ∀ t, ((w.vectors i).data.elim (pure ()) Store.giveBack).Yields w.store (.ok ()) t →
      Held.Tells now w.store.profiler (w.vectors i).bytes .empty ((Held.clear now).run ⟨w.vectors i, w.store⟩) := by
  have hfits := hw.secure.fits i
  refine ⟨fun p c e => ⟨fun he => ?_, fun ⟨he, _, hchange⟩ => Profiler.ending_eq_error_iff.mpr ⟨he, hchange⟩⟩,
    fun granularity start calls => ⟨?_, fun hends => congrArg Profiler.Tally.total (Profiler.tally_run hends)⟩,
    fun len data hlen hgrants => Held.resize_tells hfits hlen hgrants now,
    fun t hgone => Held.clear_tells hfits hgone now⟩
  · obtain ⟨hfault, hchange⟩ := Profiler.ending_eq_error_iff.mp he
    exact ⟨hfault, Profiler.after_of_error he, hchange⟩
  · exact Profiler.endings_ok_iff (by change FitsSigned 0; decide)

def brimming : Workspace := (on .spacious 0).after
  [enablePage, .profile ((Profiler.idle 0 0).run [.start 0, .record 0 (maxSigned - 8)]), .resize 0 0 64]

lemma brimming_reached : brimming.Reached ∧ brimming.store.Trusted :=
  reached_spacious ⟨trivial, enablePage_low _, trivial, nofun, trivial, nofun, trivial⟩

theorem reporting_overflows_brimming :
    brimming.store.profiler.ending (.record 0 1) = .error (.fault .addOverflow) ∧
    ((Held.resize 0 32).run ⟨brimming.vectors 0, brimming.store⟩).result = .ok () ∧
    ((Held.clear 0).run ⟨brimming.vectors 0, brimming.store⟩).result = .ok () ∧
    ((Held.clear 0).run ⟨brimming.vectors 0, brimming.store⟩).state.store.profiler.usage = maxSigned - 8 := by
  obtain ⟨hending, _, hresize, hclear⟩ := reporting_overflows brimming_reached.1 0 0
  have hover : brimming.store.profiler.Overflows 1 := ⟨by decide +kernel, by decide +kernel⟩
  have hstays : ¬(brimming.vectors 0).Reallocates 32 := by
    rintro (hwords | ⟨_, hreserved⟩ | ⟨hnone, _⟩)
    · exact absurd hwords (by decide +kernel)
    · exact absurd hreserved (by decide +kernel)
    · exact absurd hnone (by decide +kernel)
  have hshort : ¬brimming.store.profiler.Misses (brimming.vectors 0).bytes
      (BitVector.bytes ⟨32, (brimming.vectors 0).data⟩) := fun h => absurd h.1 (by decide +kernel)
  have hempty : ¬brimming.store.profiler.Misses (brimming.vectors 0).bytes BitVector.empty.bytes :=
    fun h => absurd h.2.2 (by decide +kernel)
  have hcut := (hresize 32 _ (by decide) (.kept hstays)).hears hshort
  have hcleared := (hclear _ ⟨by decide +kernel, rfl⟩).hears hempty
  refine ⟨(hending ..).mpr ⟨rfl, (Profiler.record_overflows hover 0).2, 0, 1, rfl, hover⟩, hcut.1, hcleared.1, ?_⟩
  refine (congrArg Profiler.Tally.total hcleared.2).trans ?_
  decide +kernel

theorem reporting_overflows_untold :
    let o := (Held.resize 0 128).run ⟨brimming.vectors 0, brimming.store⟩
    (brimming.vectors 0).len = 64 ∧ brimming.store.profiler.usage = maxSigned ∧
    (∃ q t, (Store.resizeBlock ((brimming.vectors 0).data.getD 0) 24).Yields brimming.store (.ok q) t) ∧
    o.result = .error (.fault .addOverflow) ∧ o.state.vector.len = 128 ∧ o.state.store.profiler.usage = maxSigned :=
  ⟨by decide +kernel, by decide +kernel, ⟨4096, _, by decide +kernel, rfl⟩, by decide +kernel, by decide +kernel,
    by decide +kernel⟩

end Workspace

end BitStore
